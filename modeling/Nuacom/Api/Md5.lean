import Nuacom.Support.CString

set_option relaxedAutoImplicit false
set_option autoImplicit false

/-!
# The MD5 class of the service

The class keeps a 64-byte buffer, a 64-bit count of message bits in two words, the four words
of the digest so far, and a flag that says whether it has been finalized. `md5` constructs one
from a string, which updates and finalizes it, and prints the digest in hexadecimal.

## Main definitions

* `Nuacom.MD5` — the object; `Nuacom.MD5.transform`, `update`, `finalize`, `hexdigest` — its
  methods.
* `Nuacom.md5` — the digest of a string as text.

## Main results

* `Nuacom.length_md5`, `Nuacom.isHexDigit_of_mem_md5` — the text is 32 lower-case hexadecimal
  digits.

## Implementation notes

The 64 rounds of `transform` are a table. In the source each round updates the first of its
four word arguments and the next round is called with the words rotated by one place; the
table is run on a quadruple that is rotated after each round, which after 64 rounds is back in
place. The loop of `update` compares a 32-bit index with the length; for the lengths just below
`2 ^ 32` the index wraps and the loop does not end, which is not modelled.
-/

namespace Nuacom

open CString

/-- The four words of the digest so far. -/
structure Md5State where
  a : UInt32
  b : UInt32
  c : UInt32
  d : UInt32
  deriving DecidableEq, Repr

/-- An `MD5` object. -/
structure MD5 where
  finalized : Bool
  /-- Bytes that did not fill a block yet, at the start of 64 bytes of memory. -/
  buffer : Bytes
  /-- The number of message bits, low word. -/
  count0 : UInt32
  /-- The number of message bits, high word. -/
  count1 : UInt32
  state : Md5State
  digest : Bytes
  deriving DecidableEq, Repr

namespace MD5

/-- `blocksize` -/
def blocksize : ℕ := 64

/-! ## One block -/

/-- `MD5::F` -/
def F (x y z : UInt32) : UInt32 := (x &&& y) ||| (~~~x &&& z)

/-- `MD5::G` -/
def G (x y z : UInt32) : UInt32 := (x &&& z) ||| (y &&& ~~~z)

/-- `MD5::H` -/
def H (x y z : UInt32) : UInt32 := x ^^^ y ^^^ z

/-- `MD5::I` -/
def I (x y z : UInt32) : UInt32 := y ^^^ (x ||| ~~~z)

/-- `MD5::rotate_left` -/
def rotateLeft (x n : UInt32) : UInt32 := (x <<< n) ||| (x >>> (32 - n))

/-- `MD5::FF`, `GG`, `HH` and `II`: the new value of the first word. -/
def round (f : UInt32 → UInt32 → UInt32 → UInt32) (st : Md5State) (x s ac : UInt32) : UInt32 :=
  rotateLeft (st.a + f st.b st.c st.d + x + ac) s + st.b

/-- The rounds of `transform`: for each, the index of its message word and its constant. -/
def rounds : List ((UInt32 → UInt32 → UInt32 → UInt32) × List UInt32 × List (ℕ × UInt32)) :=
  [(F, [7, 12, 17, 22],
    [(0, 0xd76aa478), (1, 0xe8c7b756), (2, 0x242070db), (3, 0xc1bdceee),
     (4, 0xf57c0faf), (5, 0x4787c62a), (6, 0xa8304613), (7, 0xfd469501),
     (8, 0x698098d8), (9, 0x8b44f7af), (10, 0xffff5bb1), (11, 0x895cd7be),
     (12, 0x6b901122), (13, 0xfd987193), (14, 0xa679438e), (15, 0x49b40821)]),
   (G, [5, 9, 14, 20],
    [(1, 0xf61e2562), (6, 0xc040b340), (11, 0x265e5a51), (0, 0xe9b6c7aa),
     (5, 0xd62f105d), (10, 0x2441453), (15, 0xd8a1e681), (4, 0xe7d3fbc8),
     (9, 0x21e1cde6), (14, 0xc33707d6), (3, 0xf4d50d87), (8, 0x455a14ed),
     (13, 0xa9e3e905), (2, 0xfcefa3f8), (7, 0x676f02d9), (12, 0x8d2a4c8a)]),
   (H, [4, 11, 16, 23],
    [(5, 0xfffa3942), (8, 0x8771f681), (11, 0x6d9d6122), (14, 0xfde5380c),
     (1, 0xa4beea44), (4, 0x4bdecfa9), (7, 0xf6bb4b60), (10, 0xbebfbc70),
     (13, 0x289b7ec6), (0, 0xeaa127fa), (3, 0xd4ef3085), (6, 0x4881d05),
     (9, 0xd9d4d039), (12, 0xe6db99e5), (15, 0x1fa27cf8), (2, 0xc4ac5665)]),
   (I, [6, 10, 15, 21],
    [(0, 0xf4292244), (7, 0x432aff97), (14, 0xab9423a7), (5, 0xfc93a039),
     (12, 0x655b59c3), (3, 0x8f0ccc92), (10, 0xffeff47d), (1, 0x85845dd1),
     (8, 0x6fa87e4f), (15, 0xfe2ce6e0), (6, 0xa3014314), (13, 0x4e0811a1),
     (4, 0xf7537e82), (11, 0xbd3af235), (2, 0x2ad7d2bb), (9, 0xeb86d391)])]

/-- One pass of 16 rounds over the message words `x`; the shifts repeat every four rounds. -/
def pass (f : UInt32 → UInt32 → UInt32 → UInt32) (shifts : List UInt32) (x : List UInt32) :
    Md5State → List (ℕ × UInt32) → Md5State
  | st, [] => st
  | st, (k, ac) :: rest =>
    let a := round f st (x.getD k 0) (shifts.headD 0) ac
    -- the next round is called with `d, a, b, c`
    pass f (shifts.tail ++ shifts.take 1) x ⟨st.d, a, st.b, st.c⟩ rest

/-- `MD5::decode`: bytes into words, lowest byte first. -/
def decode : Bytes → List UInt32
  | b0 :: b1 :: b2 :: b3 :: rest =>
    (b0.toUInt32 ||| (b1.toUInt32 <<< 8) ||| (b2.toUInt32 <<< 16) ||| (b3.toUInt32 <<< 24)) ::
      decode rest
  | _ => []

/-- `MD5::encode`: words into bytes, lowest byte first. -/
def encode (words : List UInt32) : Bytes :=
  words.flatMap fun (w : UInt32) =>
    [(w &&& 0xff).toUInt8, ((w >>> 8) &&& 0xff).toUInt8, ((w >>> 16) &&& 0xff).toUInt8,
      ((w >>> 24) &&& 0xff).toUInt8]

/-- `MD5::transform`: apply the algorithm to one block. -/
def transform (st : Md5State) (block : Bytes) : Md5State :=
  let x := decode block
  let st' := rounds.foldl (fun s r => pass r.1 r.2.1 x s r.2.2) st
  ⟨st.a + st'.a, st.b + st'.b, st.c + st'.c, st.d + st'.d⟩

/-! ## The object's methods -/

/-- `MD5::init` -/
def init : MD5 where
  finalized := false
  buffer := List.replicate blocksize 0
  count0 := 0
  count1 := 0
  state := ⟨0x67452301, 0xefcdab89, 0x98badcfe, 0x10325476⟩
  digest := List.replicate 16 0

/-- The loop of `update`: transform `n` whole blocks, and return what remains. -/
def transformBlocks : ℕ → Md5State → Bytes → Md5State × Bytes
  | 0, st, input => (st, input)
  | n + 1, st, input =>
    transformBlocks n (transform st (input.take blocksize)) (input.drop blocksize)

/-- Copy `src` into the memory `m` at position `index`. -/
def memcpyAt (m : Bytes) (index : ℕ) (src : Bytes) : Bytes :=
  m.take index ++ src ++ m.drop (index + src.length)

/-- `MD5::update`: continue with the bytes `input`. -/
def update (m : MD5) (input : Bytes) : MD5 :=
  -- the length is a 32-bit number
  let length := UInt32.ofNat input.length
  let input := input.take length.toNat
  let index := (m.count0 / 8 % 64).toNat
  let count0 := m.count0 + (length <<< 3)
  let carry : UInt32 := if count0 < length <<< 3 then 1 else 0
  let count1 := m.count1 + carry + (length >>> 29)
  let firstpart := 64 - index
  if firstpart ≤ input.length then
    -- fill the buffer first, then take whole blocks from the input
    let buffer := memcpyAt m.buffer index (input.take firstpart)
    let rest := input.drop firstpart
    let (state, rest) := transformBlocks (rest.length / blocksize) (transform m.state buffer) rest
    { m with count0, count1, state, buffer := memcpyAt buffer 0 rest }
  else
    { m with count0, count1, buffer := memcpyAt m.buffer index input }

/-- The `padding` of `finalize`. -/
def padding : Bytes := 0x80 :: List.replicate 63 0

/-- `MD5::finalize`: pad, append the length, and store the state in the digest. -/
def finalize (m : MD5) : MD5 :=
  if m.finalized then m
  else
    let bits := encode [m.count0, m.count1]
    let index := (m.count0 / 8 % 64).toNat
    let padLen := if index < 56 then 56 - index else 120 - index
    let m := (m.update (padding.take padLen)).update bits
    { m with
      digest := encode [m.state.a, m.state.b, m.state.c, m.state.d]
      buffer := List.replicate blocksize 0
      count0 := 0
      count1 := 0
      finalized := true }

/-- A lower-case hexadecimal digit. -/
def hexDigit (n : ℕ) : UInt8 := UInt8.ofNat (if n < 10 then 48 + n else 87 + n)

/-- `%02x` -/
def hexByte (b : UInt8) : Bytes := [hexDigit (b.toNat / 16), hexDigit (b.toNat % 16)]

/-- `MD5::hexdigest` -/
def hexdigest (m : MD5) : Bytes := if m.finalized then m.digest.flatMap hexByte else []

/-- `MD5::MD5(const std::string &)` -/
def ofText (text : Bytes) : MD5 := (init.update text).finalize

end MD5

/-- `md5`: the digest of a string as text. -/
def md5 (str : Bytes) : Bytes := (MD5.ofText str).hexdigest

example : md5 (bytes "abc") = bytes "900150983cd24fb0d6963f7d28e17f72" := by decide +kernel

/-! ## The shape of the text -/

/-- The lower-case hexadecimal digits. -/
def IsHexDigit (c : UInt8) : Prop := (48 ≤ c ∧ c ≤ 57) ∨ (97 ≤ c ∧ c ≤ 102)

instance (c : UInt8) : Decidable (IsHexDigit c) := inferInstanceAs (Decidable (_ ∨ _))

namespace MD5

/-- `hexDigit` prints the numbers below 16 as hexadecimal digits. -/
private theorem isHexDigit_hexDigit : ∀ n < 16, IsHexDigit (hexDigit n) := by
  unfold IsHexDigit
  decide

/-- The two digits of a byte. -/
theorem isHexDigit_of_mem_hexByte {b c : UInt8} (h : c ∈ hexByte b) : IsHexDigit c := by
  have hb := b.toNat_lt
  simp only [hexByte, List.mem_cons, List.not_mem_nil, or_false] at h
  rcases h with rfl | rfl
  · exact isHexDigit_hexDigit _ (by omega)
  · exact isHexDigit_hexDigit _ (by omega)

/-- An object that was not finalized before is so after `finalize`, with a digest of four
words. -/
theorem finalize_spec (m : MD5) (h : m.finalized = false) :
    m.finalize.finalized = true ∧ m.finalize.digest.length = 16 := by
  simp [finalize, h, encode]

/-- An update does not finalize. -/
theorem finalized_update (m : MD5) (input : Bytes) :
    (m.update input).finalized = m.finalized := by
  simp only [update]
  split_ifs <;> rfl

end MD5

/-- Every byte of the text is a lower-case hexadecimal digit. -/
theorem isHexDigit_of_mem_md5 {str : Bytes} {c : UInt8} (h : c ∈ md5 str) : IsHexDigit c := by
  unfold md5 MD5.hexdigest at h
  split_ifs at h
  · obtain ⟨b, _, hb⟩ := List.mem_flatMap.mp h
    exact MD5.isHexDigit_of_mem_hexByte hb
  · simp at h

/-- The text has 32 digits. -/
theorem length_md5 (str : Bytes) : (md5 str).length = 32 := by
  have hi : (MD5.init.update str).finalized = false := by rw [MD5.finalized_update]; rfl
  obtain ⟨hf, hd⟩ := MD5.finalize_spec _ hi
  unfold md5 MD5.hexdigest MD5.ofText
  rw [if_pos hf, List.length_flatMap]
  simp only [MD5.hexByte, List.length_cons, List.length_nil, List.map_const',
    List.sum_replicate_nat, hd]

/-- The text contains none of the bytes that a URL gives a meaning to, and no zero byte. -/
theorem not_mem_md5 (str : Bytes) {c : UInt8} (h : ¬ IsHexDigit c) : c ∉ md5 str :=
  fun hc => h (isHexDigit_of_mem_md5 hc)

end Nuacom
