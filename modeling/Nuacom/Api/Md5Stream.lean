import Nuacom.Api.Md5
import Nuacom.Support.BlockHash

set_option relaxedAutoImplicit false
set_option autoImplicit false

/-!
# What the MD5 class computes

The class takes a message in pieces, which its buffer collects into blocks, and pads it in
`finalize` by two more updates. The digest is the one of the padded message as a whole: the message,
a byte `80`, zeros, and the number of its bits.

## Main definitions

* `Nuacom.MD5.pad` — the padded message.
* `Nuacom.MD5.hash` — the state after all blocks of the padded message.
* `Nuacom.MD5.Represents` — an object that has got a message.

## Main results

* `Nuacom.MD5.Represents.update` — an update continues the message.
* `Nuacom.MD5.digest_foldl_update` — the digest is that of the message, in whatever pieces it comes.
* `Nuacom.md5_eq` — `md5` of a text.

## Implementation notes

The two words for the number of bits are one number below `2 ^ 64`. The results about the digest
are for inputs shorter than `2 ^ 32 - 64`, as longer ones make the index of the loop in `update`
wrap.
-/

namespace Nuacom

open CString BlockHash

namespace MD5

/-! ## The message as a whole -/

/-- A number as 8 bytes, lowest byte first. -/
def bits64 (x : ℕ) : Bytes := (List.range 8).map fun i => UInt8.ofNat (x / 256 ^ i)

/-- The message, a byte `80`, zeros up to 56 bytes of a block, and the number of its bits. -/
def pad (msg : Bytes) : Bytes :=
  msg ++ 0x80 :: List.replicate ((119 - msg.length % 64) % 64) 0 ++ bits64 (8 * msg.length)

/-- The state after all blocks of the padded message. -/
def hash (msg : Bytes) : Md5State := (absorb transform blocksize init.state (pad msg)).1

/-- The digest of a state. -/
def toDigest (st : Md5State) : Bytes := encode [st.a, st.b, st.c, st.d]

/-- The padded message fills its blocks, so that the hash leaves none of it out. -/
theorem length_pad_mod (msg : Bytes) : (pad msg).length % 64 = 0 := by
  simp only [pad, bits64, List.length_append, List.length_cons, List.length_replicate,
    List.length_map, List.length_range]
  omega

/-! ## Objects -/

/-- What a stream of blocks holds that has got the message. -/
def stream (msg : Bytes) : Stream Md5State UInt8 blocksize :=
  (Stream.start (by decide) init.state).push transform msg

/-- The object has got the message, and is not finalized. -/
structure Represents (m : MD5) (msg : Bytes) : Prop where
  finalized : m.finalized = false
  length_buffer : m.buffer.length = 64
  state : m.state = (stream msg).value
  buffer : m.buffer.take (stream msg).pending.length = (stream msg).pending
  count : m.count0.toNat + 2 ^ 32 * m.count1.toNat = 8 * msg.length % 2 ^ 64

/-- As many bytes wait for a block as the length leaves over. -/
theorem length_pending (msg : Bytes) : (stream msg).pending.length = msg.length % 64 :=
  Stream.length_pending_start ..

/-- A message that goes on is pushed on the stream. -/
theorem stream_append (msg msg' : Bytes) :
    stream (msg ++ msg') = (stream msg).push transform msg' :=
  (Stream.push_push ..).symm

/-- A new object has got nothing. -/
theorem Represents.init : init.Represents [] where
  finalized := rfl
  length_buffer := rfl
  state := rfl
  buffer := rfl
  count := rfl

/-- The loop of `update` feeds blocks. -/
theorem transformBlocks_eq (k : ℕ) (st : Md5State) (input : Bytes) :
    transformBlocks k st input = feed transform blocksize k st input := by
  induction k generalizing st input with
  | zero => rfl
  | succ k ih =>
    unfold transformBlocks feed
    exact ih _ _

/-- The position in the buffer. -/
theorem Represents.index {m : MD5} {msg : Bytes} (h : m.Represents msg) :
    (m.count0 / 8 % 64).toNat = msg.length % 64 := by
  have hcount := h.count
  have hlt := m.count0.toNat_lt
  have hlt' := m.count1.toNat_lt
  simp only [UInt32.toNat_mod, UInt32.toNat_div, UInt32.reduceToNat]
  omega

/-- The carry between the two words of the count.

**Proof sketch.** The low word carries exactly when the sum is smaller than the addend; both words
together are the sum modulo `2 ^ 64`. -/
theorem count_add (count0 count1 length : UInt32) {k : ℕ}
    (h : count0.toNat + 2 ^ 32 * count1.toNat = 8 * k % 2 ^ 64) :
    (count0 + (length <<< 3)).toNat + 2 ^ 32 *
        (count1 + (if count0 + (length <<< 3) < length <<< 3 then (1 : UInt32) else 0) +
          (length >>> 29)).toNat =
      8 * (k + length.toNat) % 2 ^ 64 := by
  have h0 := count0.toNat_lt
  have h1 := count1.toNat_lt
  have hlen := length.toNat_lt
  have hshl : (length <<< 3).toNat = length.toNat * 8 % 2 ^ 32 := by
    simp [UInt32.toNat_shiftLeft, Nat.shiftLeft_eq]
  have hshr : (length >>> 29).toNat = length.toNat / 2 ^ 29 := by
    simp [UInt32.toNat_shiftRight, Nat.shiftRight_eq_div_pow]
  by_cases hcarry : count0 + (length <<< 3) < length <<< 3
  · rw [if_pos hcarry]
    simp only [UInt32.lt_iff_toNat_lt, UInt32.toNat_add, hshl, hshr] at hcarry ⊢
    have hone : (1 : UInt32).toNat = 1 := rfl
    omega
  · rw [if_neg hcarry]
    simp only [UInt32.lt_iff_toNat_lt, UInt32.toNat_add, hshl, hshr] at hcarry ⊢
    have hzero : (0 : UInt32).toNat = 0 := rfl
    omega

/-- Copying behind a prefix.

**Proof sketch.** The front of the memory, what is copied and the rest are in a row. -/
theorem take_memcpyAt (mem : Bytes) (index : ℕ) (src : Bytes)
    (h : index + src.length ≤ mem.length) :
    (memcpyAt mem index src).take (index + src.length) = mem.take index ++ src ∧
      (memcpyAt mem index src).length = mem.length := by
  have hindex : (mem.take index).length = index := by
    rw [List.length_take]
    omega
  constructor
  · unfold memcpyAt
    rw [List.take_append_of_le_length (by simp [hindex]), List.take_of_length_le (by simp [hindex])]
  · unfold memcpyAt
    simp only [List.length_append, List.length_drop, hindex]
    omega

/-- The bytes of the input that an update takes. -/
theorem length_taken (input : Bytes) :
    (input.take (UInt32.ofNat input.length).toNat).length = (UInt32.ofNat input.length).toNat := by
  have hle : (UInt32.ofNat input.length).toNat ≤ input.length := by
    rw [UInt32.toNat_ofNat']
    exact Nat.mod_le ..
  rw [List.length_take]
  omega

section Update

variable {m : MD5} {input : Bytes}

/-- An update counts the bits of its input, and does not finalize. -/
theorem update_counts (m : MD5) (input : Bytes) :
    (m.update input).finalized = m.finalized ∧
      (m.update input).count0 = m.count0 + (UInt32.ofNat input.length <<< 3) ∧
      (m.update input).count1 = m.count1 +
        (if m.count0 + (UInt32.ofNat input.length <<< 3) < UInt32.ofNat input.length <<< 3
          then (1 : UInt32) else 0) + (UInt32.ofNat input.length >>> 29) := by
  simp only [update]
  split_ifs <;> exact ⟨rfl, rfl, rfl⟩

/-- An input that fills the buffer. -/
theorem update_of_le {index : ℕ} {taken : Bytes} (hindex : (m.count0 / 8 % 64).toNat = index)
    (htaken : input.take (UInt32.ofNat input.length).toNat = taken)
    (hle : 64 - index ≤ taken.length) :
    ∃ buffer rest, buffer = memcpyAt m.buffer index (taken.take (64 - index)) ∧
      rest = absorb transform blocksize (transform m.state buffer) (taken.drop (64 - index)) ∧
      (m.update input).state = rest.1 ∧ (m.update input).buffer = memcpyAt buffer 0 rest.2 := by
  subst hindex htaken
  refine ⟨_, _, rfl, rfl, ?_⟩
  simp only [update, if_pos hle, transformBlocks_eq]
  exact ⟨rfl, rfl⟩

/-- An input that does not. -/
theorem update_of_lt {index : ℕ} {taken : Bytes} (hindex : (m.count0 / 8 % 64).toNat = index)
    (htaken : input.take (UInt32.ofNat input.length).toNat = taken)
    (hlt : ¬ 64 - index ≤ taken.length) :
    (m.update input).state = m.state ∧
      (m.update input).buffer = memcpyAt m.buffer index taken := by
  subst hindex htaken
  constructor
  · simp only [update, if_neg hlt]
  · simp only [update, if_neg hlt]

end Update

/-- **An update continues the message.** Of the input it takes as many bytes as the 32-bit length
says.

**Proof sketch.** The buffer holds what does not fill a block. If the input fills it, the first
block is the buffer, and the loop takes the others from the rest of the input; otherwise the input
is put behind what the buffer holds. -/
theorem Represents.update {m : MD5} {msg : Bytes} (h : m.Represents msg) (input : Bytes) :
    (m.update input).Represents (msg ++ input.take (input.length % 2 ^ 32)) := by
  obtain ⟨taken, htaken⟩ : ∃ taken, input.take (UInt32.ofNat input.length).toNat = taken :=
    ⟨_, rfl⟩
  have hlength : taken.length = (UInt32.ofNat input.length).toNat := htaken ▸ length_taken input
  have hsame : input.take (input.length % 2 ^ 32) = taken := by
    rw [← htaken, UInt32.toNat_ofNat']
  have hpending := length_pending msg
  have hindex := h.index
  have hbuffer := h.length_buffer
  have hprefix := h.buffer
  obtain ⟨hfinalized, hcount0, hcount1⟩ := update_counts m input
  rw [hsame]
  set x := stream msg with hx
  have hvalue : stream (msg ++ taken) = x.push transform taken := stream_append msg taken
  have hcounts : (m.update input).count0.toNat + 2 ^ 32 * (m.update input).count1.toNat =
      8 * (msg ++ taken).length % 2 ^ 64 := by
    rw [hcount0, hcount1, List.length_append, hlength]
    exact count_add _ _ _ h.count
  by_cases hle : 64 - msg.length % 64 ≤ taken.length
  · obtain ⟨buffer, rest, hbuf, hrest, hstate, hnew⟩ := update_of_le hindex htaken hle
    have hfirst : (taken.take (64 - msg.length % 64)).length = 64 - msg.length % 64 := by
      rw [List.length_take]
      omega
    obtain ⟨hcopied, hlen⟩ := take_memcpyAt m.buffer (msg.length % 64)
      (taken.take (64 - msg.length % 64)) (by omega)
    have hblock : buffer = x.pending ++ taken.take (64 - msg.length % 64) := by
      rw [hfirst, show msg.length % 64 + (64 - msg.length % 64) = m.buffer.length by omega,
        ← hlen, ← hbuf, List.take_length] at hcopied
      rw [hcopied, ← hprefix, hpending]
    have hmessage : absorb transform blocksize x.value (x.pending ++ taken) = rest := by
      rw [hrest, h.state, hblock]
      exact absorb_fill (by rw [hpending, blocksize]; omega) (by decide) hle
    have hleft : rest.2.length < 64 := by
      rw [← hmessage, length_absorb]
      exact Nat.mod_lt _ (by decide)
    have hfull : buffer.length = 64 := by rw [hbuf, hlen, hbuffer]
    obtain ⟨hcopied', hlen'⟩ := take_memcpyAt buffer 0 rest.2 (by omega)
    have hnewPending : (stream (msg ++ taken)).pending = rest.2 := by
      rw [hvalue]
      exact congrArg Prod.snd hmessage
    refine ⟨hfinalized.trans h.finalized, ?_, ?_, ?_, hcounts⟩
    · rw [hnew, hlen', hfull]
    · rw [hstate, hvalue]
      exact (congrArg Prod.fst hmessage).symm
    · rw [hnew, hnewPending]
      simpa using hcopied'
  · obtain ⟨hstate, hnew⟩ := update_of_lt hindex htaken hle
    obtain ⟨hcopied, hlen⟩ := take_memcpyAt m.buffer (msg.length % 64) taken (by omega)
    have hshort : (x.pending ++ taken).length < blocksize := by
      rw [List.length_append, hpending, blocksize]
      omega
    have hmessage : absorb transform blocksize x.value (x.pending ++ taken) = _ :=
      absorb_of_lt hshort
    have hnewPending : (stream (msg ++ taken)).pending = x.pending ++ taken := by
      rw [hvalue]
      exact congrArg Prod.snd hmessage
    refine ⟨hfinalized.trans h.finalized, ?_, ?_, ?_, hcounts⟩
    · rw [hnew, hlen, hbuffer]
    · rw [hstate, h.state, hvalue]
      exact (congrArg Prod.fst hmessage).symm
    · rw [hnew, hnewPending, List.length_append, hpending, hcopied, ← hpending, hprefix]

/-- An input whose length fits the 32-bit number is taken as a whole. -/
theorem Represents.update_of_lt {m : MD5} {msg : Bytes} (h : m.Represents msg) {input : Bytes}
    (hlt : input.length < 2 ^ 32) : (m.update input).Represents (msg ++ input) := by
  have hnext := h.update input
  rwa [Nat.mod_eq_of_lt hlt, List.take_length] at hnext

/-- Updates one after the other continue the message.

**Proof sketch.** Induction on the inputs. -/
theorem Represents.foldl_update {m : MD5} {msg : Bytes} (h : m.Represents msg)
    (inputs : List Bytes) (hlt : ∀ input ∈ inputs, input.length < 2 ^ 32) :
    (inputs.foldl MD5.update m).Represents (msg ++ inputs.flatten) := by
  induction inputs generalizing m msg with
  | nil => simpa using h
  | cons input inputs ih =>
    rw [List.foldl_cons, List.flatten_cons, ← List.append_assoc]
    exact ih (h.update_of_lt (hlt input List.mem_cons_self))
      fun other hother => hlt other (List.mem_cons_of_mem input hother)

/-! ## The end of a message -/

/-- The low byte of a word. -/
theorem toUInt8_eq {w : UInt32} {x : ℕ} (h : w.toNat % 256 = x % 256) :
    (w &&& 0xff).toUInt8 = UInt8.ofNat x := by
  have hmask : (w &&& 0xff).toNat = w.toNat % 2 ^ 8 := by
    rw [UInt32.toNat_and]
    exact Nat.and_two_pow_sub_one_eq_mod w.toNat 8
  rw [← UInt8.toNat_inj]
  simp only [UInt32.toNat_toUInt8, UInt8.toNat_ofNat', hmask]
  omega

/-- The two words of a count, one after the other, are its bytes.

**Proof sketch.** Byte by byte: a shift divides by a power of two, and the mask takes what is left
modulo 256. -/
theorem encode_eq_bits64 {count0 count1 : UInt32} {n : ℕ}
    (h : count0.toNat + 2 ^ 32 * count1.toNat = n % 2 ^ 64) :
    encode [count0, count1] = bits64 n := by
  have h0 := count0.toNat_lt
  have hshift : ∀ w : UInt32, (w >>> 8).toNat = w.toNat / 2 ^ 8 ∧
      (w >>> 16).toNat = w.toNat / 2 ^ 16 ∧ (w >>> 24).toNat = w.toNat / 2 ^ 24 := by
    intro w
    simp [UInt32.toNat_shiftRight, Nat.shiftRight_eq_div_pow]
  obtain ⟨h08, h016, h024⟩ := hshift count0
  obtain ⟨h18, h116, h124⟩ := hshift count1
  have hbits : bits64 n = [n, n / 2 ^ 8, n / 2 ^ 16, n / 2 ^ 24, n / 2 ^ 32, n / 2 ^ 40,
      n / 2 ^ 48, n / 2 ^ 56].map UInt8.ofNat := by
    simp [bits64, List.range_succ_eq_map]
  rw [hbits]
  simp only [encode, List.flatMap_cons, List.flatMap_nil, List.cons_append, List.nil_append,
    List.map_cons, List.map_nil, List.cons.injEq, and_true]
  refine ⟨toUInt8_eq ?_, toUInt8_eq ?_, toUInt8_eq ?_, toUInt8_eq ?_, toUInt8_eq ?_,
    toUInt8_eq ?_, toUInt8_eq ?_, toUInt8_eq ?_⟩
  · omega
  · rw [h08]
    omega
  · rw [h016]
    omega
  · rw [h024]
    omega
  · omega
  · rw [h18]
    omega
  · rw [h116]
    omega
  · rw [h124]
    omega

/-- How many bytes of the padding `finalize` takes when `index` bytes are in the buffer. -/
def padLen (index : ℕ) : ℕ := if index < 56 then 56 - index else 120 - index

/-- The padding fills a block up to the number of bits. -/
theorem take_padding (k : ℕ) :
    padding.take (padLen (k % 64)) = 0x80 :: List.replicate ((119 - k % 64) % 64) 0 := by
  have hpos : padLen (k % 64) = (119 - k % 64) % 64 + 1 := by
    unfold padLen
    split_ifs <;> omega
  rw [hpos, padding, List.take_succ_cons, List.take_replicate, Nat.min_eq_left (by omega)]

/-- `finalize` makes two updates. -/
theorem digest_finalize {m : MD5} (h : m.finalized = false) {index : ℕ}
    (hindex : (m.count0 / 8 % 64).toNat = index) :
    m.finalize.digest = toDigest ((m.update (padding.take (padLen index))).update
      (encode [m.count0, m.count1])).state := by
  subst hindex
  simp only [finalize, h]
  rfl

/-- The digest is that of the message. -/
theorem Represents.digest_finalize {m : MD5} {msg : Bytes} (h : m.Represents msg) :
    m.finalize.digest = toDigest (hash msg) := by
  have hlast : ((m.update (padding.take (padLen (msg.length % 64)))).update
      (encode [m.count0, m.count1])).Represents (pad msg) := by
    rw [take_padding, encode_eq_bits64 h.count]
    refine (h.update_of_lt ?_).update_of_lt (by simp [bits64])
    rw [List.length_cons, List.length_replicate]
    omega
  rw [MD5.digest_finalize h.finalized h.index, hlast.state]
  rfl

/-- **The digest of a message.** It is that of the message as a whole, in whatever pieces the
message comes.

**Proof sketch.** The object represents what it has got, and the two updates of `finalize` make it
represent the padded message, whose length is a multiple of 64. -/
theorem digest_foldl_update (inputs : List Bytes)
    (hlt : ∀ input ∈ inputs, input.length + 64 < 2 ^ 32) :
    (inputs.foldl update init).finalize.digest = toDigest (hash inputs.flatten) :=
  (Represents.init.foldl_update inputs fun input h => by
    have := hlt input h
    omega).digest_finalize

/-- The message `abc` in two pieces. -/
theorem digest_foldl_update_abc :
    ([bytes "ab", bytes "c"].foldl update init).finalize.digest = toDigest (hash (bytes "abc")) :=
  digest_foldl_update [bytes "ab", bytes "c"] (by decide)

end MD5

/-- **The text that `md5` returns** is the digest of the string, in hexadecimal digits. -/
theorem md5_eq (str : Bytes) (hlt : str.length + 64 < 2 ^ 32) :
    md5 str = (MD5.toDigest (MD5.hash str)).flatMap MD5.hexByte := by
  have hdigest := MD5.digest_foldl_update [str] (by simpa using hlt)
  rw [List.flatten_singleton] at hdigest
  have hfinalized : (MD5.ofText str).finalized = true :=
    (MD5.finalize_spec _ (MD5.finalized_update MD5.init str)).1
  rw [md5, MD5.hexdigest, if_pos hfinalized]
  exact congrArg (List.flatMap MD5.hexByte) hdigest

/-- The digest of `abc`. -/
theorem md5_eq_abc :
    (MD5.toDigest (MD5.hash (bytes "abc"))).flatMap MD5.hexByte =
      bytes "900150983cd24fb0d6963f7d28e17f72" :=
  (md5_eq (bytes "abc") (by decide)).symm.trans (by decide +kernel)

end Nuacom
