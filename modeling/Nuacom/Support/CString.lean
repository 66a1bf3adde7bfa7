import Mathlib.Algebra.Group.Int.Defs
import Mathlib.Algebra.Group.Nat.Defs
import Mathlib.Data.List.TakeWhile

set_option relaxedAutoImplicit false
set_option autoImplicit false

/-!
# Byte strings, NUL-terminated strings and fixed-size buffers

A C string is a run of bytes that ends before the first zero byte of the memory it points
into. Buffers of a given size are a structure that carries its size, so that no operation on
one can write outside it.

## Main definitions

* `CString.Bytes`, `CString.bytes` — byte strings and the bytes of an ASCII literal.
* `CString.NulFree`, `CString.cStr` — strings without a zero byte, and the C string at the
  start of a piece of memory.
* `CString.Buffer` — `n` bytes of memory, with `store` (`memcpy` of what fits) and `strncpy`.
* `CString.Buffer.Terminated`, `CString.Buffer.Holds` — the string in the buffer ends inside it,
  and is this one.

## Main results

* `CString.cStr_of_nulFree` — a string without a zero byte is read back whole.
* `CString.Buffer.Holds.length_lt`, `CString.Buffer.holds_store` — a terminated string fits
  its buffer, and storing one that fits with its terminator leaves it terminated.
* `CString.Buffer.strncpy_terminated_iff` — when `strncpy` leaves the buffer terminated.
-/

namespace CString

/-- Strings of the program: byte strings, of any content. -/
abbrev Bytes := List UInt8

/-- The bytes of an ASCII literal. -/
def bytes (s : String) : Bytes := s.toList.map fun c => UInt8.ofNat c.toNat

/-- No byte of the string is zero. -/
def NulFree (s : Bytes) : Prop := (0 : UInt8) ∉ s

instance (s : Bytes) : Decidable (NulFree s) := inferInstanceAs (Decidable (_ ∉ _))

/-- The C string at the start of the memory `m`: what stands before its first zero byte. -/
def cStr (m : Bytes) : Bytes := m.takeWhile (· != 0)

/-- Every byte of a NUL-free string passes the test of `cStr`. -/
private theorem ne_zero_of_nulFree {s : Bytes} (h : NulFree s) :
    ∀ a ∈ s, (a != 0) = true := by
  intro a ha
  simp only [bne_iff_ne, ne_eq]
  rintro rfl
  exact h ha

/-- A NUL-free string is read back whole. -/
@[simp] theorem cStr_of_nulFree {s : Bytes} (h : NulFree s) : cStr s = s :=
  List.takeWhile_eq_self_iff.mpr (ne_zero_of_nulFree h)

/-- A C string has no zero byte. -/
theorem nulFree_cStr (m : Bytes) : NulFree (cStr m) := by
  intro h
  simpa using List.mem_takeWhile_imp h

/-- A C string is what its memory begins with. -/
theorem cStr_prefix (m : Bytes) : cStr m <+: m := List.takeWhile_prefix _

/-- A NUL-free string is the C string of every memory in which a zero byte follows it. -/
theorem cStr_append_zero {s : Bytes} (h : NulFree s) (rest : Bytes) :
    cStr (s ++ 0 :: rest) = s := by
  show (s ++ 0 :: rest).takeWhile (· != 0) = s
  rw [List.takeWhile_append_of_pos (ne_zero_of_nulFree h)]
  simp

/-- Concatenation of NUL-free strings. -/
theorem NulFree.append {s t : Bytes} (hs : NulFree s) (ht : NulFree t) : NulFree (s ++ t) := by
  simp only [NulFree, List.mem_append, not_or]
  exact ⟨hs, ht⟩

/-- A byte other than zero in front of a NUL-free string. -/
theorem NulFree.cons {b : UInt8} {s : Bytes} (hb : b ≠ 0) (hs : NulFree s) : NulFree (b :: s) := by
  intro h
  rcases List.mem_cons.mp h with h | h
  · exact hb h.symm
  · exact hs h

/-- A number in decimal has no zero byte.

**Proof sketch.** A decimal number is digits, with a minus sign in front when it is negative. -/
theorem nulFree_decimal (i : ℤ) : NulFree (bytes (toString i)) := by
  have hdigit : ∀ c : Char, c.isDigit = true → UInt8.ofNat c.toNat ≠ 0 := by
    intro c hc h0
    have h48 : 48 ≤ c.toNat ∧ c.toNat ≤ 57 := by
      simpa [Char.isDigit, UInt32.le_iff_toNat_le] using hc
    have := congrArg UInt8.toNat h0
    rw [UInt8.toNat_ofNat'] at this
    simp at this
    omega
  have hrepr : ∀ n : ℕ, ∀ c ∈ n.repr.toList, c.isDigit = true := by
    intro n c hc
    rw [Nat.toList_repr] at hc
    exact Nat.isDigit_of_mem_toDigits (by decide) (by decide) hc
  intro h
  obtain ⟨c, hc, h0⟩ := List.mem_map.mp h
  rw [Int.toString_eq_repr, Int.repr_eq_if] at hc
  split at hc
  · exact hdigit c (hrepr _ c hc) h0
  · rw [String.toList_append, List.mem_append] at hc
    rcases hc with hc | hc
    · obtain rfl : c = '-' := by simpa using hc
      exact absurd h0 (by decide)
    · exact hdigit c (hrepr _ c hc) h0

/-! ## Buffers -/

/-- `n` bytes of memory. -/
structure Buffer (n : ℕ) where
  /-- The content of the buffer. -/
  bytes : Bytes
  /-- A buffer of size `n` is `n` bytes long. -/
  length_eq : bytes.length = n

namespace Buffer

variable {n : ℕ}

/-- Copy `src` to the start of the buffer, at most as many bytes as the buffer has. -/
def store (b : Buffer n) (src : Bytes) : Buffer n where
  bytes := src.take n ++ b.bytes.drop src.length
  length_eq := by
    rw [List.length_append, List.length_take, List.length_drop, b.length_eq]
    omega

/-- `strncpy`: the string `src` cut at `n` bytes, padded with zero bytes up to `n`. -/
def strncpy (_ : Buffer n) (src : Bytes) : Buffer n where
  bytes := src.take n ++ List.replicate (n - src.length) 0
  length_eq := by
    rw [List.length_append, List.length_take, List.length_replicate]
    omega

/-- The C string at the start of the buffer ends inside the buffer. -/
def Terminated (b : Buffer n) : Prop := (0 : UInt8) ∈ b.bytes

instance (b : Buffer n) : Decidable b.Terminated := inferInstanceAs (Decidable (_ ∈ _))

/-- The buffer contains the string `s`, terminated inside the buffer. -/
def Holds (b : Buffer n) (s : Bytes) : Prop := ∃ rest, b.bytes = s ++ 0 :: rest

/-- A string a buffer holds fits it with its terminator. -/
theorem Holds.length_lt {b : Buffer n} {s : Bytes} (h : b.Holds s) : s.length + 1 ≤ n := by
  obtain ⟨rest, hb⟩ := h
  have hl := b.length_eq
  rw [hb, List.length_append, List.length_cons] at hl
  omega

/-- What fits is stored whole, and the rest of the buffer stays as it was. -/
theorem store_bytes_of_le (b : Buffer n) {src : Bytes} (h : src.length ≤ n) :
    (b.store src).bytes = src ++ b.bytes.drop src.length := by
  simp [store, List.take_of_length_le h]

/-- Storing a string with its terminator, where both fit, leaves the buffer holding it. -/
theorem holds_store (b : Buffer n) {s : Bytes} (h : s.length + 1 ≤ n) :
    (b.store (s ++ [0])).Holds s := by
  have hl : (s ++ [0]).length ≤ n := by simpa using h
  exact ⟨b.bytes.drop (s ++ [0]).length, by rw [store_bytes_of_le b hl, List.append_assoc]; rfl⟩

/-- `strncpy` of a string that is shorter than the buffer pads it with zero bytes. -/
theorem strncpy_bytes_of_lt (b : Buffer n) {src : Bytes} (h : src.length < n) :
    (b.strncpy src).bytes = src ++ 0 :: List.replicate (n - src.length - 1) 0 := by
  obtain ⟨k, hk⟩ : ∃ k, n - src.length = k + 1 := ⟨n - src.length - 1, by omega⟩
  show src.take n ++ List.replicate (n - src.length) 0 = _
  rw [List.take_of_length_le h.le, hk, List.replicate_succ, Nat.add_sub_cancel]

/-- `strncpy` leaves the buffer terminated exactly when the string is shorter than it.

**Proof sketch.** A string that fills the buffer leaves no room for a zero, and has none; a shorter
one is padded with zeros. -/
theorem strncpy_terminated_iff (b : Buffer n) {src : Bytes} (hsrc : NulFree src) :
    (b.strncpy src).Terminated ↔ src.length < n := by
  constructor
  · intro h
    by_contra hlen
    have hbytes : (b.strncpy src).bytes = src.take n := by
      show src.take n ++ List.replicate (n - src.length) 0 = _
      rw [Nat.sub_eq_zero_of_le (Nat.le_of_not_lt hlen), List.replicate_zero, List.append_nil]
    unfold Terminated at h
    rw [hbytes] at h
    exact hsrc (List.mem_of_mem_take h)
  · intro h
    unfold Terminated
    rw [strncpy_bytes_of_lt b h]
    simp

/-- A string shorter than the buffer is read back after `strncpy`. -/
theorem cStr_strncpy (b : Buffer n) {src : Bytes} (hsrc : NulFree src) (h : src.length < n) :
    cStr (b.strncpy src).bytes = src := by
  rw [strncpy_bytes_of_lt b h, cStr_append_zero hsrc]

end Buffer

end CString
