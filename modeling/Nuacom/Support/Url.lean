import Nuacom.Support.CString

set_option relaxedAutoImplicit false
set_option autoImplicit false

/-!
# Reading URLs

How a server reads the URL of a request: the fragment is cut off at the first `#`, the query
at the first `?`; the query is split at `&` into pairs, each pair at its first `=`, and names
and values are plus- and percent-decoded; the path is split at `/` and its segments are
percent-decoded. Nothing here decodes a malformed `%` sequence: it stays as it is.

## Main definitions

* `Url.percentDecode`, `Url.formDecode` — percent-decoding, and plus- and percent-decoding.
* `Url.hasEscape` — the string has a `%` followed by two hexadecimal digits.
* `Url.cut` — what stands before and after the first occurrence of a byte.
* `Url.parse`, `Url.Parsed.parameters`, `Url.Parsed.segments` — the parts of a URL.

## Main results

* `Url.percentDecode_eq_self_iff`, `Url.formDecode_eq_self_iff` — which strings decoding leaves
  alone.
* `Url.cut_append_of_not_mem`, `Url.length_cut_fst_le`, `Url.cut_fst_eq_self_iff` — how cutting
  acts on a concatenation, and when it loses nothing.
-/

namespace Url

open CString

/-! ## Percent-decoding -/

/-- `#` -/
def hash : UInt8 := 35
/-- `%` -/
def percent : UInt8 := 37
/-- `&` -/
def ampersand : UInt8 := 38
/-- `+` -/
def plus : UInt8 := 43
/-- `/` -/
def slash : UInt8 := 47
/-- `:` -/
def colon : UInt8 := 58
/-- `=` -/
def equals : UInt8 := 61
/-- `?` -/
def question : UInt8 := 63

/-- The value of a hexadecimal digit. -/
def hexValue (c : UInt8) : Option ℕ :=
  if 48 ≤ c.toNat ∧ c.toNat ≤ 57 then some (c.toNat - 48)
  else if 65 ≤ c.toNat ∧ c.toNat ≤ 70 then some (c.toNat - 55)
  else if 97 ≤ c.toNat ∧ c.toNat ≤ 102 then some (c.toNat - 87)
  else none

/-- The byte that `%` followed by `a` and `b` stands for, if it stands for one. -/
def escape (c a b : UInt8) : Option UInt8 :=
  if c = percent then
    match hexValue a, hexValue b with
    | some x, some y => some (UInt8.ofNat (16 * x + y))
    | _, _ => none
  else none

/-- Percent-decoding: each `%` followed by two hexadecimal digits becomes one byte. -/
def percentDecode : Bytes → Bytes
  | c :: a :: b :: rest =>
    match escape c a b with
    | some x => x :: percentDecode rest
    | none => c :: percentDecode (a :: b :: rest)
  | s => s

/-- The string has a `%` followed by two hexadecimal digits. -/
def hasEscape : Bytes → Bool
  | c :: a :: b :: rest => (escape c a b).isSome || hasEscape (a :: b :: rest)
  | _ => false

/-- A plus sign stands for a space in a query. -/
def plusToSpace (c : UInt8) : UInt8 := if c = plus then 32 else c

/-- Plus- and percent-decoding. -/
def formDecode (s : Bytes) : Bytes := percentDecode (s.map plusToSpace)

/-- A string without a percent sign has no escape. -/
theorem hasEscape_of_not_mem {s : Bytes} (h : percent ∉ s) : hasEscape s = false := by
  induction s using hasEscape.induct with
  | case1 c a b rest ih =>
    simp only [List.mem_cons, not_or] at h
    have hc : c ≠ percent := fun e => h.1 e.symm
    simp only [hasEscape, escape, if_neg hc, Option.isSome_none, Bool.false_or]
    exact ih (by simp only [List.mem_cons, not_or]; exact h.2)
  | case2 s hs => exact hasEscape.eq_2 s hs

/-- Percent-decoding makes no string longer, and shortens those that have an escape.

**Proof sketch.** Induction along `percentDecode`: an escape at the front turns three bytes
into one, and any other first byte is kept. -/
theorem length_percentDecode (s : Bytes) :
    (percentDecode s).length ≤ s.length ∧
      (hasEscape s = true → (percentDecode s).length < s.length) := by
  induction s using percentDecode.induct with
  | case1 c a b rest x hx ih =>
    simp only [percentDecode, hx, List.length_cons]
    omega
  | case2 c a b rest hx ih =>
    simp only [percentDecode, hasEscape, hx, List.length_cons, Option.isSome_none,
      Bool.false_or] at ih ⊢
    exact ⟨by omega, fun h => by have := ih.2 h; omega⟩
  | case3 s hs =>
    rw [percentDecode.eq_2 s hs, hasEscape.eq_2 s hs]
    simp

/-- Percent-decoding leaves a string without escapes alone. -/
theorem percentDecode_of_not_hasEscape (s : Bytes) (h : hasEscape s = false) :
    percentDecode s = s := by
  induction s using percentDecode.induct with
  | case1 c a b rest x hx ih => simp [hasEscape, hx] at h
  | case2 c a b rest hx ih =>
    simp only [hasEscape, hx, Option.isSome_none, Bool.false_or] at h
    simp only [percentDecode, hx, ih h]
  | case3 s hs => exact percentDecode.eq_2 s hs

/-- **Percent-decoding** leaves exactly the strings without escapes alone. -/
theorem percentDecode_eq_self_iff (s : Bytes) : percentDecode s = s ↔ hasEscape s = false := by
  constructor
  · intro h
    by_contra hne
    have := (length_percentDecode s).2 (by simpa using hne)
    rw [h] at this
    omega
  · exact percentDecode_of_not_hasEscape s

/-- Plus- and percent-decoding makes no string longer. -/
theorem length_formDecode_le (s : Bytes) : (formDecode s).length ≤ s.length := by
  have h := (length_percentDecode (s.map plusToSpace)).1
  rwa [List.length_map] at h

/-- Replacing plus signs leaves exactly the strings without a plus sign alone. -/
theorem map_plusToSpace_eq_self_iff (s : Bytes) : s.map plusToSpace = s ↔ plus ∉ s := by
  have hid : (s.map plusToSpace = s) = (s.map plusToSpace = s.map id) := by rw [List.map_id]
  rw [hid, List.map_inj_left]
  constructor
  · intro h hp
    have := h plus hp
    simp [plusToSpace, plus] at this
  · intro h c hc
    have hne : c ≠ plus := fun e => h (e ▸ hc)
    simp [plusToSpace, hne]

/-- **Plus- and percent-decoding** leaves exactly the strings with neither a plus sign nor an
escape alone.

**Proof sketch.** If decoding changes nothing, it does not shorten, so the string with its
plus signs replaced has no escape; decoding it is then the replacement alone, which changes
nothing exactly when there is no plus sign. -/
theorem formDecode_eq_self_iff (s : Bytes) :
    formDecode s = s ↔ plus ∉ s ∧ hasEscape s = false := by
  unfold formDecode
  constructor
  · intro h
    have hesc : hasEscape (s.map plusToSpace) = false := by
      by_contra hne
      have := (length_percentDecode (s.map plusToSpace)).2 (by simpa using hne)
      rw [h, List.length_map] at this
      omega
    rw [percentDecode_of_not_hasEscape _ hesc] at h
    rw [h] at hesc
    exact ⟨(map_plusToSpace_eq_self_iff s).mp h, hesc⟩
  · intro h'
    obtain ⟨hp, hesc⟩ := h'
    rw [(map_plusToSpace_eq_self_iff s).mpr hp]
    exact percentDecode_of_not_hasEscape s hesc

/-! ## Cutting at a byte -/

/-- What stands before the first `c`, and what stands after it if there is one. -/
def cut (c : UInt8) (s : Bytes) : Bytes × Option Bytes :=
  (s.takeWhile (· != c), (s.dropWhile (· != c)).tail?)

/-- Cutting a string that starts with the byte. -/
@[simp] theorem cut_cons_self (c : UInt8) (t : Bytes) : cut c (c :: t) = ([], some t) := by
  simp [cut]

/-- Cutting passes over a string that does not have the byte. -/
theorem cut_append_of_not_mem {c : UInt8} {s : Bytes} (h : c ∉ s) (t : Bytes) :
    cut c (s ++ t) = (s ++ (cut c t).1, (cut c t).2) := by
  have hs : ∀ a ∈ s, (a != c) = true := by
    intro a ha
    simp only [bne_iff_ne, ne_eq]
    rintro rfl
    exact h ha
  simp only [cut, List.takeWhile_append_of_pos hs, List.dropWhile_append_of_pos hs]

/-- A string that does not have the byte is not cut. -/
theorem cut_of_not_mem {c : UInt8} {s : Bytes} (h : c ∉ s) : cut c s = (s, none) := by
  have := cut_append_of_not_mem h []
  simpa [cut] using this

/-- What stands before the first `c` is no longer than the string. -/
theorem length_cut_fst_le (c : UInt8) (s : Bytes) : (cut c s).1.length ≤ s.length :=
  (List.takeWhile_prefix _).length_le

/-- What stands before the first `c` is the whole string exactly when there is no `c`. -/
theorem cut_fst_eq_self_iff (c : UInt8) (s : Bytes) : (cut c s).1 = s ↔ c ∉ s := by
  simp only [cut, List.takeWhile_eq_self_iff, bne_iff_ne, ne_eq]
  constructor
  · exact fun h hc => h c hc rfl
  · rintro h a ha rfl
    exact h ha

/-- A string that cutting does not shorten does not have the byte. -/
theorem not_mem_of_length_le_cut {c : UInt8} {s : Bytes}
    (h : s.length ≤ (cut c s).1.length) : c ∉ s :=
  (cut_fst_eq_self_iff c s).mp ((List.takeWhile_prefix _).eq_of_length_le h)

/-- Cutting at `d` and then at `c` a string in which `s` is followed by `c`: what is left is
the part of `s` before the first of the two bytes. -/
theorem cut_cut_append {c d : UInt8} (s t : Bytes) :
    (cut c (cut d (s ++ c :: t)).1).1 = s.takeWhile fun a => a != c && a != d := by
  simp only [cut, List.takeWhile_takeWhile, Bool.decide_and, Bool.decide_eq_true]
  rw [List.takeWhile_append]
  split_ifs with h
  · have hs : s.takeWhile (fun a => a != c && a != d) = s :=
      (List.takeWhile_prefix _).eq_of_length h
    simp [hs]
  · rfl

/-- The first piece of a string split at `c` is what stands before the first `c`. -/
theorem splitOn_eq_cons (c : UInt8) (s : Bytes) :
    ∃ pieces, s.splitOn c = (cut c s).1 :: pieces := by
  by_cases h : c ∈ s
  · obtain ⟨pre, post, rfl, hpre⟩ := List.eq_append_cons_of_mem h
    rw [List.splitOn_append_cons_self_of_not_mem hpre, cut_append_of_not_mem hpre]
    exact ⟨post.splitOn c, by simp⟩
  · rw [List.splitOn_eq_singleton h, cut_of_not_mem h]
    exact ⟨[], rfl⟩

/-! ## The parts of a URL -/

/-- A URL with its query and its fragment split off. -/
structure Parsed where
  /-- Scheme, authority and path. -/
  base : Bytes
  /-- The query, if there is a `?`. -/
  query : Option Bytes
  /-- The fragment, if there is a `#`. -/
  fragment : Option Bytes
  deriving DecidableEq

/-- Split off the fragment, then the query. -/
def parse (url : Bytes) : Parsed :=
  let (rest, fragment) := cut hash url
  let (base, query) := cut question rest
  ⟨base, query, fragment⟩

/-- One pair of a query: split at the first `=`, both halves decoded. -/
def parameter (pair : Bytes) : Bytes × Bytes :=
  let (name, value) := cut equals pair
  (formDecode name, formDecode (value.getD []))

/-- A pair whose name has no `=`. -/
theorem parameter_append {name : Bytes} (h : equals ∉ name) (value : Bytes) :
    parameter (name ++ equals :: value) = (formDecode name, formDecode value) := by
  unfold parameter
  rw [cut_append_of_not_mem h, cut_cons_self, List.append_nil]
  rfl

/-- The parameters of the query, in order; empty pairs are skipped. -/
def Parsed.parameters (u : Parsed) : List (Bytes × Bytes) :=
  (((u.query.getD []).splitOn ampersand).filter (· ≠ [])).map parameter

/-- The path: what follows the authority. -/
def Parsed.path (u : Parsed) : Bytes :=
  (((cut colon u.base).2.getD []).drop 2).dropWhile (· != slash)

/-- The percent-decoded segments of the path. -/
def Parsed.segments (u : Parsed) : List Bytes :=
  (u.path.drop 1).splitOn slash |>.map percentDecode

end Url
