import Mathlib.Data.List.Pairwise

set_option relaxedAutoImplicit false
set_option autoImplicit false

/-!
# `std::map`

A map from keys to values is the list of its entries in the order of the keys, with no key twice.
Iterating over the map is iterating over that list.

## Main definitions

* `StdMap.Sorted` — the keys of a list of entries increase.
* `StdMap` — a list of entries that is sorted.
* `StdMap.assign`, `StdMap.find?`, `StdMap.get` — `m[k] = v`, `m.find(k)`, and `m[k]` read.

## Main results

* `StdMap.assign_of_lt` — assigning to a key behind all others appends an entry.
* `StdMap.entries_foldl_assign` — entries that are assigned in the order of their keys are the
  entries of the map.
* `StdMap.find?_eq_some_iff` — a search finds the entries of the map.
* `StdMap.find?_assign`, `StdMap.find?_get` — a search after `m[k] = v`, and after a read of `m[k]`.
-/

/-- A map with the entries in the order of their keys. -/
@[ext]
structure StdMap (κ α : Type*) [LT κ] where
  /-- The entries. -/
  entries : List (κ × α)
  /-- Their keys increase. -/
  sorted : entries.Pairwise fun a b => a.1 < b.1

namespace StdMap

variable {κ α β : Type*} [LT κ]

/-- The keys of a list of entries increase. -/
def Sorted (l : List (κ × α)) : Prop := l.Pairwise fun a b => a.1 < b.1

/-- The map without entries. -/
def empty : StdMap κ α := ⟨[], .nil⟩

/-- Sorted entries with other values are sorted. -/
theorem Sorted.map {l : List (κ × α)} (h : Sorted l) (f : α → β) :
    Sorted (l.map fun e => (e.1, f e.2)) := by
  unfold Sorted
  rw [List.pairwise_map]
  exact h

/-- Entries with the keys of sorted ones are sorted. -/
theorem Sorted.of_keys {l : List (κ × α)} {l' : List (κ × β)} (h : Sorted l)
    (hkeys : l'.map Prod.fst = l.map Prod.fst) : Sorted l' := by
  have hpairwise : (l.map Prod.fst).Pairwise (· < ·) := List.pairwise_map.mpr h
  rw [← hkeys] at hpairwise
  exact List.pairwise_map.mp hpairwise

/-- Some of the entries, with other values, are sorted. -/
theorem Sorted.filterMap {l : List (κ × α)} (h : Sorted l) (f : κ × α → Option β) :
    Sorted (l.filterMap fun e => (f e).map fun b => (e.1, b)) := by
  unfold Sorted
  rw [List.pairwise_filterMap]
  refine h.imp ?_
  rintro a b hlt _ ha _ hb
  obtain ⟨_, -, rfl⟩ := Option.map_eq_some_iff.mp ha
  obtain ⟨_, -, rfl⟩ := Option.map_eq_some_iff.mp hb
  exact hlt

variable [DecidableLT κ]

/-! ## Assigning -/

/-- Replace the value of `k` in sorted entries, or insert an entry. -/
def assignEntries (k : κ) (v : α) : List (κ × α) → List (κ × α)
  | [] => [(k, v)]
  | e :: l =>
    if k < e.1 then (k, v) :: e :: l
    else if e.1 < k then e :: assignEntries k v l
    else (e.1, v) :: l

/-- The keys afterwards are those before, and `k`.

**Proof sketch.** Induction on the list. -/
theorem mem_assignEntries {k : κ} {v : α} {l : List (κ × α)} {e : κ × α}
    (h : e ∈ assignEntries k v l) : e.1 = k ∨ ∃ e' ∈ l, e'.1 = e.1 := by
  induction l with
  | nil =>
    obtain rfl : e = (k, v) := by simpa [assignEntries] using h
    exact .inl rfl
  | cons e' l ih =>
    unfold assignEntries at h
    split at h
    · rcases List.mem_cons.mp h with rfl | h
      · exact .inl rfl
      · exact .inr ⟨e, h, rfl⟩
    · split at h
      · rcases List.mem_cons.mp h with rfl | h
        · exact .inr ⟨e, List.mem_cons_self .., rfl⟩
        · rcases ih h with h | ⟨e'', he'', hkey⟩
          · exact .inl h
          · exact .inr ⟨e'', List.mem_cons_of_mem _ he'', hkey⟩
      · rcases List.mem_cons.mp h with rfl | h
        · exact .inr ⟨e', List.mem_cons_self .., rfl⟩
        · exact .inr ⟨e, List.mem_cons_of_mem _ h, rfl⟩

section Order

variable [Trans (α := κ) (β := κ) (γ := κ) (· < ·) (· < ·) (· < ·)]

/-- Assigning keeps the order of the keys.

**Proof sketch.** Induction on the entries. A new entry goes before the first key that is greater;
what stands behind it is greater by transitivity. -/
theorem sorted_assignEntries {k : κ} {v : α} {l : List (κ × α)} (h : Sorted l) :
    Sorted (assignEntries k v l) := by
  induction l with
  | nil => exact List.pairwise_singleton ..
  | cons e l ih =>
    obtain ⟨hlt, hl⟩ := List.pairwise_cons.mp h
    unfold assignEntries
    split
    · rename_i hk
      refine List.pairwise_cons.mpr ⟨fun e' he' => ?_, h⟩
      rcases List.mem_cons.mp he' with rfl | he'
      · exact hk
      · exact Trans.trans hk (hlt e' he')
    · split
      · rename_i hk
        refine List.pairwise_cons.mpr ⟨fun e' he' => ?_, ih hl⟩
        rcases mem_assignEntries he' with hkey | ⟨e'', he'', hkey⟩
        · rw [hkey]
          exact hk
        · rw [← hkey]
          exact hlt e'' he''
      · exact List.pairwise_cons.mpr ⟨hlt, hl⟩

/-- `m[k] = v` -/
def assign (m : StdMap κ α) (k : κ) (v : α) : StdMap κ α :=
  ⟨assignEntries k v m.entries, sorted_assignEntries m.sorted⟩

/-- Assigning to a key behind all others appends an entry. -/
theorem assign_of_lt [Std.Asymm (α := κ) (· < ·)] (m : StdMap κ α) {k : κ} (v : α)
    (h : ∀ e ∈ m.entries, e.1 < k) : (m.assign k v).entries = m.entries ++ [(k, v)] := by
  show assignEntries k v m.entries = _
  obtain ⟨l, hl⟩ := m
  induction l with
  | nil => rfl
  | cons e l ih =>
    obtain ⟨hk, hrest⟩ := List.forall_mem_cons.mp h
    show assignEntries k v (e :: l) = e :: (l ++ [(k, v)])
    rw [assignEntries, if_neg (Std.Asymm.asymm _ _ hk), if_pos hk,
      ih (List.Pairwise.of_cons hl) hrest]

/-- **Building a map.** Entries that are assigned in the order of their keys, behind those that are
there, are the entries of the map.

**Proof sketch.** Induction on the entries; each key is behind all that were assigned before. -/
theorem entries_foldl_assign [Std.Asymm (α := κ) (· < ·)] (l : List (κ × α)) :
    ∀ m : StdMap κ α, Sorted (m.entries ++ l) →
      (l.foldl (fun m e => m.assign e.1 e.2) m).entries = m.entries ++ l := by
  induction l with
  | nil => simp
  | cons e l ih =>
    intro m h
    have hlt : ∀ e' ∈ m.entries, e'.1 < e.1 := fun e' he' =>
      (List.pairwise_append.mp h).2.2 e' he' e (List.mem_cons_self ..)
    have happend := m.assign_of_lt e.2 hlt
    rw [List.foldl_cons, ih, happend, List.append_assoc]
    · rfl
    · rw [happend, List.append_assoc]
      exact h

end Order

/-! ## Searching -/

/-- The value of `k` in sorted entries. -/
def findEntry (k : κ) : List (κ × α) → Option α
  | [] => none
  | e :: l => if k < e.1 then none else if e.1 < k then findEntry k l else some e.2

/-- `m.find(k)` -/
def find? (m : StdMap κ α) (k : κ) : Option α := findEntry k m.entries

/-- `m[k]`: the value of `k`, which becomes a default value where there was none. -/
def get [Inhabited α] [Trans (α := κ) (β := κ) (γ := κ) (· < ·) (· < ·) (· < ·)]
    (m : StdMap κ α) (k : κ) : α × StdMap κ α :=
  match m.find? k with
  | some v => (v, m)
  | none => (default, m.assign k default)

/-- What `m[k]` reads. -/
theorem get_fst [Inhabited α] [Trans (α := κ) (β := κ) (γ := κ) (· < ·) (· < ·) (· < ·)]
    (m : StdMap κ α) (k : κ) : (m.get k).1 = (m.find? k).getD default := by
  unfold get
  cases m.find? k <;> rfl

/-- **Searching a map.** A search finds the entries of the map.

**Proof sketch.** Induction on the entries. A key that is not less and not greater than `k` is `k`,
and behind a key that is greater there is no `k`. -/
theorem find?_eq_some_iff [Std.Asymm (α := κ) (· < ·)] [Std.Trichotomous (α := κ) (· < ·)]
    (m : StdMap κ α) (k : κ) (v : α) : m.find? k = some v ↔ (k, v) ∈ m.entries := by
  have hirrefl : ∀ a : κ, ¬ a < a := fun a ha => Std.Asymm.asymm a a ha ha
  obtain ⟨l, hl⟩ := m
  show findEntry k l = some v ↔ (k, v) ∈ l
  induction l with
  | nil => simp [findEntry]
  | cons e l ih =>
    obtain ⟨hlt, hsorted⟩ := List.pairwise_cons.mp hl
    unfold findEntry
    rw [List.mem_cons]
    split
    · rename_i hk
      refine iff_of_false (by simp) ?_
      rintro (h | h)
      · rw [← h] at hk
        exact hirrefl k hk
      · exact Std.Asymm.asymm _ _ hk (hlt _ h)
    · rename_i hk
      split
      · rename_i hk'
        rw [ih hsorted, or_iff_right]
        rintro rfl
        exact hirrefl _ hk'
      · rename_i hk'
        obtain rfl : k = e.1 := Std.Trichotomous.trichotomous k e.1 hk hk'
        constructor
        · intro h
          exact .inl (Prod.ext rfl (Option.some.inj h).symm)
        · intro h
          rcases h with h | h
          · rw [← h]
          · exact absurd (hlt _ h) (hirrefl _)

/-- The entries of the other keys stay.

**Proof sketch.** Induction on the list; the entry that is replaced has the key that is assigned. -/
theorem mem_assignEntries_iff [Std.Trichotomous (α := κ) (· < ·)] {k k' : κ} {v w : α}
    {l : List (κ × α)} (h : k ≠ k') : (k, w) ∈ assignEntries k' v l ↔ (k, w) ∈ l := by
  induction l with
  | nil => simp [assignEntries, h]
  | cons e l ih =>
    unfold assignEntries
    split
    · simp [h]
    · rename_i hlt
      split
      · simp [ih]
      · rename_i hlt'
        obtain rfl : k' = e.1 := Std.Trichotomous.trichotomous k' e.1 hlt hlt'
        have hne : (k, w) ≠ e := by
          rintro rfl
          exact h rfl
        simp [h, hne]

/-- `k` has the value that was assigned to it.

**Proof sketch.** Induction on the list: the entry is put in front of the first larger key, or in
the place of its own. -/
theorem mem_assignEntries_self [Std.Trichotomous (α := κ) (· < ·)] (k : κ) (v : α)
    (l : List (κ × α)) : (k, v) ∈ assignEntries k v l := by
  induction l with
  | nil => simp [assignEntries]
  | cons e l ih =>
    unfold assignEntries
    split
    · exact List.mem_cons_self ..
    · rename_i hlt
      split
      · exact List.mem_cons_of_mem _ ih
      · rename_i hlt'
        obtain rfl : k = e.1 := Std.Trichotomous.trichotomous k e.1 hlt hlt'
        exact List.mem_cons_self ..

section Order

variable [Trans (α := κ) (β := κ) (γ := κ) (· < ·) (· < ·) (· < ·)]
  [Std.Asymm (α := κ) (· < ·)] [Std.Trichotomous (α := κ) (· < ·)]

/-- **Searching after an assignment.** The key has the new value, and the others keep theirs. -/
theorem find?_assign [DecidableEq κ] (m : StdMap κ α) (k k' : κ) (v : α) :
    (m.assign k' v).find? k = if k = k' then some v else m.find? k := by
  by_cases h : k = k'
  · subst h
    rw [if_pos rfl]
    exact (find?_eq_some_iff ..).mpr (mem_assignEntries_self ..)
  · rw [if_neg h]
    apply Option.ext
    intro w
    rw [find?_eq_some_iff, find?_eq_some_iff]
    exact mem_assignEntries_iff h

/-- Reading `m[k']` changes no other key. -/
theorem find?_get [Inhabited α] [DecidableEq κ] (m : StdMap κ α) {k k' : κ} (h : k ≠ k') :
    (m.get k').2.find? k = m.find? k := by
  unfold get
  cases m.find? k' with
  | none => exact (find?_assign ..).trans (if_neg h)
  | some v => rfl

end Order

end StdMap
