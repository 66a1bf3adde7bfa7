import Nuacom.Server.Config
import Mathlib.Data.List.GetD

set_option relaxedAutoImplicit false
set_option autoImplicit false

/-!
# The flags for incoming calls in the provider

The provider reads the two flags for incoming calls from the key that the service reads them from.
`RegQueryValueEx` gets the size of the flag in a variable, and leaves the size of the value in it.
The service sets the variable before each of its reads, and the provider before the first.

## Main definitions

* `Nuacom.Provider.getIncomingFlag` — `GetIncomingFlag`.
* `Nuacom.serviceFlags` — the flags that the service reads.
* `Nuacom.FlagsAgree` — both read the same flags, and neither writes more than a flag.
* `Nuacom.SecondFits` — the condition on the two values.

## Main results

* `Nuacom.flagsAgree_iff` — the two agree exactly under that condition.

## Implementation notes

Both functions are taken from the opened key on. A query that copies more than a flag is recorded
as such; what it overwrites behind the flag is not modelled.
-/

namespace Nuacom

open CString Registry

/-- The size of a flag, `sizeof(DWORD)`. -/
def flagSize : ℕ := 4

/-- A flag that was `FALSE`, after a query into it. -/
def flagAfter (q : QueryResult) : UInt32 :=
  match q.copied with
  | none => ofDwordBytes (dwordBytes 0)
  | some data => ofDwordBytes (data ++ (dwordBytes 0).drop data.length)

/-- What reading the two flags leaves behind. -/
structure IncomingFlags where
  /-- The flags for incoming calls, and for local numbers of their callers. -/
  flags : UInt32 × UInt32
  /-- What the queries copied. -/
  copied : List (Option Bytes)

namespace Provider

/-- `GetIncomingFlag` -/
def getIncomingFlag (k : Key) : IncomingFlags :=
  let dwDataSize := flagSize
  let q₁ := queryValueEx k szIncomingFlag true dwDataSize
  -- the size variable is not set again
  let dwDataSize := q₁.size
  let q₂ := queryValueEx k szIncomingLocalFlag true dwDataSize
  ⟨(flagAfter q₁, flagAfter q₂), [q₁.copied, q₂.copied]⟩

end Provider

/-- The two flags as `GetConfigInfo` reads them. -/
def serviceFlags (k : Key) : IncomingFlags :=
  let dataSize := flagSize
  let q₁ := queryValueEx k szIncomingFlag true dataSize
  let dataSize := flagSize
  let q₂ := queryValueEx k szIncomingLocalFlag true dataSize
  ⟨(flagAfter q₁, flagAfter q₂), [q₁.copied, q₂.copied]⟩

/-- The flags that `GetConfigInfo` returns are these.

**Proof sketch.** By the outcome of the reads and of the login; the flags are read before. -/
theorem getConfigInfo_flags {nameSize passwordSize extensionSize : ℕ} {w : Platform} {k : Key}
    {args : ConfigBuffers nameSize passwordSize extensionSize}
    {info : ConfigInfo nameSize passwordSize extensionSize}
    (h : getConfigInfo w (.ok k) args = .ok info) :
    (info.bHandleIncoming, info.bIncomingLocal) = (serviceFlags k).flags := by
  simp only [getConfigInfo, getConfigInfoAt, bind, Except.bind] at h
  split at h
  · simp at h
  · split at h
    · simp at h
    · rename_i r hlogin
      by_cases hn : r.1 = 0
      · simp only [hn, ne_eq, not_true_eq_false, if_false, pure, Except.pure] at h
        obtain rfl := Except.ok.inj h
        rfl
      · simp [hn, throw, throwThe, MonadExceptOf.throw] at h

/-- The provider and the service read the same flags, and neither of them writes more than a flag
with any of its queries. -/
structure FlagsAgree (k : Key) : Prop where
  flags : (Provider.getIncomingFlag k).flags = (serviceFlags k).flags
  provider : ∀ data, some data ∈ (Provider.getIncomingFlag k).copied → data.length ≤ flagSize
  service : ∀ data, some data ∈ (serviceFlags k).copied → data.length ≤ flagSize

/-- With both values there: a second value that fits a flag is no longer than the first, or zero;
and one that does not fit is longer than the first. -/
def SecondFits (k : Key) : Prop :=
  ∀ v₁ v₂, k szIncomingFlag = some v₁ → k szIncomingLocalFlag = some v₂ →
    if v₂.data.length ≤ flagSize then
      v₂.data.length ≤ v₁.data.length ∨ ∀ b ∈ v₂.data, b = 0
    else v₁.data.length < v₂.data.length

/-! ## Flags as bytes -/

/-- A number is zero exactly when its four bytes are.

**Proof sketch.** A sum of nonnegative parts is zero when they are. -/
theorem ofDwordBytes_eq_zero_iff (m : Bytes) :
    ofDwordBytes m = 0 ↔ ∀ i < 4, m.getD i 0 = 0 := by
  have hbyte : ∀ b : UInt8, b = 0 ↔ b.toNat = 0 := fun b => UInt8.toNat_inj.symm
  have hlt : ∀ b : UInt8, b.toNat < 256 := fun b => b.toNat_lt
  unfold ofDwordBytes
  rw [← UInt32.toNat_inj, UInt32.toNat_ofNat']
  have h0 := hlt (m.getD 0 0)
  have h1 := hlt (m.getD 1 0)
  have h2 := hlt (m.getD 2 0)
  have h3 := hlt (m.getD 3 0)
  constructor
  · intro h i hi
    rw [hbyte]
    have hsum : (m.getD 0 0).toNat = 0 ∧ (m.getD 1 0).toNat = 0 ∧ (m.getD 2 0).toNat = 0 ∧
        (m.getD 3 0).toNat = 0 := by
      rw [show (0 : UInt32).toNat = 0 from rfl] at h
      omega
    obtain ⟨e0, e1, e2, e3⟩ := hsum
    match i, hi with
    | 0, _ => exact e0
    | 1, _ => exact e1
    | 2, _ => exact e2
    | 3, _ => exact e3
  · intro h
    rw [h 0 (by omega), h 1 (by omega), h 2 (by omega), h 3 (by omega)]
    rfl

/-- A flag that gets at most its four bytes is zero exactly when these are.

**Proof sketch.** The bytes behind those that are copied are zero from the start. -/
theorem flagAfter_eq_zero_iff {status : UInt32} {data : Bytes} {size : ℕ}
    (h : data.length ≤ flagSize) :
    flagAfter ⟨status, some data, size⟩ = 0 ↔ ∀ b ∈ data, b = 0 := by
  show ofDwordBytes (data ++ (dwordBytes 0).drop data.length) = 0 ↔ _
  rw [ofDwordBytes_eq_zero_iff]
  have hzero : ∀ i, (data ++ (dwordBytes 0).drop data.length).getD i 0 = data.getD i 0 := by
    intro i
    have hdrop : ∀ j, ((dwordBytes 0).drop data.length).getD j 0 = 0 := by
      intro j
      by_cases hj : j < ((dwordBytes 0).drop data.length).length
      · rw [List.getD_eq_getElem _ _ hj]
        have hmem : _ ∈ List.replicate 4 (0 : UInt8) := List.mem_of_mem_drop (List.getElem_mem hj)
        exact List.eq_of_mem_replicate hmem
      · exact List.getD_eq_default _ _ (Nat.le_of_not_lt hj)
    by_cases hi : i < data.length
    · exact List.getD_append _ _ _ _ hi
    · rw [List.getD_append_right _ _ _ _ (Nat.le_of_not_lt hi), hdrop,
        List.getD_eq_default _ _ (Nat.le_of_not_lt hi)]
  constructor
  · intro hall b hb
    obtain ⟨i, hi, rfl⟩ := List.getElem_of_mem hb
    have := hall i (lt_of_lt_of_le hi h)
    rw [hzero, List.getD_eq_getElem _ _ hi] at this
    exact this
  · intro hall i _
    rw [hzero]
    by_cases hi : i < data.length
    · rw [List.getD_eq_getElem _ _ hi]
      exact hall _ (List.getElem_mem hi)
    · exact List.getD_eq_default _ _ (Nat.le_of_not_lt hi)

/-! ## When the two agree -/

section Agree

variable {k : Key}

/-- A query into a flag copies at most the flag when the size it is given is that of a flag. -/
theorem length_copied_le {name : String} {data : Bytes}
    (h : (queryValueEx k name true flagSize).copied = some data) : data.length ≤ flagSize := by
  unfold queryValueEx at h
  split at h
  · simp at h
  · rename_i v _
    by_cases hlen : flagSize < v.data.length
    · simp [hlen] at h
    · obtain rfl : v.data = data := by simpa [hlen] using h
      exact Nat.le_of_not_lt hlen

/-- The first query is the same in both.

**Proof sketch.** What is copied for the first flag fits it, and is the same in both. -/
theorem flagsAgree_iff_second {size : ℕ}
    (hsize : (queryValueEx k szIncomingFlag true flagSize).size = size) :
    FlagsAgree k ↔
      flagAfter (queryValueEx k szIncomingLocalFlag true size) =
        flagAfter (queryValueEx k szIncomingLocalFlag true flagSize) ∧
      ∀ data, (queryValueEx k szIncomingLocalFlag true size).copied = some data →
        data.length ≤ flagSize := by
  have hprovider : Provider.getIncomingFlag k =
      ⟨(flagAfter (queryValueEx k szIncomingFlag true flagSize),
        flagAfter (queryValueEx k szIncomingLocalFlag true size)),
        [(queryValueEx k szIncomingFlag true flagSize).copied,
          (queryValueEx k szIncomingLocalFlag true size).copied]⟩ := by
    rw [← hsize]
    rfl
  constructor
  · intro h
    obtain ⟨hflags, hcopied, -⟩ := h
    rw [hprovider] at hflags hcopied
    exact ⟨(Prod.mk.inj hflags).2, fun data hdata => hcopied data (by simp [hdata])⟩
  · intro h
    obtain ⟨hflag, hlen⟩ := h
    refine ⟨?_, ?_, ?_⟩
    · rw [hprovider]
      exact Prod.ext rfl hflag
    · rw [hprovider]
      intro data hdata
      rcases List.mem_cons.mp hdata with hdata | hdata
      · exact length_copied_le hdata.symm
      · exact hlen data (List.mem_singleton.mp hdata).symm
    · intro data hdata
      rcases List.mem_cons.mp hdata with hdata | hdata
      · exact length_copied_le hdata.symm
      · exact length_copied_le (List.mem_singleton.mp hdata).symm

/-- The query for a value that does not fit leaves the flag. -/
theorem flagAfter_of_lt {name : String} {v : Value} {size : ℕ} (hv : k name = some v)
    (h : size < v.data.length) : flagAfter (queryValueEx k name true size) = 0 := by
  simp only [queryValueEx, hv, h, Bool.not_true, Bool.false_eq_true, if_false, if_true]
  rfl

/-- The second query of the provider agrees with that of the service exactly when the second value
is one of those of the condition.

**Proof sketch.** By whether the value fits the flag, and whether it fits the size that the first
query has left. -/
theorem second_agrees_iff {v : Value} (hv : k szIncomingLocalFlag = some v) (size : ℕ) :
    (flagAfter (queryValueEx k szIncomingLocalFlag true size) =
        flagAfter (queryValueEx k szIncomingLocalFlag true flagSize) ∧
      ∀ data, (queryValueEx k szIncomingLocalFlag true size).copied = some data →
        data.length ≤ flagSize) ↔
    if v.data.length ≤ flagSize then v.data.length ≤ size ∨ ∀ b ∈ v.data, b = 0
    else size < v.data.length := by
  by_cases hflag : v.data.length ≤ flagSize
  · rw [if_pos hflag, queryValueEx_of_le hv hflag]
    by_cases hfit : v.data.length ≤ size
    · rw [queryValueEx_of_le hv hfit]
      exact iff_of_true ⟨rfl, fun data hdata => by rw [← Option.some.inj hdata]; exact hflag⟩
        (.inl hfit)
    · have hlt : size < v.data.length := Nat.lt_of_not_le hfit
      have hnone : (queryValueEx k szIncomingLocalFlag true size).copied = none := by
        simp [queryValueEx, hv, hlt]
      rw [flagAfter_of_lt hv hlt, hnone, eq_comm, flagAfter_eq_zero_iff hflag]
      constructor
      · exact fun h => .inr h.1
      · intro h
        exact ⟨h.resolve_left hfit, by simp⟩
  · have hlt : flagSize < v.data.length := Nat.lt_of_not_le hflag
    rw [if_neg hflag, flagAfter_of_lt hv hlt]
    constructor
    · intro h
      by_contra hfit
      rw [queryValueEx_of_le hv (Nat.le_of_not_lt hfit)] at h
      exact hflag (h.2 _ rfl)
    · intro h
      have hnone : (queryValueEx k szIncomingLocalFlag true size).copied = none := by
        simp [queryValueEx, hv, h]
      exact ⟨flagAfter_of_lt hv h, by simp [hnone]⟩

/-- **The flags for incoming calls.** For every content of the key, with values of any type and
length: the provider reads the flags that the service reads, and that `GetConfigInfo` returns, and
neither writes more than a flag, exactly when one of the values is absent or the second one stands
to the first as in the condition.

**Proof sketch.** The first query is the same in both. Where a first value is there, the second
query of the provider gets its length in place of the size of a flag. A second value that fits a
flag but not that length leaves the flag, which shows unless the value is zero; one that fits that
length but not a flag is copied over the end of the flag. -/
theorem flagsAgree_iff (k : Key) :
    (FlagsAgree k ↔ SecondFits k) ∧
    ∀ {nameSize passwordSize extensionSize : ℕ} (w : Platform)
      (args : ConfigBuffers nameSize passwordSize extensionSize)
      (info : ConfigInfo nameSize passwordSize extensionSize),
      getConfigInfo w (.ok k) args = .ok info →
        (info.bHandleIncoming, info.bIncomingLocal) = (serviceFlags k).flags := by
  refine ⟨?_, fun w args info h => getConfigInfo_flags h⟩
  cases h₂ : k szIncomingLocalFlag with
  | none =>
    rw [flagsAgree_iff_second rfl]
    refine iff_of_true ?_ (fun _ v₂ _ hv₂ => ?_)
    · simp [queryValueEx, h₂, flagAfter]
    · rw [h₂] at hv₂
      simp at hv₂
  | some v₂ =>
    cases h₁ : k szIncomingFlag with
    | none =>
      have hsize : (queryValueEx k szIncomingFlag true flagSize).size = flagSize := by
        simp [queryValueEx, h₁]
      rw [flagsAgree_iff_second hsize]
      refine iff_of_true ⟨rfl, fun _ => length_copied_le⟩ (fun v₁ _ hv₁ _ => ?_)
      rw [h₁] at hv₁
      simp at hv₁
    | some v₁ =>
      have hsize : (queryValueEx k szIncomingFlag true flagSize).size = v₁.data.length := by
        by_cases hlen : flagSize < v₁.data.length <;> simp [queryValueEx, h₁, hlen]
      rw [flagsAgree_iff_second hsize, second_agrees_iff h₂]
      constructor
      · intro h v v' hv hv'
        obtain rfl : v₁ = v := Option.some.inj (h₁.symm.trans hv)
        obtain rfl : v₂ = v' := Option.some.inj (h₂.symm.trans hv')
        exact h
      · exact fun h => h v₁ v₂ h₁ h₂

/-- A key whose first flag is stored in one byte, and the second as `TRUE`. -/
def shortFirst : Key := fun name =>
  if name = szIncomingFlag then some ⟨.binary, [1]⟩
  else if name = szIncomingLocalFlag then some ⟨.dword, dwordBytes 1⟩ else none

/-- A key with two values of eight bytes. -/
def longValues : Key := fun name =>
  if name = szIncomingFlag ∨ name = szIncomingLocalFlag then
    some ⟨.binary, [1, 0, 0, 0, 0, 0, 0, 0]⟩
  else none

/-- Behind a first value of one byte the provider misses the second flag, which the service reads;
and behind one of eight bytes it copies eight bytes over the second flag.

**Proof sketch.** Both registries are computed. -/
theorem flags_disagree :
    (Provider.getIncomingFlag shortFirst).flags = (1, 0) ∧
    (serviceFlags shortFirst).flags = (1, 1) ∧
    ¬ FlagsAgree shortFirst ∧
    some [1, 0, 0, 0, 0, 0, 0, 0] ∈ (Provider.getIncomingFlag longValues).copied ∧
    ¬ FlagsAgree longValues := by
  have hshort : (Provider.getIncomingFlag shortFirst).flags = (1, 0) ∧
      (serviceFlags shortFirst).flags = (1, 1) := by decide
  have hlong : some [1, 0, 0, 0, 0, 0, 0, 0] ∈ (Provider.getIncomingFlag longValues).copied := by
    decide
  refine ⟨hshort.1, hshort.2, fun h => ?_, hlong, fun h => ?_⟩
  · have hflags := h.flags
    rw [hshort.1, hshort.2] at hflags
    exact absurd hflags (by decide)
  · exact absurd (h.provider _ hlong) (by decide)

end Agree

end Nuacom
