import Mathlib.Logic.Function.Basic
import Nuacom.Support.CString

set_option relaxedAutoImplicit false
set_option autoImplicit false

/-!
# One key of the Windows registry

A key maps value names to typed byte strings. `RegQueryValueEx` both reads and overwrites the
size variable of its caller, so a query is described by everything it gives back: its status,
the bytes it writes to the buffer, if any, and the new content of the size variable.

## Main definitions

* `Registry.Value`, `Registry.Key` — values, and keys as partial maps from names to them.
* `Registry.dwordBytes`, `Registry.ofDwordBytes` — 32-bit numbers as the four bytes of memory.
* `Registry.queryValueEx` — `RegQueryValueEx`.
* `Registry.setValueEx` — `RegSetValueEx` on a handle that may be invalid.
* `Registry.valueAt` — a value below a key that may not exist.

## Main results

* `Registry.ofDwordBytes_dwordBytes` — reading a number back from its bytes.
* `Registry.queryValueEx_success_iff` — a query for data succeeds exactly when the value is there
  and fits.
* `Registry.valueAt_setValueEx` — a write changes at most the value it names, and only when it
  takes effect.
-/

namespace Registry

open CString

/-- The value types used here; `other` stands for the remaining type codes. -/
inductive ValueType
  | sz
  | binary
  | dword
  | other (code : UInt32)
  deriving DecidableEq, Repr

/-- A registry value. -/
structure Value where
  /-- The type stored with the data. -/
  type : ValueType
  /-- The data, of any length. -/
  data : Bytes
  deriving DecidableEq, Repr

/-- The values below one key. -/
abbrev Key := String → Option Value

/-- `ERROR_SUCCESS`. -/
def errorSuccess : UInt32 := 0

/-- `ERROR_FILE_NOT_FOUND`: the key has no value of that name. -/
def errorFileNotFound : UInt32 := 2

/-- `ERROR_INVALID_HANDLE`. -/
def errorInvalidHandle : UInt32 := 6

/-- `ERROR_MORE_DATA`: the buffer is too small for the value. -/
def errorMoreData : UInt32 := 234

/-! ## Numbers in memory -/

/-- The four bytes of a 32-bit number, lowest first. -/
def dwordBytes (x : UInt32) : Bytes :=
  [UInt8.ofNat (x.toNat % 256), UInt8.ofNat (x.toNat / 256 % 256),
    UInt8.ofNat (x.toNat / 65536 % 256), UInt8.ofNat (x.toNat / 16777216)]

/-- The 32-bit number at the start of a piece of memory. -/
def ofDwordBytes (m : Bytes) : UInt32 :=
  UInt32.ofNat ((m.getD 0 0).toNat + 256 * (m.getD 1 0).toNat + 65536 * (m.getD 2 0).toNat +
    16777216 * (m.getD 3 0).toNat)

/-- A 32-bit number has four bytes. -/
@[simp] theorem length_dwordBytes (x : UInt32) : (dwordBytes x).length = 4 := rfl

/-- A number is read back from its bytes, whatever follows them. -/
theorem ofDwordBytes_dwordBytes (x : UInt32) (rest : Bytes) :
    ofDwordBytes (dwordBytes x ++ rest) = x := by
  have hx := x.toNat_lt
  simp only [ofDwordBytes, dwordBytes, List.cons_append, List.getD_cons_zero,
    List.getD_cons_succ]
  apply UInt32.toNat_inj.mp
  simp only [UInt8.toNat_ofNat', UInt32.toNat_ofNat']
  omega

/-! ## Queries -/

/-- What `RegQueryValueEx` gives back. -/
structure QueryResult where
  /-- The return value. -/
  status : UInt32
  /-- The bytes written to the start of the buffer, if any were. -/
  copied : Option Bytes
  /-- The size variable afterwards. -/
  size : ℕ

/-- `RegQueryValueEx` with the size variable at `size`; `wantData` says that the data pointer
is not `NULL`. -/
def queryValueEx (k : Key) (name : String) (wantData : Bool) (size : ℕ) : QueryResult :=
  match k name with
  | none => ⟨errorFileNotFound, none, size⟩
  | some v =>
    if !wantData then ⟨errorSuccess, none, v.data.length⟩
    else if size < v.data.length then ⟨errorMoreData, none, v.data.length⟩
    else ⟨errorSuccess, some v.data, v.data.length⟩

/-- A query for data succeeds exactly when the value is there and fits. -/
theorem queryValueEx_success_iff (k : Key) (name : String) (size : ℕ) :
    (queryValueEx k name true size).status = errorSuccess ↔
      ∃ v, k name = some v ∧ v.data.length ≤ size := by
  unfold queryValueEx
  cases hk : k name with
  | none => simp [errorFileNotFound, errorSuccess]
  | some v =>
    by_cases hs : size < v.data.length
    · simp [hs, errorMoreData, errorSuccess]
    · simp [hs]
      omega

/-- A query for data that succeeds. -/
theorem queryValueEx_of_le {k : Key} {name : String} {v : Value} {size : ℕ}
    (hk : k name = some v) (hs : v.data.length ≤ size) :
    queryValueEx k name true size = ⟨errorSuccess, some v.data, v.data.length⟩ := by
  simp [queryValueEx, hk, Nat.not_lt.mpr hs]

/-- A query for the size of a value that is there. -/
theorem queryValueEx_size {k : Key} {name : String} {v : Value} {size : ℕ}
    (hk : k name = some v) :
    queryValueEx k name false size = ⟨errorSuccess, none, v.data.length⟩ := by
  simp [queryValueEx, hk]

/-! ## Writes -/

/-- The value `name` below a key that may not exist. -/
def valueAt (r : Option Key) (name : String) : Option Value := r.bind fun k => k name

/-- `RegSetValueEx`: the registry afterwards and the status. On a handle that is not open the
call fails with `ERROR_INVALID_HANDLE`; otherwise the system's answer `status` decides. -/
def setValueEx (isOpen : Bool) (status : UInt32) (name : String) (v : Value) (r : Option Key) :
    Option Key × UInt32 :=
  if isOpen then
    if status = errorSuccess then (r.map fun k => Function.update k name (some v), status)
    else (r, status)
  else (r, errorInvalidHandle)

/-- Whether a write takes effect. -/
def takesEffect (isOpen : Bool) (status : UInt32) : Bool :=
  isOpen && status == errorSuccess

/-- A write changes the value it names, and that one only, and only when it takes effect. -/
theorem valueAt_setValueEx (isOpen : Bool) (status : UInt32) (name name' : String) (v : Value)
    (r : Option Key) (h : isOpen = true → r.isSome = true) :
    valueAt (setValueEx isOpen status name v r).1 name' =
      if takesEffect isOpen status = true ∧ name' = name then some v else valueAt r name' := by
  unfold setValueEx takesEffect valueAt
  cases isOpen
  · simp
  · obtain ⟨k, rfl⟩ := Option.isSome_iff_exists.mp (h rfl)
    by_cases hs : status = errorSuccess
    · simp [hs, Function.update_apply]
    · simp [hs]

/-- A write never creates or deletes the key. -/
theorem setValueEx_isSome (isOpen : Bool) (status : UInt32) (name : String) (v : Value)
    (r : Option Key) : (setValueEx isOpen status name v r).1.isSome = r.isSome := by
  unfold setValueEx
  split_ifs <;> simp

end Registry
