import Nuacom.Server.Config

set_option relaxedAutoImplicit false
set_option autoImplicit false

/-!
# What a call of `SetConfigInfo` leaves in the registry

`SetConfigInfo` makes three writes before the encryption that can fail, a fourth before the
login that can fail, and reads none of the status codes of the writes. So it is all-or-nothing
only where the writes that come before a failure change nothing, and where none of them is
refused before a success.

## Main definitions

* `Nuacom.Unchanged`, `Nuacom.NewSettings` — the two outcomes for the four values.
* `Nuacom.AllOrNothing` — a call raises and changes none of them, or returns with all of them
  set.
* `Nuacom.SetsCleanly` — the condition on the arguments, the registry before the call and the
  answers of the system.

## Main results

* `Nuacom.valueAt_setPlainValues`, `Nuacom.valueAt_setPassword` — the four values afterwards.
* `Nuacom.setConfigInfo_allOrNothing_iff` — a call is all-or-nothing exactly when it meets the
  condition.
-/

namespace Nuacom

open CString Registry

/-- The names of the four values. -/
def configNames : List String := [szIncomingFlag, szIncomingLocalFlag, szName, szPassword]

/-- The four values are what they were. -/
def Unchanged (r r' : Option Key) : Prop :=
  ∀ name ∈ configNames, valueAt r' name = valueAt r name

/-- The four values hold the settings; the password is what `CryptUnprotectData` makes of it. -/
structure NewSettings (w : Platform) (a : Settings) (r : Option Key) : Prop where
  incomingFlag : valueAt r szIncomingFlag = some ⟨.dword, dwordBytes a.bHandleIncoming⟩
  incomingLocalFlag : valueAt r szIncomingLocalFlag = some ⟨.dword, dwordBytes a.bIncomingLocal⟩
  name : valueAt r szName = some ⟨.sz, cStr a.name ++ [0]⟩
  password : ∃ v, valueAt r szPassword = some v ∧
    w.unprotect v.data = .ok (cStr a.password ++ [0])

/-- Exactly one of two things holds when `SetConfigInfo` has ended: it raised an exception and
the four values are what they were, or it returned with `*bConfigured` set and all four values
hold the settings. -/
def AllOrNothing {n : ℕ} (w : Platform) (a : Settings) (r : Option Key)
    (out : Option Key × Except Fault (Buffer n × UInt32)) : Prop :=
  Xor ((∃ status, out.2 = .error (.exception status)) ∧ Unchanged r out.1)
    ((∃ extension, out.2 = .ok (extension, 1)) ∧ NewSettings w a out.1)

/-! ## The condition -/

section Condition

variable (st : SetStatus) (a : Settings) (r : Option Key)

/-- A write of `v` is refused, or `v` is what was there. -/
def ChangesNothing (status : UInt32) (name : String) (v : Value) : Prop :=
  takesEffect st.isOpen status = true → valueAt r name = some v

/-- The three writes before the encryption change nothing. -/
def PlainUnchanged : Prop :=
  ChangesNothing st r st.incomingLocalFlag szIncomingLocalFlag
    ⟨.dword, dwordBytes a.bIncomingLocal⟩ ∧
  ChangesNothing st r st.incomingFlag szIncomingFlag ⟨.dword, dwordBytes a.bHandleIncoming⟩ ∧
  ChangesNothing st r st.name szName ⟨.sz, stringData a.name⟩

/-- A string and its terminator have a length that fits 32 bits. -/
def LengthFits (s : Bytes) : Prop := (cStr s).length + 1 < 2 ^ 32

/-- A flag is written, or was there. -/
def FlagSet (status : UInt32) (name : String) (flag : UInt32) : Prop :=
  takesEffect st.isOpen status = true ∨ valueAt r name = some ⟨.dword, dwordBytes flag⟩

/-- The user name is written whole, or was there. -/
def NameSet : Prop :=
  if takesEffect st.isOpen st.name = true then LengthFits a.name
  else valueAt r szName = some ⟨.sz, cStr a.name ++ [0]⟩

/-- The password is written whole, or one that decrypts to it was there. -/
def PasswordSet (w : Platform) : Prop :=
  if takesEffect st.isOpen st.password = true then LengthFits a.password
  else ∃ v, valueAt r szPassword = some v ∧ w.unprotect v.data = .ok (cStr a.password ++ [0])

/-- The condition under which `SetConfigInfo` is all-or-nothing: where the encryption or the
login fails, the writes before it change nothing; where both succeed, each of the four values
is written or was there. An assertion that fails during the login ends the service. -/
def SetsCleanly {n : ℕ} (w : Platform) (extension : Buffer n) : Prop :=
  match w.protect (stringData a.password) with
  | .error _ => PlainUnchanged st a r
  | .ok passwordEncrypted =>
    match getUserExtension w a.name a.password extension with
    | .error _ => False
    | .ok (n, _) =>
      if n ≠ 0 then
        PlainUnchanged st a r ∧
          ChangesNothing st r st.password szPassword ⟨.binary, passwordEncrypted⟩
      else
        FlagSet st r st.incomingFlag szIncomingFlag a.bHandleIncoming ∧
          FlagSet st r st.incomingLocalFlag szIncomingLocalFlag a.bIncomingLocal ∧
          NameSet st a r ∧ PasswordSet st a r w

end Condition

/-! ## The registry after the writes -/

section Writes

variable {st : SetStatus} {a : Settings} {r : Option Key}

/-- What a value is after a write to it. -/
def written (st : SetStatus) (status : UInt32) (name : String) (v : Value) (r : Option Key) :
    Option Value :=
  if takesEffect st.isOpen status = true then some v else valueAt r name

/-- A value is as it was exactly when the write fails or writes what is there. -/
theorem written_eq_iff {status : UInt32} {name : String} {v : Value} :
    written st status name v r = valueAt r name ↔ ChangesNothing st r status name v := by
  unfold written ChangesNothing
  split_ifs with h
  · simp [h, eq_comm]
  · simp [h]

/-- Creating the key changes none of its values. -/
theorem valueAt_createKey (name : String) : valueAt (createKey st r) name = valueAt r name := by
  unfold createKey valueAt
  split_ifs
  · cases r <;> rfl
  · rfl

/-- An open handle is one on an existing key. -/
def Opened (st : SetStatus) (r : Option Key) : Prop := st.isOpen = true → r.isSome = true

/-- The key that was created or opened is there. -/
theorem opened_createKey : Opened st (createKey st r) := by
  intro h
  simp [createKey, h]

/-- A write leaves the key there. -/
theorem Opened.setValueEx (h : Opened st r) (status : UInt32) (name : String) (v : Value) :
    Opened st (setValueEx st.isOpen status name v r).1 := by
  intro ho
  rw [setValueEx_isSome]
  exact h ho

/-- The value that a write names, afterwards. -/
theorem valueAt_write (h : Opened st r) (status : UInt32) (name : String) (v : Value) :
    valueAt (setValueEx st.isOpen status name v r).1 name = written st status name v r := by
  rw [valueAt_setValueEx _ _ _ _ _ _ h]
  simp [written]

/-- The values that a write does not name, afterwards. -/
theorem valueAt_write_of_ne (h : Opened st r) (status : UInt32) {name name' : String}
    (v : Value) (hne : name' ≠ name) :
    valueAt (setValueEx st.isOpen status name v r).1 name' = valueAt r name' := by
  rw [valueAt_setValueEx _ _ _ _ _ _ h]
  simp [hne]

/-- What a value is after a write to it depends only on what it was before. -/
theorem written_congr {r' : Option Key} {name : String} (h : valueAt r' name = valueAt r name)
    (status : UInt32) (v : Value) : written st status name v r' = written st status name v r := by
  simp only [written, h]

/-- The handle stays open through the first three writes. -/
theorem opened_setPlainValues : Opened st (setPlainValues st a (createKey st r)) :=
  ((opened_createKey.setValueEx _ _ _).setValueEx _ _ _).setValueEx _ _ _

variable (st a r) in
/-- The three plain values after the first three writes, and the password, which they leave.

**Proof sketch.** Each write changes the value that it names, and leaves the others. -/
theorem valueAt_setPlainValues :
    valueAt (setPlainValues st a (createKey st r)) szIncomingLocalFlag =
      written st st.incomingLocalFlag szIncomingLocalFlag
        ⟨.dword, dwordBytes a.bIncomingLocal⟩ r ∧
    valueAt (setPlainValues st a (createKey st r)) szIncomingFlag =
      written st st.incomingFlag szIncomingFlag ⟨.dword, dwordBytes a.bHandleIncoming⟩ r ∧
    valueAt (setPlainValues st a (createKey st r)) szName =
      written st st.name szName ⟨.sz, stringData a.name⟩ r ∧
    valueAt (setPlainValues st a (createKey st r)) szPassword = valueAt r szPassword := by
  have o0 : Opened st (createKey st r) := opened_createKey
  have o1 := o0.setValueEx st.incomingLocalFlag szIncomingLocalFlag
    ⟨.dword, dwordBytes a.bIncomingLocal⟩
  have o2 := o1.setValueEx st.incomingFlag szIncomingFlag ⟨.dword, dwordBytes a.bHandleIncoming⟩
  refine ⟨?_, ?_, ?_, ?_⟩
  · rw [setPlainValues, valueAt_write_of_ne o2 _ _ (by decide),
      valueAt_write_of_ne o1 _ _ (by decide), valueAt_write o0]
    exact written_congr (valueAt_createKey _) _ _
  · rw [setPlainValues, valueAt_write_of_ne o2 _ _ (by decide), valueAt_write o1]
    apply written_congr
    rw [valueAt_write_of_ne o0 _ _ (by decide), valueAt_createKey]
  · rw [setPlainValues, valueAt_write o2]
    apply written_congr
    rw [valueAt_write_of_ne o1 _ _ (by decide), valueAt_write_of_ne o0 _ _ (by decide),
      valueAt_createKey]
  · rw [setPlainValues, valueAt_write_of_ne o2 _ _ (by decide),
      valueAt_write_of_ne o1 _ _ (by decide), valueAt_write_of_ne o0 _ _ (by decide),
      valueAt_createKey]

/-- The registry after the fourth write. -/
def setPassword (st : SetStatus) (a : Settings) (passwordEncrypted : Bytes) (r : Option Key) :
    Option Key :=
  (setValueEx st.isOpen st.password szPassword ⟨.binary, passwordEncrypted⟩
    (setPlainValues st a (createKey st r))).1

variable (st a r) in
/-- The four values after the four writes.

**Proof sketch.** The last write is to the password, behind the three plain ones. -/
theorem valueAt_setPassword (passwordEncrypted : Bytes) :
    valueAt (setPassword st a passwordEncrypted r) szIncomingLocalFlag =
      written st st.incomingLocalFlag szIncomingLocalFlag
        ⟨.dword, dwordBytes a.bIncomingLocal⟩ r ∧
    valueAt (setPassword st a passwordEncrypted r) szIncomingFlag =
      written st st.incomingFlag szIncomingFlag ⟨.dword, dwordBytes a.bHandleIncoming⟩ r ∧
    valueAt (setPassword st a passwordEncrypted r) szName =
      written st st.name szName ⟨.sz, stringData a.name⟩ r ∧
    valueAt (setPassword st a passwordEncrypted r) szPassword =
      written st st.password szPassword ⟨.binary, passwordEncrypted⟩ r := by
  have o3 : Opened st (setPlainValues st a (createKey st r)) := opened_setPlainValues
  obtain ⟨hl, hf, hn, hp⟩ := valueAt_setPlainValues st a r
  refine ⟨?_, ?_, ?_, ?_⟩
  · rw [setPassword, valueAt_write_of_ne o3 _ _ (by decide), hl]
  · rw [setPassword, valueAt_write_of_ne o3 _ _ (by decide), hf]
  · rw [setPassword, valueAt_write_of_ne o3 _ _ (by decide), hn]
  · rw [setPassword, valueAt_write o3]
    exact written_congr hp _ _

/-- The first three writes leave the four values alone exactly when each changes nothing. -/
theorem unchanged_setPlainValues_iff :
    Unchanged r (setPlainValues st a (createKey st r)) ↔ PlainUnchanged st a r := by
  obtain ⟨hl, hf, hn, hp⟩ := valueAt_setPlainValues st a r
  unfold PlainUnchanged
  simp only [Unchanged, configNames, List.forall_mem_cons, hl, hf, hn, hp, written_eq_iff]
  simp only [List.not_mem_nil, false_implies, implies_true, and_true]
  constructor
  · intro h
    obtain ⟨h1, h2, h3⟩ := h
    exact ⟨h2, h1, h3⟩
  · intro h
    obtain ⟨h2, h1, h3⟩ := h
    exact ⟨h1, h2, h3⟩

/-- The four writes leave the four values alone exactly when each changes nothing.

**Proof sketch.** Value by value. -/
theorem unchanged_setPassword_iff (passwordEncrypted : Bytes) :
    Unchanged r (setPassword st a passwordEncrypted r) ↔
      PlainUnchanged st a r ∧
        ChangesNothing st r st.password szPassword ⟨.binary, passwordEncrypted⟩ := by
  obtain ⟨hl, hf, hn, hp⟩ := valueAt_setPassword st a r passwordEncrypted
  unfold PlainUnchanged
  simp only [Unchanged, configNames, List.forall_mem_cons, hl, hf, hn, hp, written_eq_iff]
  simp only [List.not_mem_nil, false_implies, implies_true, and_true]
  constructor
  · intro h
    obtain ⟨h1, h2, h3, h4⟩ := h
    exact ⟨⟨h2, h1, h3⟩, h4⟩
  · intro h
    obtain ⟨⟨h2, h1, h3⟩, h4⟩ := h
    exact ⟨h1, h2, h3, h4⟩

/-- What is written of a string is the whole of it exactly when its length fits. -/
theorem stringData_eq_iff (s : Bytes) : stringData s = cStr s ++ [0] ↔ LengthFits s := by
  unfold stringData LengthFits
  constructor
  · intro h
    have hlen := congrArg List.length h
    rw [List.length_take, List.length_append, List.length_singleton] at hlen
    have := Nat.mod_lt ((cStr s).length + 1) (Nat.two_pow_pos 32)
    omega
  · intro h
    rw [Nat.mod_eq_of_lt h]
    exact List.take_of_length_le (by simp)

/-- The four writes leave the settings in place exactly when each of the four values is written
whole or was there.

**Proof sketch.** Value by value: a write takes effect, or what was there must be the new value
already. -/
theorem newSettings_setPassword_iff {w : Platform} (hw : w.Inverts) {passwordEncrypted : Bytes}
    (hp : w.protect (stringData a.password) = .ok passwordEncrypted) :
    NewSettings w a (setPassword st a passwordEncrypted r) ↔
      FlagSet st r st.incomingFlag szIncomingFlag a.bHandleIncoming ∧
        FlagSet st r st.incomingLocalFlag szIncomingLocalFlag a.bIncomingLocal ∧
        NameSet st a r ∧ PasswordSet st a r w := by
  obtain ⟨hl, hf, hn, hpw⟩ := valueAt_setPassword st a r passwordEncrypted
  have hflag : ∀ status name flag, written st status name ⟨.dword, dwordBytes flag⟩ r =
      some ⟨.dword, dwordBytes flag⟩ ↔ FlagSet st r status name flag := by
    intro status name flag
    unfold written FlagSet
    split_ifs with h <;> simp [h]
  have hname : written st st.name szName ⟨.sz, stringData a.name⟩ r =
      some ⟨.sz, cStr a.name ++ [0]⟩ ↔ NameSet st a r := by
    unfold written NameSet
    split_ifs with h
    · rw [← stringData_eq_iff]
      simp
    · rfl
  have hpassword : (∃ v, written st st.password szPassword ⟨.binary, passwordEncrypted⟩ r =
      some v ∧ w.unprotect v.data = .ok (cStr a.password ++ [0])) ↔ PasswordSet st a r w := by
    unfold written PasswordSet
    split_ifs with h
    · rw [← stringData_eq_iff]
      simp [hw _ _ hp]
    · rfl
  rw [← hflag, ← hflag, ← hname, ← hpassword]
  constructor
  · intro h'
    obtain ⟨h1, h2, h3, h4⟩ := h'
    exact ⟨hf ▸ h1, hl ▸ h2, hn ▸ h3, hpw ▸ h4⟩
  · intro h'
    obtain ⟨h1, h2, h3, h4⟩ := h'
    exact ⟨hf.trans h1, hl.trans h2, hn.trans h3, by rw [hpw]; exact h4⟩

end Writes

/-! ## All or nothing -/

section AllOrNothing

variable {n : ℕ} {w : Platform} {a : Settings} {r r' : Option Key}

/-- A call that raises keeps the promise exactly when it has changed nothing. -/
theorem allOrNothing_raised_iff (status : UInt32) :
    AllOrNothing (n := n) w a r (r', .error (.exception status)) ↔ Unchanged r r' := by
  simp [AllOrNothing, Xor]

/-- A call that ends in an assertion does not keep it. -/
theorem not_allOrNothing_abort (x : Rapidjson.Assertion) :
    ¬ AllOrNothing (n := n) w a r (r', .error (.abort x)) := by
  simp [AllOrNothing, Xor]

/-- A call that returns keeps it exactly when it has left the new settings. -/
theorem allOrNothing_returned_iff (extension : Buffer n) :
    AllOrNothing w a r (r', .ok (extension, 1)) ↔ NewSettings w a r' := by
  simp [AllOrNothing, Xor]

/-- **When `SetConfigInfo` is all-or-nothing.** Whatever the registry before the call, the
arguments and the answers of the system, the call either raises and leaves the four values, or
returns with all four set, exactly when it meets `SetsCleanly`.

**Proof sketch.** By the answers of the encryption and of the login. Where one of them fails,
the call raises, and the writes made so far must have changed nothing; where both succeed it
returns, and each of the four values must have been written or have been there. -/
theorem setConfigInfo_allOrNothing_iff (w : Platform) (hw : w.Inverts) (st : SetStatus)
    (a : Settings) (extension : Buffer n) (r : Option Key) :
    AllOrNothing w a r (setConfigInfo w st a extension r) ↔ SetsCleanly st a r w extension := by
  unfold setConfigInfo SetsCleanly
  cases hp : w.protect (stringData a.password) with
  | error status =>
    simp only [encryptData, hp]
    rw [allOrNothing_raised_iff, unchanged_setPlainValues_iff]
  | ok passwordEncrypted =>
    simp only [encryptData, hp]
    rcases hlogin : getUserExtension w a.name a.password extension with f | ⟨status, ext⟩
    · obtain ⟨x, rfl⟩ := getUserExtension_error hlogin
      simp only [iff_false]
      exact not_allOrNothing_abort x
    · by_cases hs : status = 0
      · simp only [hs, ne_eq, not_true_eq_false, if_false]
        rw [allOrNothing_returned_iff]
        exact newSettings_setPassword_iff hw hp
      · simp only [hs, ne_eq, not_false_eq_true, if_true]
        rw [allOrNothing_raised_iff]
        exact unchanged_setPassword_iff passwordEncrypted

/-- A call that creates the key and all of whose writes and steps succeed is
all-or-nothing.

**Proof sketch.** All statuses are zero and the login succeeds, so the condition asks that each
value is written whole. -/
theorem setConfigInfo_allOrNothing_created :
    AllOrNothing openPlatform ⟨bytes "bob", bytes "pw", 1, 0⟩ none
        (setConfigInfo openPlatform ⟨0, 0, 0, 0, 0⟩ ⟨bytes "bob", bytes "pw", 1, 0⟩
          (⟨[0], rfl⟩ : Buffer 1) none) ∧
      openPlatform.Inverts := by
  refine ⟨(setConfigInfo_allOrNothing_iff openPlatform openPlatform_inverts _ _ _ _).mpr ?_,
    openPlatform_inverts⟩
  obtain ⟨extension, hlogin⟩ := (getUserExtension_eq_zero_iff openPlatform (bytes "bob")
    (bytes "pw") (⟨[0], rfl⟩ : Buffer 1)).mpr (openPlatform_logsIn _ _)
  unfold SetsCleanly
  simp only [openPlatform] at hlogin ⊢
  rw [hlogin]
  simp only [ne_eq, not_true_eq_false, if_false]
  refine ⟨.inl (by decide), .inl (by decide), ?_, ?_⟩
  · rw [NameSet, if_pos (by decide), LengthFits]
    decide
  · rw [PasswordSet, if_pos (by decide), LengthFits]
    decide

/-- A registry in which another user is configured. -/
def aliceKey : Key := fun name =>
  if name = szIncomingFlag then some ⟨.dword, dwordBytes 0⟩
  else if name = szIncomingLocalFlag then some ⟨.dword, dwordBytes 0⟩
  else if name = szName then some ⟨.sz, bytes "alice" ++ [0]⟩
  else if name = szPassword then some ⟨.binary, 1 :: bytes "old" ++ [0]⟩
  else none

/-- The system refuses the write of the user name, and only that: the call returns with
`*bConfigured` set, with the new password beside the old user name.

**Proof sketch.** The result is computed: the name is that of alice, the password is the new one. -/
theorem setConfigInfo_returns_half_changed :
    let out := setConfigInfo openPlatform ⟨0, 0, 0, 5, 0⟩ ⟨bytes "bob", bytes "new", 1, 0⟩
      (⟨[0], rfl⟩ : Buffer 1) (some aliceKey)
    (∃ extension, out.2 = .ok (extension, 1)) ∧
      valueAt out.1 szName = some ⟨.sz, bytes "alice" ++ [0]⟩ ∧
      valueAt out.1 szPassword = some ⟨.binary, 1 :: bytes "new" ++ [0]⟩ ∧
      ¬ AllOrNothing openPlatform ⟨bytes "bob", bytes "new", 1, 0⟩ (some aliceKey) out := by
  obtain ⟨extension, hlogin⟩ := (getUserExtension_eq_zero_iff openPlatform (bytes "bob")
    (bytes "new") (⟨[0], rfl⟩ : Buffer 1)).mpr (openPlatform_logsIn _ _)
  have hout : setConfigInfo openPlatform ⟨0, 0, 0, 5, 0⟩ ⟨bytes "bob", bytes "new", 1, 0⟩
      (⟨[0], rfl⟩ : Buffer 1) (some aliceKey) =
      (setPassword ⟨0, 0, 0, 5, 0⟩ ⟨bytes "bob", bytes "new", 1, 0⟩ (1 :: bytes "new" ++ [0])
        (some aliceKey), .ok (extension, 1)) := by
    have hencrypt : encryptData openPlatform (bytes "new") = .ok (1 :: bytes "new" ++ [0]) := rfl
    simp only [setConfigInfo, hencrypt, hlogin, setPassword, ne_eq, not_true_eq_false, if_false]
  simp only [hout]
  refine ⟨⟨extension, rfl⟩, by decide, by decide, ?_⟩
  rw [allOrNothing_returned_iff]
  intro h
  obtain ⟨-, -, hname, -⟩ := h
  revert hname
  decide

end AllOrNothing

end Nuacom
