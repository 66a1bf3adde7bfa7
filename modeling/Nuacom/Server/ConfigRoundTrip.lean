import Nuacom.Server.ConfigWrite

set_option relaxedAutoImplicit false
set_option autoImplicit false

/-!
# Reading back what `SetConfigInfo` wrote

The user name is read by a query that refuses a buffer that is too small; the password is
decrypted and then copied as far as the buffer goes, without a terminator when it does not fit.
So a user name that is too long is reported, and a password that is too long is not.

## Main definitions

* `Nuacom.ReadsBack` — `GetConfigInfo` raises, or returns the settings, the two strings
  terminated inside their buffers.

## Main results

* `Nuacom.holds_store_stringData_iff` — when a buffer holds the string stored into it.
* `Nuacom.getConfigInfo_after_set` — what `GetConfigInfo` does after a `SetConfigInfo`.
* `Nuacom.getConfigInfo_readsBack_iff` — the strings and buffer sizes for which it reads back
  what was written.
-/

namespace Nuacom

open CString Registry

/-- A call of `GetConfigInfo` raises, or returns with `*bConfigured` set, the flags of the
settings, and the name and the password of the settings, each terminated inside its buffer. -/
def ReadsBack {nameSize passwordSize extensionSize : ℕ} (a : Settings)
    (res : Except Fault (ConfigInfo nameSize passwordSize extensionSize)) : Prop :=
  (∃ status, res = .error (.exception status)) ∨
    ∃ info, res = .ok info ∧ info.bConfigured = 1 ∧ info.bHandleIncoming = a.bHandleIncoming ∧
      info.bIncomingLocal = a.bIncomingLocal ∧ info.name.Holds a.name ∧
      info.password.Holds a.password

/-- `RegOpenKeyEx` refuses a missing key only. -/
def openKey (r : Option Key) : Except UInt32 Key :=
  match r with
  | none => .error errorFileNotFound
  | some k => .ok k

/-- What one encrypts, the other decrypts. -/
def Decrypts (w w' : Platform) : Prop :=
  ∀ data, ∃ encrypted, w.protect data = .ok encrypted ∧ w'.unprotect encrypted = .ok data

/-- The login of a `GetConfigInfo` that has read the settings succeeds. -/
def LoginSucceeds {nameSize passwordSize extensionSize : ℕ} (w : Platform) (a : Settings)
    (args : ConfigBuffers nameSize passwordSize extensionSize) : Prop :=
  LogsIn w ((args.nameRead ⟨.sz, stringData a.name⟩).bytes ++ args.afterName)
    ((args.passwordRead (stringData a.password)).bytes ++ args.afterPassword)

/-! ## Strings in buffers -/

/-- What is stored of a string whose length fits 32 bits, with its terminator. -/
theorem length_stringData {s : Bytes} (hs : NulFree s) :
    (stringData s).length = (s.length + 1) % 2 ^ 32 := by
  unfold stringData
  rw [cStr_of_nulFree hs, List.length_take, List.length_append, List.length_singleton]
  exact Nat.min_eq_left (Nat.mod_le _ _)

/-- A buffer of less than `2 ^ 32` bytes holds the string stored into it exactly when the
string fits it with its terminator. -/
theorem holds_store_stringData_iff {n : ℕ} (hn : n < 2 ^ 32) (b : Buffer n) {s : Bytes}
    (hs : NulFree s) : (b.store (stringData s)).Holds s ↔ s.length + 1 ≤ n := by
  constructor
  · exact fun h => h.length_lt
  · intro h
    have hfits : stringData s = s ++ [0] := by
      have := (stringData_eq_iff s).mpr (by rw [LengthFits, cStr_of_nulFree hs]; omega)
      rwa [cStr_of_nulFree hs] at this
    rw [hfits]
    exact Buffer.holds_store b h

/-- A flag is read back from the four bytes that were written. -/
theorem queryFlag_of_dword {k : Key} {name : String} {flag : UInt32}
    (h : k name = some ⟨.dword, dwordBytes flag⟩) : queryFlag k name = flag := by
  rw [queryFlag, queryValueEx_of_le h (by simp)]
  exact ofDwordBytes_dwordBytes flag _

/-! ## `GetConfigInfo` after `SetConfigInfo` -/

section RoundTrip

variable {w w' : Platform} {a : Settings} {n nameSize passwordSize extensionSize : ℕ}

/-- The key and its four values after a `SetConfigInfo` whose writes all succeed.

**Proof sketch.** The four writes are to four values, and each of them takes effect. -/
theorem setConfigInfo_values {encrypted : Bytes}
    (henc : w.protect (stringData a.password) = .ok encrypted) (extension : Buffer n)
    (r : Option Key) : ∃ k, (setConfigInfo w allWritesSucceed a extension r).1 = some k ∧
      k szIncomingFlag = some ⟨.dword, dwordBytes a.bHandleIncoming⟩ ∧
      k szIncomingLocalFlag = some ⟨.dword, dwordBytes a.bIncomingLocal⟩ ∧
      k szName = some ⟨.sz, stringData a.name⟩ ∧
      k szPassword = some ⟨.binary, encrypted⟩ := by
  have hreg : (setConfigInfo w allWritesSucceed a extension r).1 =
      setPassword allWritesSucceed a encrypted r := by
    unfold setConfigInfo
    simp only [encryptData, henc]
    split
    · rfl
    · split_ifs <;> rfl
  have hsome : (setPassword allWritesSucceed a encrypted r).isSome = true :=
    opened_setPlainValues.setValueEx _ _ _ rfl
  obtain ⟨k, hk⟩ := Option.isSome_iff_exists.mp hsome
  obtain ⟨hl, hf, hname, hpw⟩ := valueAt_setPassword allWritesSucceed a r encrypted
  rw [hk] at hl hf hname hpw
  exact ⟨k, hreg.trans hk, hf, hl, hname, hpw⟩

/-- After a `SetConfigInfo` whose writes all succeed, `GetConfigInfo` raises when the user name
is longer than its buffer, and otherwise returns the flags and what the buffers have room
for.

**Proof sketch.** The name is too long for the first query, or all queries find what was written;
then the login decides. -/
theorem getConfigInfo_after_set (hdec : Decrypts w w') (extension : Buffer n) (r : Option Key)
    (args : ConfigBuffers nameSize passwordSize extensionSize) (hlogin : LoginSucceeds w' a args) :
    let res := getConfigInfo w' (openKey (setConfigInfo w allWritesSucceed a extension r).1) args
    (nameSize < (stringData a.name).length → ∃ status, res = .error (.exception status)) ∧
    ((stringData a.name).length ≤ nameSize → ∃ ext, res = .ok
      ⟨(args.name.store [0]).store (stringData a.name),
        (args.password.store [0]).store (stringData a.password), ext, a.bHandleIncoming,
        a.bIncomingLocal, 1⟩) := by
  obtain ⟨encrypted, henc, hunprotect⟩ := hdec (stringData a.password)
  obtain ⟨k, hk, hf, hl, hname, hpw⟩ := setConfigInfo_values henc extension r
  simp only [hk, openKey]
  constructor
  · intro hlen
    have hq : queryValueEx k szName true nameSize =
        ⟨errorMoreData, none, (stringData a.name).length⟩ := by
      simp [queryValueEx, hname, hlen]
    have hstatus : (queryValueEx k szName true nameSize).status ≠ errorSuccess := by
      rw [hq]
      show errorMoreData ≠ errorSuccess
      decide
    exact ⟨_, getConfigInfo_error_of_name hstatus⟩
  · intro hlen
    obtain ⟨ext, hext⟩ := (getUserExtension_eq_zero_iff w'
      ((args.nameRead ⟨.sz, stringData a.name⟩).bytes ++ args.afterName)
      (((args.password.store [0]).store (stringData a.password)).bytes ++ args.afterPassword)
      (args.extension.store [0])).mpr hlogin
    refine ⟨ext, ?_⟩
    rw [getConfigInfo_of_values hname hlen hpw]
    simp only [decryptData, hunprotect, Except.bind, hext]
    rw [queryFlag_of_dword hf, queryFlag_of_dword hl]
    rfl

/-- **Reading back.** For all settings, all registries and all buffers, a `GetConfigInfo` after
a `SetConfigInfo` whose writes succeed, and whose login succeeds if it gets that far, raises, or
returns what was written, exactly when the user name as written does not fit its buffer or both
strings fit theirs with their terminators.

**Proof sketch.** Whether the call raises depends on the user name alone. If it returns, each
buffer holds what was stored into it exactly when that fits. -/
theorem getConfigInfo_readsBack_iff {w w' : Platform} (hdec : Decrypts w w') (a : Settings)
    (hname : NulFree a.name) (hpassword : NulFree a.password) (extension : Buffer n)
    (r : Option Key) (nameSize passwordSize extensionSize : UInt32)
    (args : ConfigBuffers nameSize.toNat passwordSize.toNat extensionSize.toNat)
    (hlogin : LoginSucceeds w' a args) :
    ReadsBack a
        (getConfigInfo w' (openKey (setConfigInfo w allWritesSucceed a extension r).1) args) ↔
      nameSize.toNat < (a.name.length + 1) % 2 ^ 32 ∨
        (a.name.length + 1 ≤ nameSize.toNat ∧ a.password.length + 1 ≤ passwordSize.toNat) := by
  obtain ⟨hraises, hreturns⟩ := getConfigInfo_after_set hdec extension r args hlogin
  rw [length_stringData hname] at hraises hreturns
  rcases Nat.lt_or_ge nameSize.toNat ((a.name.length + 1) % 2 ^ 32) with hlt | hge
  · exact iff_of_true (.inl (hraises hlt)) (.inl hlt)
  · obtain ⟨ext, hres⟩ := hreturns hge
    rw [hres, ← holds_store_stringData_iff nameSize.toNat_lt (args.name.store [0]) hname,
      ← holds_store_stringData_iff passwordSize.toNat_lt (args.password.store [0]) hpassword]
    constructor
    · intro h
      rcases h with ⟨status, hstatus⟩ | ⟨info, hinfo, -, -, -, hn, hp⟩
      · simp at hstatus
      · obtain rfl := Except.ok.inj hinfo
        exact .inr ⟨hn, hp⟩
    · intro h
      rcases h with hlt | ⟨hn, hp⟩
      · omega
      · exact .inr ⟨_, rfl, rfl, rfl, rfl, hn, hp⟩

end RoundTrip

/-! ## The buffers of `ConnectToServer` -/

/-- Three buffers of 255 bytes. -/
def connectBuffers : ConfigBuffers 255 255 255 where
  name := ⟨List.replicate 255 204, List.length_replicate⟩
  password := ⟨List.replicate 255 204, List.length_replicate⟩
  extension := ⟨List.replicate 255 204, List.length_replicate⟩
  afterName := []
  afterPassword := []

/-- The sample platform decrypts its own passwords. -/
theorem openPlatform_decrypts : Decrypts openPlatform openPlatform :=
  fun data => ⟨1 :: data, rfl, rfl⟩

/-- A name and a password that fit are read back. -/
theorem getConfigInfo_readsBack_bob :
    ReadsBack ⟨bytes "bob", bytes "pw", 1, 0⟩
      (getConfigInfo openPlatform (openKey (setConfigInfo openPlatform allWritesSucceed
        ⟨bytes "bob", bytes "pw", 1, 0⟩ (⟨[0], rfl⟩ : Buffer 1) none).1) connectBuffers) :=
  (getConfigInfo_readsBack_iff openPlatform_decrypts ⟨bytes "bob", bytes "pw", 1, 0⟩
    (by decide) (by decide) ⟨[0], rfl⟩ none 255 255 255 connectBuffers
    (openPlatform_logsIn _ _)).mpr (.inr (by decide))

/-- A user with a password of 255 bytes. -/
def longPassword : Settings := ⟨bytes "bob", List.replicate 255 112, 1, 0⟩

/-- A password of 255 bytes comes back in a buffer of 255 bytes without its terminator, and no
exception is raised.

**Proof sketch.** The password fills its buffer, so that what is returned does not hold it as a
string. -/
theorem getConfigInfo_loses_terminator :
    ¬ ReadsBack longPassword (getConfigInfo openPlatform (openKey (setConfigInfo openPlatform
      allWritesSucceed longPassword (⟨[0], rfl⟩ : Buffer 1) none).1) connectBuffers) := by
  have hpassword : NulFree longPassword.password := by
    intro h
    exact absurd (List.eq_of_mem_replicate h) (by decide)
  have hname : (stringData longPassword.name).length ≤ 255 := by
    rw [length_stringData (show NulFree longPassword.name by decide)]
    decide
  obtain ⟨-, hreturns⟩ := getConfigInfo_after_set (a := longPassword) openPlatform_decrypts
    (⟨[0], rfl⟩ : Buffer 1) none connectBuffers (openPlatform_logsIn _ _)
  obtain ⟨ext, hres⟩ := hreturns hname
  rw [hres]
  intro h'
  rcases h' with ⟨status, hstatus⟩ | ⟨info, hinfo, -, -, -, -, hp⟩
  · simp at hstatus
  · obtain rfl := Except.ok.inj hinfo
    have hlen := (holds_store_stringData_iff (by decide) _ hpassword).mp hp
    rw [longPassword, List.length_replicate] at hlen
    omega

end Nuacom
