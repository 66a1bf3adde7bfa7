import Nuacom.Api.Response
import Nuacom.Server.Connection

set_option relaxedAutoImplicit false
set_option autoImplicit false

/-!
# Strings returned through the buffers of the client

`MakeCall`, `GetConfigInfo` and `SetConfigInfo` return a string in a buffer whose size the client
chooses. The string comes from a response of the API, and `strncpy` copies it.

## Main definitions

* `Nuacom.ReturnsString` — a buffer comes back terminated, with the beginning of a string.
* `Nuacom.LoginExtension`, `Nuacom.ConfigExtension` — the extension number that the API gives to a
  login, and to the login of a configuration.

## Main results

* `Nuacom.getUserExtension_zero_iff` — `GetUserExtension` copies the decimal text of that number.
* `Nuacom.outStrings_returned_iff` — each procedure returns its string whenever it returns exactly
  when the string is shorter than the buffer.

## Implementation notes

The buffers are the memory that the caller of the procedure provides, of any content. A procedure
that raises an exception or ends the service returns no buffers.
-/

namespace Nuacom

open CString Rapidjson Registry

/-- The buffer comes back terminated, and holds a beginning of the string `s`. -/
def ReturnsString {n : ℕ} (b : Buffer n) (s : Bytes) : Prop := b.Terminated ∧ cStr b.bytes <+: s

/-- What `strncpy` leaves of `s` is returned exactly when `s` is shorter than the buffer. -/
theorem returnsString_strncpy_iff {n : ℕ} (b : Buffer n) (s : Bytes) :
    ReturnsString (b.strncpy (cStr s)) s ↔ (cStr s).length < n := by
  constructor
  · intro h
    exact (b.strncpy_terminated_iff (nulFree_cStr s)).mp h.1
  · intro h
    refine ⟨(b.strncpy_terminated_iff (nulFree_cStr s)).mpr h, ?_⟩
    rw [b.cStr_strncpy (nulFree_cStr s) h]
    exact cStr_prefix s

/-! ## `MakeCall` -/

/-- Whenever `MakeCall` returns, it returns the status message of `nuacom::MakeCall`. -/
def MakeCallReturnsString {n : ℕ} (s : Service) (w : Platform) (hConn : Ptr) (address : Bytes)
    (statusMessage : Buffer n) : Prop :=
  ∀ b bSuccess, s.makeCall w hConn address statusMessage = some (.ok (b, bSuccess)) →
    ∃ pcc ok status, s.heap hConn = some pcc ∧
      makeCall w.parser w.http pcc.sessionToken pcc.extension (cStr address) = .ok (ok, status) ∧
      ReturnsString b status

/-- The response to the request of `MakeCall` has no text that fills the buffer. -/
def StatusFits (s : Service) (w : Platform) (hConn : Ptr) (address : Bytes) (n : ℕ) : Prop :=
  ∀ pcc, s.heap hConn = some pcc → ∀ status,
    ReplyText w.parser (w.http (makeCallRequest pcc.sessionToken pcc.extension (cStr address)))
      (bytes "status") status → (cStr status).length < n

/-- `MakeCall` returns its status message exactly when the text is shorter than the buffer.

**Proof sketch.** The buffer is the copy of the status, and a copy is the string exactly when it is
shorter than the buffer. -/
theorem makeCallReturnsString_iff {n : ℕ} (s : Service) (w : Platform) (hConn : Ptr)
    (address : Bytes) (statusMessage : Buffer n) :
    MakeCallReturnsString s w hConn address statusMessage ↔ StatusFits s w hConn address n := by
  have hreturn : ∀ pcc ok status, s.heap hConn = some pcc →
      makeCall w.parser w.http pcc.sessionToken pcc.extension (cStr address) = .ok (ok, status) →
      s.makeCall w hConn address statusMessage =
        some (.ok (statusMessage.strncpy (cStr status), if ok then 1 else 0)) := by
    intro pcc ok status hpcc hcall
    simp [Service.makeCall, hpcc, hcall]
  constructor
  · intro h pcc hpcc status htext
    obtain ⟨ok, hcall⟩ := replyText_iff.mp htext
    obtain ⟨pcc', ok', status', hpcc', hcall', hreturns⟩ :=
      h _ _ (hreturn pcc ok status hpcc hcall)
    obtain rfl : pcc = pcc' := Option.some.inj (hpcc.symm.trans hpcc')
    have hsame : (ok, status) = (ok', status') := Except.ok.inj (hcall.symm.trans hcall')
    obtain ⟨rfl, rfl⟩ := Prod.mk.inj hsame
    exact (returnsString_strncpy_iff statusMessage status).mp hreturns
  · intro h b bSuccess hb
    obtain ⟨pcc, hpcc, hmatch⟩ := Option.map_eq_some_iff.mp hb
    rcases hcall : makeCall w.parser w.http pcc.sessionToken pcc.extension (cStr address) with
      x | ⟨ok, status⟩
    · simp [hcall] at hmatch
    · rw [hreturn pcc ok status hpcc hcall] at hb
      obtain ⟨rfl, -⟩ := Prod.mk.inj (Except.ok.inj (Option.some.inj hb))
      have hlen := h pcc hpcc status (replyText_iff.mpr ⟨ok, hcall⟩)
      exact ⟨pcc, ok, status, hpcc, hcall,
        (returnsString_strncpy_iff statusMessage status).mpr hlen⟩

/-! ## The extension of a login -/

/-- A decimal text has no zero byte. -/
theorem nulFree_ltoa (i : ℤ) : NulFree (ltoa i) := nulFree_decimal i

/-- The decimal text of a 32-bit integer has at most eleven characters.

**Proof sketch.** Ten digits and a sign. -/
theorem length_ltoa_le {i : ℤ} (hlo : -(2 ^ 31) ≤ i) (hhi : i < 2 ^ 31) :
    (ltoa i).length ≤ 11 := by
  have hrepr : ∀ n : ℕ, n < 10 ^ 10 → n.repr.toList.length ≤ 10 := by
    intro n hn
    exact (Nat.length_repr_le_iff (by decide)).mpr hn
  unfold ltoa bytes
  rw [List.length_map, Int.toString_eq_repr, Int.repr_eq_if]
  split
  · have := hrepr i.toNat (by omega)
    omega
  · have := hrepr (-i).toNat (by omega)
    rw [String.toList_append, List.length_append]
    simp only [String.reduceToList, List.length_singleton]
    omega

/-- The decimal text of a number that is shorter than the buffer is returned. -/
theorem returnsString_ltoa {n : ℕ} (b : Buffer n) {i : ℤ} (h : (ltoa i).length < n) :
    ReturnsString (b.strncpy (ltoa i)) (ltoa i) := by
  have hiff := returnsString_strncpy_iff b (ltoa i)
  rw [cStr_of_nulFree (nulFree_ltoa i)] at hiff
  exact hiff.mpr h

/-- The API logs in with this name and password, and then gives the extension number `i`. -/
def LoginExtension (w : Platform) (name password : Bytes) (i : ℤ) : Prop :=
  ∃ sessionToken,
    StringMember w.parser (w.http (getSessionTokenRequest (cStr name) (cStr password)))
      (bytes "session_token") sessionToken ∧
    IntMember w.parser (w.http (getExtensionRequest (cStr sessionToken)))
      (bytes "user_extension") i

/-- `GetUserExtension` returns zero exactly when the API gives an extension number to the login,
and then it has copied the decimal text of the number.

**Proof sketch.** By the two requests; the second one returns the decimal text of the member. -/
theorem getUserExtension_zero_iff {n : ℕ} {w : Platform} {name password : Bytes}
    {extension extension' : Buffer n} :
    getUserExtension w name password extension = .ok (0, extension') ↔
      ∃ i, LoginExtension w name password i ∧ extension' = extension.strncpy (ltoa i) := by
  constructor
  · intro h
    unfold getUserExtension at h
    split at h
    · simp at h
    · simp [eFail] at h
    · rename_i sessionToken htoken
      split at h
      · simp at h
      · simp [eFail] at h
      · rename_i userExtension hext
        obtain ⟨s, hs, rfl⟩ := stringResponse_true_iff.mp htoken
        obtain ⟨i, hi, rfl⟩ := extensionResponse_true_iff.mp hext
        obtain ⟨-, rfl⟩ := Prod.mk.inj (Except.ok.inj h)
        rw [cStr_of_nulFree (nulFree_ltoa i)]
        exact ⟨i, ⟨s, hs, hi⟩, rfl⟩
  · intro h
    obtain ⟨i, ⟨s, hs, hi⟩, rfl⟩ := h
    have htoken : getSessionToken w.parser w.http (cStr name) (cStr password) =
        .ok (true, cStr s) := stringResponse_true_iff.mpr ⟨s, hs, rfl⟩
    have hext : getExtension w.parser w.http (cStr s) [] = .ok (true, ltoa i) :=
      extensionResponse_true_iff.mpr ⟨i, hi, rfl⟩
    simp [getUserExtension, htoken, hext, cStr_of_nulFree (nulFree_ltoa i)]

/-! ## `GetConfigInfo` -/

section GetConfigInfo

variable {nameSize passwordSize extensionSize : ℕ} (w : Platform)
  (args : ConfigBuffers nameSize passwordSize extensionSize) (key : Except UInt32 Key)

/-- The key holds a name and a password, and the API gives the extension number `i` to the login
with what `GetConfigInfo` reads of them. -/
def ConfigExtension (i : ℤ) : Prop :=
  ∃ k v e data, key = .ok k ∧ k szName = some v ∧ v.data.length ≤ nameSize ∧
    k szPassword = some e ∧ w.unprotect e.data = .ok data ∧
    LoginExtension w ((args.nameRead v).bytes ++ args.afterName)
      ((args.passwordRead data).bytes ++ args.afterPassword) i

/-- Whenever `GetConfigInfo` returns, it returns the extension. -/
def GetConfigInfoReturnsString : Prop :=
  ∀ info, getConfigInfo w key args = .ok info →
    ∃ i, ConfigExtension w args key i ∧ ReturnsString info.extension (ltoa i)

variable {w args key}

/-- `GetConfigInfo` returns the copy of the extension, and returns whenever there is one.

**Proof sketch.** The reads and the decryption are determined by the registry, and what is left is
`GetUserExtension`. -/
theorem getConfigInfo_extension_iff {extension : Buffer extensionSize} :
    (∃ info, getConfigInfo w key args = .ok info ∧ info.extension = extension) ↔
      ∃ i, ConfigExtension w args key i ∧
        extension = (args.extension.store [0]).strncpy (ltoa i) := by
  constructor
  · intro h
    obtain ⟨info, hinfo, rfl⟩ := h
    obtain ⟨k, v, e, data, rfl, hv, hlen, he, hd, -⟩ := (getConfigInfo_ok_iff key).mp ⟨info, hinfo⟩
    rw [getConfigInfo_of_values hv hlen he] at hinfo
    have hdec : decryptData w e.data (args.password.store [0]) =
        .ok (args.passwordRead data) := by
      simp [decryptData, hd, ConfigBuffers.passwordRead]
    simp only [hdec, Except.bind] at hinfo
    rcases hext : getUserExtension w ((args.nameRead v).bytes ++ args.afterName)
      ((args.passwordRead data).bytes ++ args.afterPassword) (args.extension.store [0])
      with f | ⟨n, ext⟩
    · simp [hext] at hinfo
    by_cases hn : n = 0
    · simp only [hext, hn, ne_eq, not_true_eq_false, if_false] at hinfo
      obtain rfl := Except.ok.inj hinfo
      rw [hn] at hext
      obtain ⟨i, hi, hcopy⟩ := getUserExtension_zero_iff.mp hext
      exact ⟨i, ⟨k, v, e, data, rfl, hv, hlen, he, hd, hi⟩, hcopy⟩
    · simp [hext, hn] at hinfo
  · intro h
    obtain ⟨i, ⟨k, v, e, data, rfl, hv, hlen, he, hd, hi⟩, rfl⟩ := h
    have hdec : decryptData w e.data (args.password.store [0]) =
        .ok (args.passwordRead data) := by
      simp [decryptData, hd, ConfigBuffers.passwordRead]
    have hext := getUserExtension_zero_iff.mpr
      ⟨i, hi, rfl (a := (args.extension.store [0]).strncpy (ltoa i))⟩
    rw [getConfigInfo_of_values hv hlen he]
    simp only [hdec, hext, Except.bind, ne_eq, not_true_eq_false, if_false]
    exact ⟨_, rfl, rfl⟩

/-- `GetConfigInfo` returns the extension exactly when its text is shorter than the buffer.

**Proof sketch.** What is returned is the copy of the decimal text. -/
theorem getConfigInfoReturnsString_iff :
    GetConfigInfoReturnsString w args key ↔
      ∀ i, ConfigExtension w args key i → (ltoa i).length < extensionSize := by
  constructor
  · intro h i hi
    obtain ⟨info, hinfo, hcopy⟩ := getConfigInfo_extension_iff.mpr ⟨i, hi, rfl⟩
    obtain ⟨j, -, hterminated, -⟩ := h info hinfo
    rw [hcopy] at hterminated
    exact (Buffer.strncpy_terminated_iff _ (nulFree_ltoa i)).mp hterminated
  · intro h info hinfo
    obtain ⟨i, hi, hcopy⟩ := getConfigInfo_extension_iff.mp ⟨info, hinfo, rfl⟩
    refine ⟨i, hi, ?_⟩
    rw [hcopy]
    exact returnsString_ltoa _ (h i hi)

end GetConfigInfo

/-! ## `SetConfigInfo` -/

section SetConfigInfo

variable {n : ℕ} (w : Platform) (st : SetStatus) (a : Settings) (extension : Buffer n)
  (r : Option Key)

/-- Whenever `SetConfigInfo` returns, it returns the extension. -/
def SetConfigInfoReturnsString : Prop :=
  ∀ b bConfigured, (setConfigInfo w st a extension r).2 = .ok (b, bConfigured) →
    ∃ i, LoginExtension w a.name a.password i ∧ ReturnsString b (ltoa i)

variable {w a extension}

/-- `SetConfigInfo` returns the copy of the extension, and returns whenever there is one and the
password can be encrypted.

**Proof sketch.** By the encryption, and then by `GetUserExtension`. -/
theorem setConfigInfo_extension_iff {b : Buffer n} :
    (∃ bConfigured, (setConfigInfo w st a extension r).2 = .ok (b, bConfigured)) ↔
      ∃ i encrypted, w.protect (stringData a.password) = .ok encrypted ∧
        LoginExtension w a.name a.password i ∧ b = extension.strncpy (ltoa i) := by
  unfold setConfigInfo encryptData
  cases hp : w.protect (stringData a.password) with
  | error dwErr => simp
  | ok encrypted =>
    rcases hext : getUserExtension w a.name a.password extension with f | ⟨m, ext⟩
    · constructor
      · simp
      · intro h
        obtain ⟨i, _, -, hi⟩ := h
        have hnone := getUserExtension_zero_iff.mpr ⟨i, hi⟩
        simp [hext] at hnone
    · by_cases hm : m = 0
      · have hiff : getUserExtension w a.name a.password extension = .ok (0, b) ↔ _ :=
          getUserExtension_zero_iff
        simp only [hext, hm, Except.ok.injEq, Prod.mk.injEq, true_and] at hiff
        simp [hm, hiff]
      · constructor
        · simp [hm]
        · intro h
          obtain ⟨i, _, -, hi⟩ := h
          have hzero := getUserExtension_zero_iff.mpr ⟨i, hi⟩
          simp [hext, hm] at hzero

/-- `SetConfigInfo` returns the extension exactly when its text is shorter than the buffer. -/
theorem setConfigInfoReturnsString_iff :
    SetConfigInfoReturnsString w st a extension r ↔
      ∀ i encrypted, w.protect (stringData a.password) = .ok encrypted →
        LoginExtension w a.name a.password i → (ltoa i).length < n := by
  constructor
  · intro h i encrypted hp hi
    obtain ⟨c, hc⟩ := (setConfigInfo_extension_iff (b := extension.strncpy (ltoa i)) st r).mpr
      ⟨i, encrypted, hp, hi, rfl⟩
    obtain ⟨j, -, hterminated, -⟩ := h _ c hc
    exact (Buffer.strncpy_terminated_iff _ (nulFree_ltoa i)).mp hterminated
  · intro h b c hb
    obtain ⟨i, encrypted, hp, hi, rfl⟩ := (setConfigInfo_extension_iff st r).mp ⟨c, hb⟩
    refine ⟨i, hi, returnsString_ltoa extension (h i encrypted hp hi)⟩

end SetConfigInfo

/-! ## All three -/

/-- **Returned strings.** For every network, every configuration, and buffers of every size:
whenever it returns, each of `MakeCall`, `GetConfigInfo` and `SetConfigInfo` returns its buffer
terminated and with a beginning of its string, exactly when the string is shorter than the
buffer.

**Proof sketch.** Each of the three copies its string with `strncpy`, which writes no terminator
behind as many bytes as the buffer has. -/
theorem outStrings_returned_iff (w : Platform) {statusMessageSize nameSize passwordSize
    extensionSize : ℕ} (s : Service) (hConn : Ptr) (address : Bytes)
    (statusMessage : Buffer statusMessageSize)
    (args : ConfigBuffers nameSize passwordSize extensionSize) (key : Except UInt32 Key)
    (st : SetStatus) (a : Settings) (extension : Buffer extensionSize) (r : Option Key) :
    (MakeCallReturnsString s w hConn address statusMessage ↔
      StatusFits s w hConn address statusMessageSize) ∧
    (GetConfigInfoReturnsString w args key ↔
      ∀ i, ConfigExtension w args key i → (ltoa i).length < extensionSize) ∧
    (SetConfigInfoReturnsString w st a extension r ↔
      ∀ i encrypted, w.protect (stringData a.password) = .ok encrypted →
        LoginExtension w a.name a.password i → (ltoa i).length < extensionSize) :=
  ⟨makeCallReturnsString_iff s w hConn address statusMessage, getConfigInfoReturnsString_iff,
    setConfigInfoReturnsString_iff st r⟩

/-- A buffer of twelve bytes is large enough for every extension.

**Proof sketch.** The decimal text of an extension has at most eleven characters. -/
theorem extension_returned_of_le (w : Platform) {nameSize passwordSize extensionSize : ℕ}
    (hsize : 12 ≤ extensionSize) (args : ConfigBuffers nameSize passwordSize extensionSize)
    (key : Except UInt32 Key) (st : SetStatus) (a : Settings) (extension : Buffer extensionSize)
    (r : Option Key) :
    GetConfigInfoReturnsString w args key ∧ SetConfigInfoReturnsString w st a extension r := by
  have hfits : ∀ name password i, LoginExtension w name password i →
      (ltoa i).length < extensionSize := by
    intro name password i h
    obtain ⟨_, -, -, hlo, hhi⟩ := h
    have := length_ltoa_le hlo hhi
    omega
  constructor
  · refine getConfigInfoReturnsString_iff.mpr fun i h => ?_
    obtain ⟨k, v, e, data, -, -, -, -, -, hi⟩ := h
    exact hfits _ _ i hi
  · exact (setConfigInfoReturnsString_iff st r).mpr fun i _ _ hi => hfits _ _ i hi

/-- A platform whose API answers `MakeCall` with the status `ok`. -/
def statusPlatform : Platform where
  parser text := if text = bytes "\x7b\"status\":\"ok\"\x7d" then
      some (.object [(bytes "status", .string (bytes "ok"))])
    else none
  http _ := ⟨curleOk, [bytes "\x7b\"status\":\"ok\"\x7d"], []⟩
  protect data := .ok data
  unprotect encrypted := .ok encrypted

/-- A service with one context. -/
def oneContext : Service :=
  { Service.start with
    heap := fun p => if p = 1 then some (ConnectionContext.create (some tapiCurrentVersion) 2)
      else none
    fresh := 3 }

/-- The status `ok` fills a buffer of two bytes, which comes back without a terminator.

**Proof sketch.** The calls are computed, and their buffers have no zero. -/
theorem statusMessage_unterminated :
    (∃ b bSuccess, oneContext.makeCall statusPlatform 1 (bytes "100") (⟨[0, 0], rfl⟩ : Buffer 2) =
      some (.ok (b, bSuccess)) ∧ b.bytes = bytes "ok") ∧
    ¬ MakeCallReturnsString oneContext statusPlatform 1 (bytes "100") (⟨[0, 0], rfl⟩ : Buffer 2) ∧
    ¬ GetConfigInfoReturnsString openPlatform
      (⟨⟨[0], rfl⟩, ⟨[0], rfl⟩, ⟨[0], rfl⟩, [0], [0]⟩ : ConfigBuffers 1 1 1)
      (.ok fun name => if name = szName then some ⟨.sz, [0]⟩ else some ⟨.binary, [1, 0]⟩) := by
  refine ⟨⟨_, _, rfl, rfl⟩, fun h => ?_, fun h => ?_⟩
  · obtain ⟨_, _, _, -, -, hterminated, -⟩ := h _ _ rfl
    revert hterminated
    decide
  · obtain ⟨_, -, hterminated, -⟩ := h _ rfl
    revert hterminated
    decide

end Nuacom
