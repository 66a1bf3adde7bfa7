import Nuacom.Api.Client
import Nuacom.Support.Registry

set_option relaxedAutoImplicit false
set_option autoImplicit false

/-!
# The configuration of the service

`SetConfigInfo` writes four values below one registry key, the password encrypted, and then
logs in with them; `GetConfigInfo` reads them into buffers of its caller and logs in with what
it read. Neither holds a lock, so the reads of one call of `GetConfigInfo` are described by the
content of the key at the moment of each of them.

## Main definitions

* `Nuacom.Platform` — what the service gets from the system and from the network.
* `Nuacom.decryptData`, `encryptData`, `getUserExtension` — the helpers.
* `Nuacom.readStrings`, `getConfigInfoAt`, `getConfigInfo` — `GetConfigInfo`, with a key that
  may change between its reads and with one that does not.
* `Nuacom.setConfigInfo` — `SetConfigInfo`.
* `Nuacom.LogsIn`, `Nuacom.ConfigReadable` — a login that succeeds, and a registry that
  `GetConfigInfo` can read and log in with.

## Main results

* `Nuacom.getUserExtension_eq_zero_iff` — when `GetUserExtension` succeeds.
* `Nuacom.getConfigInfo_of_values` — what `GetConfigInfo` does behind its reads.
* `Nuacom.getConfigInfo_ok_iff` — when `GetConfigInfo` returns.

## Implementation notes

The strings that a caller passes are read up to their first zero byte. A buffer that is read as
a C string is followed by some other memory of the caller, which the read runs into when the
buffer holds no zero byte. The ciphertext has a length that fits 32 bits, since
`CryptProtectData` gives it in a `DWORD`; the length of the plaintext is truncated to 32 bits.
-/

namespace Nuacom

open CString Rapidjson Registry

/-! ## The environment of a call -/

/-- How a call ends that does not return. -/
inductive Fault
  /-- `RpcRaiseException` -/
  | exception (status : UInt32)
  /-- An assertion failed, which ends the service. -/
  | abort (assertion : Assertion)
  deriving DecidableEq, Repr

/-- What a call gets from the system and from the network; an error of `CryptProtectData` or
`CryptUnprotectData` is the code that `GetLastError` gives for it. -/
structure Platform where
  parser : Parser
  http : Network
  /-- `CryptProtectData` -/
  protect : Bytes → Except UInt32 Bytes
  /-- `CryptUnprotectData` -/
  unprotect : Bytes → Except UInt32 Bytes

/-- `CryptUnprotectData` inverts `CryptProtectData`. -/
def Platform.Inverts (w : Platform) : Prop :=
  ∀ data encrypted, w.protect data = .ok encrypted → w.unprotect encrypted = .ok data

def szIncomingFlag : String := "HandleIncomingCalls"

def szIncomingLocalFlag : String := "IncomingCallsLocal"

def szName : String := "username"

def szPassword : String := "passwordEncrypted"

/-- `E_FAIL` -/
def eFail : UInt32 := 0x80004005

/-! ## Helpers -/

/-- A string with its terminator, as many bytes of it as `strlen + 1` counts in 32 bits. -/
def stringData (s : Bytes) : Bytes :=
  (cStr s ++ [0]).take (((cStr s).length + 1) % 2 ^ 32)

/-- `DecryptData` -/
def decryptData {n : ℕ} (w : Platform) (input : Bytes) (output : Buffer n) :
    Except Fault (Buffer n) :=
  match w.unprotect input with
  | .error dwErr => .error (.exception dwErr)
  | .ok data => .ok (output.store data)

/-- `EncryptData` -/
def encryptData (w : Platform) (data : Bytes) : Except Fault Bytes :=
  match w.protect (stringData data) with
  | .error dwErr => .error (.exception dwErr)
  | .ok encryptedData => .ok encryptedData

/-- `GetUserExtension`: the return value, and the buffer `extension` afterwards. -/
def getUserExtension {n : ℕ} (w : Platform) (name password : Bytes) (extension : Buffer n) :
    Except Fault (UInt32 × Buffer n) :=
  match getSessionToken w.parser w.http (cStr name) (cStr password) with
  | .error a => .error (.abort a)
  | .ok (false, _) => .ok (eFail, extension)
  | .ok (true, sessionToken) =>
    match getExtension w.parser w.http sessionToken [] with
    | .error a => .error (.abort a)
    | .ok (false, _) => .ok (eFail, extension)
    | .ok (true, userExtension) => .ok (0, extension.strncpy (cStr userExtension))

/-! ## `GetConfigInfo` -/

/-- The buffers that a caller of `GetConfigInfo` passes, and the memory behind the two of them
that are read as C strings. -/
structure ConfigBuffers (nameSize passwordSize extensionSize : ℕ) where
  name : Buffer nameSize
  password : Buffer passwordSize
  extension : Buffer extensionSize
  /-- The memory behind `name`. -/
  afterName : Bytes
  /-- The memory behind `password`. -/
  afterPassword : Bytes

/-- What `GetConfigInfo` returns. -/
structure ConfigInfo (nameSize passwordSize extensionSize : ℕ) where
  name : Buffer nameSize
  password : Buffer passwordSize
  extension : Buffer extensionSize
  bHandleIncoming : UInt32
  bIncomingLocal : UInt32
  bConfigured : UInt32

/-- The reads of `GetConfigInfo`, in their order. -/
inductive ConfigRead
  | incomingFlag
  | incomingLocalFlag
  | name
  | passwordSize
  | password
  deriving DecidableEq, Repr

/-- Read a flag into a variable that was `FALSE` before; a failing read leaves it. -/
def queryFlag (k : Key) (name : String) : UInt32 :=
  match (queryValueEx k name true 4).copied with
  | none => ofDwordBytes (dwordBytes 0)
  | some data => ofDwordBytes (data ++ (dwordBytes 0).drop data.length)

/-- The buffer `name` after its read. -/
def storeCopied {n : ℕ} (b : Buffer n) (q : QueryResult) : Buffer n :=
  match q.copied with
  | none => b
  | some data => b.store data

/-- The vector `d1` of `size` bytes after the read into it. -/
def vectorCopied (size : ℕ) (q : QueryResult) : Bytes :=
  match q.copied with
  | none => List.replicate size 0
  | some data => data ++ (List.replicate size 0).drop data.length

variable {nameSize passwordSize extensionSize : ℕ}

/-- The reads of the user name and the password, which is decrypted. -/
def readStrings (w : Platform) (k : ConfigRead → Key)
    (args : ConfigBuffers nameSize passwordSize extensionSize) :
    Except Fault (Buffer nameSize × Buffer passwordSize) := do
  let q := queryValueEx (k .name) szName true nameSize
  if q.status ≠ errorSuccess then throw (.exception q.status)
  let name := storeCopied (args.name.store [0]) q
  let q := queryValueEx (k .passwordSize) szPassword false q.size
  if q.status ≠ errorSuccess then throw (.exception q.status)
  let dataSize := q.size
  -- the data pointer of an empty vector is NULL, and the query is then one for the size
  let q := queryValueEx (k .password) szPassword (dataSize != 0) dataSize
  if q.status ≠ errorSuccess then throw (.exception q.status)
  let password ← decryptData w (vectorCopied dataSize q) (args.password.store [0])
  return (name, password)

/-- `GetConfigInfo` behind the opening of the key, whose content at each read is `k`. -/
def getConfigInfoAt (w : Platform) (k : ConfigRead → Key)
    (args : ConfigBuffers nameSize passwordSize extensionSize) :
    Except Fault (ConfigInfo nameSize passwordSize extensionSize) := do
  let bHandleIncoming := queryFlag (k .incomingFlag) szIncomingFlag
  let bIncomingLocal := queryFlag (k .incomingLocalFlag) szIncomingLocalFlag
  let (name, password) ← readStrings w k args
  let (n, extension) ← getUserExtension w (name.bytes ++ args.afterName)
    (password.bytes ++ args.afterPassword) (args.extension.store [0])
  if n ≠ 0 then throw (.exception n)
  return ⟨name, password, extension, bHandleIncoming, bIncomingLocal, 1⟩

/-- `GetConfigInfo`, with the outcome of `RegOpenKeyEx`: its error code, or the content of the
key during the call. -/
def getConfigInfo (w : Platform) (key : Except UInt32 Key)
    (args : ConfigBuffers nameSize passwordSize extensionSize) :
    Except Fault (ConfigInfo nameSize passwordSize extensionSize) :=
  match key with
  | .error n => .error (.exception n)
  | .ok k => getConfigInfoAt w (fun _ => k) args

/-! ## `SetConfigInfo` -/

/-- The status codes that the system answers to the registry calls of `SetConfigInfo`. -/
structure SetStatus where
  /-- `RegCreateKeyEx` -/
  create : UInt32
  incomingLocalFlag : UInt32
  incomingFlag : UInt32
  name : UInt32
  password : UInt32

/-- Every registry call succeeds. -/
def allWritesSucceed : SetStatus := ⟨errorSuccess, errorSuccess, errorSuccess, errorSuccess,
  errorSuccess⟩

/-- The handle that `RegCreateKeyEx` gives is valid. -/
def SetStatus.isOpen (st : SetStatus) : Bool := st.create == errorSuccess

/-- The arguments of `SetConfigInfo` that it writes. -/
structure Settings where
  name : Bytes
  password : Bytes
  bHandleIncoming : UInt32
  bIncomingLocal : UInt32

/-- `RegCreateKeyEx`: an existing key is opened, a missing one created. -/
def createKey (st : SetStatus) (r : Option Key) : Option Key :=
  if st.isOpen then some (r.getD fun _ => none) else r

/-- The three writes before the password is encrypted. -/
def setPlainValues (st : SetStatus) (a : Settings) (r : Option Key) : Option Key :=
  let r := (setValueEx st.isOpen st.incomingLocalFlag szIncomingLocalFlag
    ⟨.dword, dwordBytes a.bIncomingLocal⟩ r).1
  let r := (setValueEx st.isOpen st.incomingFlag szIncomingFlag
    ⟨.dword, dwordBytes a.bHandleIncoming⟩ r).1
  (setValueEx st.isOpen st.name szName ⟨.sz, stringData a.name⟩ r).1

/-- `SetConfigInfo`: the registry afterwards, and the buffer `extension` with `*bConfigured`
or how the call ended. The status codes of the writes are overwritten unread. -/
def setConfigInfo {n : ℕ} (w : Platform) (st : SetStatus) (a : Settings)
    (extension : Buffer n) (r : Option Key) : Option Key × Except Fault (Buffer n × UInt32) :=
  let r := setPlainValues st a (createKey st r)
  match encryptData w a.password with
  | .error f => (r, .error f)
  | .ok passwordEncrypted =>
    let r := (setValueEx st.isOpen st.password szPassword ⟨.binary, passwordEncrypted⟩ r).1
    match getUserExtension w a.name a.password extension with
    | .error f => (r, .error f)
    | .ok (n, extension) =>
      if n ≠ 0 then (r, .error (.exception n)) else (r, .ok (extension, 1))

/-! ## When a login succeeds -/

/-- `GetSessionToken` and `GetExtension` both return true for this name and password. -/
def LogsIn (w : Platform) (name password : Bytes) : Prop :=
  ∃ sessionToken extension,
    getSessionToken w.parser w.http (cStr name) (cStr password) = .ok (true, sessionToken) ∧
    getExtension w.parser w.http sessionToken [] = .ok (true, extension)

/-- `GetUserExtension` returns zero exactly when the login succeeds.

**Proof sketch.** By the outcome of the two requests. -/
theorem getUserExtension_eq_zero_iff {n : ℕ} (w : Platform) (name password : Bytes)
    (extension : Buffer n) :
    (∃ extension', getUserExtension w name password extension = .ok (0, extension')) ↔
      LogsIn w name password := by
  unfold LogsIn
  rcases ht : getSessionToken w.parser w.http (cStr name) (cStr password) with a | ⟨b, token⟩
  · simp [getUserExtension, ht]
  cases b with
  | false => simp [getUserExtension, ht, eFail]
  | true =>
    rcases he : getExtension w.parser w.http token [] with a | ⟨b, ext⟩
    · simp [getUserExtension, ht, he]
    cases b with
    | false => simp [getUserExtension, ht, he, eFail]
    | true => simp [getUserExtension, ht, he]

/-- `GetUserExtension` raises no exception of its own. -/
theorem getUserExtension_error {n : ℕ} {w : Platform} {name password : Bytes}
    {extension : Buffer n} {f : Fault} (h : getUserExtension w name password extension = .error f) :
    ∃ a, f = .abort a := by
  unfold getUserExtension at h
  split at h
  · exact ⟨_, (Except.error.inj h).symm⟩
  · simp at h
  · split at h
    · exact ⟨_, (Except.error.inj h).symm⟩
    · simp at h
    · simp at h

/-! ## When `GetConfigInfo` returns -/

section GetConfigInfo

variable (w : Platform) (args : ConfigBuffers nameSize passwordSize extensionSize)

/-- The buffer `name` once the value `v` is read into it. -/
def ConfigBuffers.nameRead (v : Registry.Value) : Buffer nameSize :=
  (args.name.store [0]).store v.data

/-- The buffer `password` once the password `data` is decrypted into it. -/
def ConfigBuffers.passwordRead (data : Bytes) : Buffer passwordSize :=
  (args.password.store [0]).store data

/-- The registry can be read, the password decrypted, and the login with what was read
succeeds. -/
def ConfigReadable (key : Except UInt32 Key) : Prop :=
  ∃ k v e data, key = .ok k ∧ k szName = some v ∧ v.data.length ≤ nameSize ∧
    k szPassword = some e ∧ w.unprotect e.data = .ok data ∧
    LogsIn w ((args.nameRead v).bytes ++ args.afterName)
      ((args.passwordRead data).bytes ++ args.afterPassword)

variable {w args} {k : Key} {v e : Registry.Value} {data : Bytes}

/-- The vector `d1` receives the whole value whose size it was given. -/
private theorem queryValueEx_vector {name : String} (he : k name = some e) :
    (queryValueEx k name (e.data.length != 0) e.data.length).status = errorSuccess ∧
      vectorCopied e.data.length (queryValueEx k name (e.data.length != 0) e.data.length) =
        e.data := by
  by_cases hz : e.data.length = 0
  · have hnil : e.data = [] := List.eq_nil_of_length_eq_zero hz
    rw [hz, show ((0 : ℕ) != 0) = false from rfl, queryValueEx_size he]
    exact ⟨rfl, by simp [vectorCopied, hnil]⟩
  · have hne : (e.data.length != 0) = true := by simpa using hz
    rw [hne, queryValueEx_of_le he le_rfl]
    exact ⟨rfl, by simp [vectorCopied]⟩

/-- `GetConfigInfo` raises the status of a query for the name that fails. -/
theorem getConfigInfo_error_of_name
    (h : (queryValueEx k szName true nameSize).status ≠ errorSuccess) :
    getConfigInfo w (.ok k) args =
      .error (.exception (queryValueEx k szName true nameSize).status) := by
  simp [getConfigInfo, getConfigInfoAt, readStrings, h, throw, throwThe, MonadExceptOf.throw, bind,
    Except.bind]

/-- Without a password `GetConfigInfo` raises, after the name was read. -/
private theorem getConfigInfo_error_of_password (hv : k szName = some v)
    (hlen : v.data.length ≤ nameSize) (he : k szPassword = none) :
    getConfigInfo w (.ok k) args = .error (.exception errorFileNotFound) := by
  have hq : ∀ size, queryValueEx k szPassword false size = ⟨errorFileNotFound, none, size⟩ := by
    simp [queryValueEx, he]
  simp [getConfigInfo, getConfigInfoAt, readStrings, queryValueEx_of_le hv hlen, hq,
    errorFileNotFound, errorSuccess, throw, throwThe, MonadExceptOf.throw, bind, Except.bind]

/-- Behind its reads of the registry `GetConfigInfo` decrypts the password and logs in.

**Proof sketch.** Both queries succeed, so the reads end with the stored data. -/
theorem getConfigInfo_of_values (hv : k szName = some v) (hlen : v.data.length ≤ nameSize)
    (he : k szPassword = some e) :
    getConfigInfo w (.ok k) args = (decryptData w e.data (args.password.store [0])).bind
      fun password => (getUserExtension w ((args.nameRead v).bytes ++ args.afterName)
        (password.bytes ++ args.afterPassword) (args.extension.store [0])).bind
          fun r => if r.1 ≠ 0 then .error (.exception r.1) else
            .ok ⟨args.nameRead v, password, r.2, queryFlag k szIncomingFlag,
              queryFlag k szIncomingLocalFlag, 1⟩ := by
  obtain ⟨hstatus, hvector⟩ := queryValueEx_vector he
  simp only [getConfigInfo, getConfigInfoAt, readStrings, queryValueEx_of_le hv hlen,
    queryValueEx_size he, hstatus, hvector, storeCopied, bind, pure, throw, throwThe, MonadExceptOf.throw]
  simp only [ne_eq, not_true_eq_false, if_false, Except.bind, Except.pure,
    ConfigBuffers.nameRead]
  cases decryptData w e.data (args.password.store [0]) <;> rfl

/-- **When `GetConfigInfo` returns.** It returns exactly when the registry can be read, the
password decrypted, and the login with what was read succeeds.

**Proof sketch.** Every failing read raises its status. With both strings read, what is left is
to decrypt and to log in, and `GetUserExtension` returns zero exactly when the login
succeeds. -/
theorem getConfigInfo_ok_iff (key : Except UInt32 Key) :
    (∃ info, getConfigInfo w key args = .ok info) ↔ ConfigReadable w args key := by
  rcases key with n | k
  · simp [getConfigInfo, ConfigReadable]
  by_cases hs : (queryValueEx k szName true nameSize).status = errorSuccess
  · obtain ⟨v, hv, hlen⟩ := (queryValueEx_success_iff k szName nameSize).mp hs
    cases he : k szPassword with
    | none =>
      rw [getConfigInfo_error_of_password hv hlen he]
      constructor
      · intro h
        obtain ⟨info, hinfo⟩ := h
        simp at hinfo
      · intro h
        obtain ⟨k', v', e, data, hk, -, -, he', -⟩ := h
        obtain rfl : k = k' := by simpa using hk
        rw [he] at he'
        simp at he'
    | some e =>
      rw [getConfigInfo_of_values hv hlen he]
      have hiff : ConfigReadable w args (.ok k) ↔ ∃ data, w.unprotect e.data = .ok data ∧
          LogsIn w ((args.nameRead v).bytes ++ args.afterName)
            ((args.passwordRead data).bytes ++ args.afterPassword) := by
        constructor
        · intro h
          obtain ⟨k', v', e', data, hk, hv', -, he', hd, hl⟩ := h
          obtain rfl : k = k' := by simpa using hk
          obtain rfl : v = v' := by simpa [hv] using hv'
          obtain rfl : e = e' := by simpa [he] using he'
          exact ⟨data, hd, hl⟩
        · intro h
          obtain ⟨data, hd, hl⟩ := h
          exact ⟨k, v, e, data, rfl, hv, hlen, he, hd, hl⟩
      rw [hiff]
      cases hd : w.unprotect e.data with
      | error x => simp [decryptData, hd, Except.bind]
      | ok data =>
        have hdec : decryptData w e.data (args.password.store [0]) =
            .ok (args.passwordRead data) := by
          simp [decryptData, hd, ConfigBuffers.passwordRead]
        simp only [hdec, Except.bind, Except.ok.injEq, exists_eq_left']
        rw [← getUserExtension_eq_zero_iff w _ _ (args.extension.store [0])]
        rcases getUserExtension w ((args.nameRead v).bytes ++ args.afterName)
          ((args.passwordRead data).bytes ++ args.afterPassword) (args.extension.store [0])
          with f | ⟨n, ext⟩
        · simp
        · by_cases hn : n = 0 <;> simp [hn]
  · rw [getConfigInfo_error_of_name hs]
    constructor
    · intro h
      obtain ⟨info, hinfo⟩ := h
      simp at hinfo
    · intro h
      obtain ⟨k', v, e, data, hk, hv, hlen, -⟩ := h
      obtain rfl : k = k' := by simpa using hk
      exact absurd ((queryValueEx_success_iff k szName nameSize).mpr ⟨v, hv, hlen⟩) hs

/-- `GetConfigInfo` sets `*bConfigured` whenever it returns.

**Proof sketch.** By the outcome of each step; only the last one returns. -/
theorem getConfigInfo_bConfigured {key : Except UInt32 Key}
    {info : ConfigInfo nameSize passwordSize extensionSize}
    (h : getConfigInfo w key args = .ok info) : info.bConfigured = 1 := by
  rcases key with n | k
  · simp [getConfigInfo] at h
  simp only [getConfigInfo, getConfigInfoAt, bind, Except.bind] at h
  rcases hread : readStrings w (fun _ => k) args with f | ⟨name, password⟩
  · simp [hread] at h
  simp only [hread] at h
  rcases hlogin : getUserExtension w (name.bytes ++ args.afterName)
    (password.bytes ++ args.afterPassword) (args.extension.store [0]) with f | ⟨n, ext⟩
  · simp [hlogin] at h
  by_cases hn : n = 0
  · simp only [hlogin, hn, ne_eq, not_true_eq_false, if_false, pure, Except.pure] at h
    obtain rfl := Except.ok.inj h
    rfl
  · simp [hlogin, hn, throw, throwThe, MonadExceptOf.throw] at h

end GetConfigInfo

/-! ## A platform on which every login succeeds -/

/-- A response with a session token and an extension. -/
def loginBody : Bytes := bytes "\x7b\"session_token\":\"t\",\"user_extension\":7\x7d"

/-- Every request gets that response, and the encryption puts one byte before the data. -/
def openPlatform : Platform where
  parser text := if text = loginBody then
      some (.object [(bytes "session_token", .string (bytes "t")), (bytes "user_extension", .int 7)])
    else none
  http _ := ⟨curleOk, [loginBody], []⟩
  protect data := .ok (1 :: data)
  unprotect encrypted :=
    match encrypted with
    | 1 :: data => .ok data
    | _ => .error 13

/-- The sample platform decrypts what it encrypts. -/
theorem openPlatform_inverts : openPlatform.Inverts := by
  intro data encrypted h
  obtain rfl : 1 :: data = encrypted := by simpa [openPlatform] using h
  rfl

/-- Every request to the sample platform is answered with a token and an extension. -/
private theorem openPlatform_document (req : Request) :
    document openPlatform.parser (openPlatform.http req) = .object
      [(bytes "session_token", .string (bytes "t")), (bytes "user_extension", .int 7)] := by
  have htext : cStr (openPlatform.http req).result = loginBody := by
    show cStr (Exchange.result ⟨curleOk, [loginBody], []⟩) = loginBody
    decide
  rw [document, htext]
  rfl

/-- Everyone gets a session token from the sample platform. -/
theorem openPlatform_getSessionToken (name password : Bytes) :
    getSessionToken openPlatform.parser openPlatform.http name password =
      .ok (true, bytes "t") := by
  simp only [getSessionToken, stringResponse, openPlatform_document]
  rfl

/-- Everyone can log in to the sample platform. -/
theorem openPlatform_logsIn (name password : Bytes) : LogsIn openPlatform name password := by
  refine ⟨bytes "t", bytes "7", openPlatform_getSessionToken _ _, ?_⟩
  simp only [getExtension, extensionResponse, openPlatform_document]
  rfl

end Nuacom
