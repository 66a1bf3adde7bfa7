import Nuacom.Server.Config

set_option relaxedAutoImplicit false
set_option autoImplicit false

/-!
# The connections of the service

A client that connects gets a `ConnectionContext`, an object on the heap of the service whose
address is the client's handle. The context registers with the telephony API when it is created
and is the receiver of the callbacks of its websocket, if it has one. One global flag says
whether the service is connected.

## Main definitions

* `Nuacom.ConnectionContext`, `Nuacom.Service` — a context, and the state of the service.
* `Nuacom.Service.newContext`, `deleteContext`, `connectToWebsocket`, `closeWebsocketAsync` —
  what the procedures do to the state.
* `Nuacom.Service.connectToServer`, `makeCall`, `hangup`, `disconnect`, `getConnectionStatus` —
  the procedures.
* `Nuacom.Service.Valid` — what the procedures keep true of the heap, the registrations and the
  websockets.

## Main results

* `Nuacom.Service.connectToServer_cases` — the ways in which `ConnectToServer` can end.
* `Nuacom.Service.Valid.connectToServer`, `Nuacom.Service.Valid.disconnect` — the procedures
  keep the state valid.

## Implementation notes

Addresses and handles are numbers drawn from one counter, and none is used twice; the number 0
is `NULL`. What the system and the network answer to a `ConnectToServer` is part of its
description. An access to memory that holds no context ends the service, which is `none`.
-/

namespace Nuacom

open CString Registry

/-- Addresses of contexts; 0 is `NULL`. -/
abbrev Ptr := ℕ

/-- Handles that `ConnectToWebsocket` gives. -/
abbrev SocketHandle := ℕ

/-- Handles that `lineInitializeEx` gives. -/
abbrev AppHandle := ℕ

/-- `TAPI_CURRENT_VERSION` -/
def tapiCurrentVersion : UInt32 := 0x00020002

/-- `RPC_S_CALL_FAILED` -/
def rpcSCallFailed : UInt32 := 1726

/-- `ConnectionContext`; a handle that is `none` is `NULL`. -/
structure ConnectionContext where
  sessionToken : Bytes
  extension : Bytes
  socketHandle : Option SocketHandle
  hCallback : UInt64
  providerId : UInt32
  bInited : Bool
  appHandle : Option AppHandle
  apiVersion : UInt32

/-- The state of the service. -/
structure Service where
  /-- The contexts that are allocated and not deleted. -/
  heap : Ptr → Option ConnectionContext
  /-- The registrations by `lineInitializeEx` that are not shut down. -/
  lineApps : AppHandle → Bool
  /-- The `ICallbacks` pointer of each websocket that is open and not handed to
  `CloseWebsocketAsync`. -/
  sockets : SocketHandle → Option Ptr
  /-- `g_bConnected` -/
  bConnected : Bool
  /-- The next address or handle. -/
  fresh : ℕ

/-- The service when it starts. -/
def Service.start : Service where
  heap _ := none
  lineApps _ := false
  sockets _ := none
  bConnected := false
  fresh := 1

/-- What `lineInitializeEx` answers: the negotiated version, or nothing when it fails. -/
abbrev LineInit := Option UInt32

/-- The constructor of `ConnectionContext`; `app` is the handle that `lineInitializeEx` gives
when it succeeds. -/
def ConnectionContext.create (lineInit : LineInit) (app : AppHandle) : ConnectionContext where
  sessionToken := []
  extension := []
  socketHandle := none
  hCallback := 0
  providerId := 0
  bInited := lineInit.isSome
  appHandle := lineInit.map fun _ => app
  apiVersion := lineInit.getD tapiCurrentVersion

/-- The registrations once the one with handle `app` is made or shut down. -/
def setApp (lineApps : AppHandle → Bool) (app : Option AppHandle) (b : Bool) :
    AppHandle → Bool :=
  match app with
  | none => lineApps
  | some h => Function.update lineApps h b

/-- Only the registration of the handle changes. -/
theorem setApp_apply (lineApps : AppHandle → Bool) (app : Option AppHandle) (b : Bool)
    (h : AppHandle) : setApp lineApps app b h = if app = some h then b else lineApps h := by
  unfold setApp
  cases app with
  | none => simp
  | some k =>
    by_cases hk : k = h
    · subst hk
      simp
    · have hne : h ≠ k := fun e => hk e.symm
      simp [Function.update_of_ne hne, hk]

namespace Service

/-- Store the content of a new context, with the registration its constructor has made. -/
def allocate (s : Service) (pcc : ConnectionContext) : Service :=
  { s with
    heap := Function.update s.heap s.fresh (some pcc)
    lineApps := setApp s.lineApps pcc.appHandle true
    fresh := s.fresh + 2 }

/-- `new ConnectionContext()`, at the address `s.fresh`. -/
def newContext (s : Service) (lineInit : LineInit) : Service :=
  s.allocate (.create lineInit (s.fresh + 1))

/-- Change the context at `p`. -/
def modify (s : Service) (p : Ptr) (f : ConnectionContext → ConnectionContext) : Service :=
  { s with heap := Function.update s.heap p ((s.heap p).map f) }

/-- `delete pcc`: the destructor shuts the registration of the context down. -/
def deleteContext (s : Service) (p : Ptr) : Service :=
  match s.heap p with
  | none => s
  | some pcc =>
    { s with
      heap := Function.update s.heap p none
      lineApps := if pcc.bInited then setApp s.lineApps pcc.appHandle false else s.lineApps }

/-- `ConnectToWebsocket` with the callbacks pointer `p`, into the `socketHandle` of `p`. -/
def connectToWebsocket (s : Service) (p : Ptr) : Service :=
  { s.modify p fun pcc => { pcc with socketHandle := some s.fresh } with
    sockets := Function.update s.sockets s.fresh (some p)
    fresh := s.fresh + 1 }

/-- `CloseWebsocketAsync`; with `NULL` its thread returns at once. -/
def closeWebsocketAsync (s : Service) (socketHandle : Option SocketHandle) : Service :=
  match socketHandle with
  | none => s
  | some h => { s with sockets := Function.update s.sockets h none }

end Service

/-- A call of `ConnectToServer`: its arguments, the memory of its three local buffers, and what
the system and the network answer. -/
structure ConnectCall where
  hCallback : UInt64
  providerId : UInt32
  connectToWS : Bool
  lineInit : LineInit
  platform : Platform
  /-- `RegOpenKeyEx` -/
  key : Except UInt32 Key
  buffers : ConfigBuffers 255 255 255
  /-- The memory behind the buffer `extension`. -/
  afterExtension : Bytes
  /-- The network when the session token for the context is asked for. -/
  http : Network

namespace Service

/-- `ConnectToServer`: the state afterwards, and the handle or how the call ended. -/
def connectToServer (s : Service) (a : ConnectCall) : Service × Except Fault Ptr :=
  let pcc := s.fresh
  let s := s.newContext a.lineInit
  let s := s.modify pcc fun c => { c with hCallback := a.hCallback, providerId := a.providerId }
  match getConfigInfo a.platform a.key a.buffers with
  | .error f => (s, .error f)
  | .ok info =>
    if info.bConfigured = 0 then (s, .error (.exception rpcSCallFailed)) else
    match getSessionToken a.platform.parser a.http (cStr (info.name.bytes ++ a.buffers.afterName))
      (cStr (info.password.bytes ++ a.buffers.afterPassword)) with
    | .error x => (s, .error (.abort x))
    | .ok (b, sessionToken) =>
      let s := s.modify pcc fun c => { c with sessionToken := sessionToken }
      if b = false then (s.deleteContext pcc, .error (.exception rpcSCallFailed)) else
      let s := s.modify pcc fun c =>
        { c with extension := cStr (info.extension.bytes ++ a.afterExtension) }
      let s := if a.connectToWS then { s.connectToWebsocket pcc with bConnected := true } else s
      (s, .ok pcc)

/-- `MakeCall`: the buffer `statusMessage` and `*bSuccess`. -/
def makeCall {n : ℕ} (s : Service) (w : Platform) (hConn : Ptr) (address : Bytes)
    (statusMessage : Buffer n) : Option (Except Fault (Buffer n × UInt32)) :=
  (s.heap hConn).map fun pcc =>
    match Nuacom.makeCall w.parser w.http pcc.sessionToken pcc.extension (cStr address) with
    | .error x => .error (.abort x)
    | .ok (b, status) => .ok (statusMessage.strncpy (cStr status), if b then 1 else 0)

/-- `Hangup`: what `EndCall` answers is only printed. -/
def hangup (s : Service) (w : Platform) (hConn : Ptr) (localChannel : Bytes) : Option Reply :=
  (s.heap hConn).map fun pcc => endCall w.http pcc.sessionToken (cStr localChannel)

/-- `Disconnect`; the handle it is given becomes `NULL`. -/
def disconnect (s : Service) (hConn : Ptr) : Option Service :=
  (s.heap hConn).map fun pcc =>
    { (s.closeWebsocketAsync pcc.socketHandle).deleteContext hConn with bConnected := false }

/-- `GetConnectionStatus` -/
def getConnectionStatus (s : Service) : Bool := s.bConnected

/-! ## What the procedures do -/

/-- The registration of a new context is the one its constructor has made. -/
def Registered (pcc : ConnectionContext) (lineInit : LineInit) (app : AppHandle) : Prop :=
  pcc.bInited = lineInit.isSome ∧ pcc.appHandle = lineInit.map fun _ => app

/-- Changing a context that was just stored is storing the changed one, as long as its
registration stays. -/
theorem modify_allocate (s : Service) (pcc : ConnectionContext)
    (f : ConnectionContext → ConnectionContext) (hf : (f pcc).appHandle = pcc.appHandle) :
    (s.allocate pcc).modify s.fresh f = s.allocate (f pcc) := by
  simp [modify, allocate, hf]

/-- The state after a `ConnectToServer` that returned: the new context `pcc`, with a websocket or
without. -/
def connected (s : Service) (pcc : ConnectionContext) (ws : Bool) : Service :=
  if ws then { (s.allocate pcc).connectToWebsocket s.fresh with bConnected := true }
  else s.allocate pcc

/-- **How `ConnectToServer` can end.** It has stored a context without websocket at a new
address, and either raises and leaves it, or deletes it and raises, or returns the address, with
or without opening a websocket for it. It raises and leaves the context exactly when
`GetConfigInfo` does not return; behind that, the login for the context decides.

**Proof sketch.** By the outcome of `GetConfigInfo` and then of the login. The assignments to fields
of the new context are ones of the value that is stored. -/
theorem connectToServer_cases (s : Service) (a : ConnectCall) :
    ∃ pcc : ConnectionContext, pcc.socketHandle = none ∧
      Registered pcc a.lineInit (s.fresh + 1) ∧
      ((¬ ConfigReadable a.platform a.buffers a.key ∧
          ∃ f, s.connectToServer a = (s.allocate pcc, .error f)) ∨
        (ConfigReadable a.platform a.buffers a.key ∧ ∃ name password,
          ((∃ x, getSessionToken a.platform.parser a.http name password = .error x ∧
              s.connectToServer a = (s.allocate pcc, .error (.abort x))) ∨
            (∃ m, getSessionToken a.platform.parser a.http name password = .ok (false, m) ∧
              s.connectToServer a =
                ((s.allocate pcc).deleteContext s.fresh, .error (.exception rpcSCallFailed))) ∨
            (∃ t, getSessionToken a.platform.parser a.http name password = .ok (true, t) ∧
              s.connectToServer a = (s.connected pcc a.connectToWS, .ok s.fresh))))) := by
  set create := ConnectionContext.create a.lineInit (s.fresh + 1) with hcreate
  have hnew : (s.newContext a.lineInit).modify s.fresh
      (fun c => { c with hCallback := a.hCallback, providerId := a.providerId }) =
      s.allocate { create with hCallback := a.hCallback, providerId := a.providerId } :=
    modify_allocate s create _ rfl
  by_cases hread : ConfigReadable a.platform a.buffers a.key
  · obtain ⟨info, hinfo⟩ := (getConfigInfo_ok_iff a.key).mpr hread
    have hc : ¬ info.bConfigured = 0 := by
      rw [getConfigInfo_bConfigured hinfo]
      decide
    rcases hlogin : getSessionToken a.platform.parser a.http
      (cStr (info.name.bytes ++ a.buffers.afterName))
      (cStr (info.password.bytes ++ a.buffers.afterPassword)) with x | ⟨b, token⟩
    · refine ⟨{ create with hCallback := a.hCallback, providerId := a.providerId }, rfl,
        ⟨rfl, rfl⟩, .inr ⟨hread, _, _, .inl ⟨x, hlogin, ?_⟩⟩⟩
      simp only [connectToServer, hinfo, hnew, hc, if_false, hlogin]
    cases b with
    | false =>
      refine ⟨{ create with
        hCallback := a.hCallback, providerId := a.providerId, sessionToken := token }, rfl,
        ⟨rfl, rfl⟩, .inr ⟨hread, _, _, .inr (.inl ⟨token, hlogin, ?_⟩)⟩⟩
      simp only [connectToServer, hinfo, hnew, hc, if_false, hlogin, if_true]
      rw [modify_allocate _ _ _ rfl]
    | true =>
      refine ⟨{ create with
        hCallback := a.hCallback, providerId := a.providerId, sessionToken := token,
        extension := cStr (info.extension.bytes ++ a.afterExtension) }, rfl,
        ⟨rfl, rfl⟩, .inr ⟨hread, _, _, .inr (.inr ⟨token, hlogin, ?_⟩)⟩⟩
      simp only [connectToServer, hinfo, hnew, hc, if_false, hlogin, Bool.true_eq_false]
      rw [modify_allocate _ _ _ rfl, modify_allocate _ _ _ rfl]
      rfl
  · cases hinfo : getConfigInfo a.platform a.key a.buffers with
    | ok info => exact absurd ((getConfigInfo_ok_iff a.key).mp ⟨info, hinfo⟩) hread
    | error f =>
      refine ⟨{ create with hCallback := a.hCallback, providerId := a.providerId }, rfl,
        ⟨rfl, rfl⟩, .inl ⟨hread, f, ?_⟩⟩
      simp only [connectToServer, hinfo, hnew]

/-! ## Fields after each operation -/

section Fields

variable (s : Service) (p : Ptr) (pcc : ConnectionContext) (h : Option SocketHandle)

/-- A new context is at the next address. -/
@[simp] theorem heap_allocate :
    (s.allocate pcc).heap = Function.update s.heap s.fresh (some pcc) := rfl

/-- A context that is deleted is gone; the others stay. -/
@[simp] theorem heap_deleteContext :
    (s.deleteContext p).heap = Function.update s.heap p none := by
  unfold deleteContext
  cases hp : s.heap p with
  | none => simp [← hp]
  | some pcc => rfl

/-- Deleting a context leaves the websockets as they are. -/
@[simp] theorem sockets_deleteContext : (s.deleteContext p).sockets = s.sockets := by
  unfold deleteContext
  split <;> rfl

/-- Deleting a context leaves the flag as it is. -/
@[simp] theorem bConnected_deleteContext : (s.deleteContext p).bConnected = s.bConnected := by
  unfold deleteContext
  split <;> rfl

/-- Deleting a context gives no address free. -/
@[simp] theorem fresh_deleteContext : (s.deleteContext p).fresh = s.fresh := by
  unfold deleteContext
  split <;> rfl

/-- Closing a websocket leaves the contexts as they are. -/
@[simp] theorem heap_closeWebsocketAsync : (s.closeWebsocketAsync h).heap = s.heap := by
  unfold closeWebsocketAsync
  split <;> rfl

/-- Closing a websocket leaves the registrations as they are. -/
@[simp] theorem lineApps_closeWebsocketAsync :
    (s.closeWebsocketAsync h).lineApps = s.lineApps := by
  unfold closeWebsocketAsync
  split <;> rfl

/-- Closing a websocket gives no address free. -/
@[simp] theorem fresh_closeWebsocketAsync : (s.closeWebsocketAsync h).fresh = s.fresh := by
  unfold closeWebsocketAsync
  split <;> rfl

end Fields

/-- The websockets that are open after a close are those that were, without the one closed. -/
theorem sockets_closeWebsocketAsync_eq_some_iff (s : Service) (h : Option SocketHandle)
    (k : SocketHandle) (q : Ptr) : (s.closeWebsocketAsync h).sockets k = some q ↔
      s.sockets k = some q ∧ h ≠ some k := by
  unfold closeWebsocketAsync
  cases h with
  | none => simp
  | some h =>
    by_cases hk : k = h
    · subst hk
      simp
    · have hne : h ≠ k := fun e => hk e.symm
      simp [Function.update_of_ne hk, hne]

/-! ## Valid states -/

/-- What the procedures keep true: addresses and handles are below the counter; an open
websocket calls back the context that has its handle; and the registrations are those of the
contexts on the heap, each its own. -/
structure Valid (s : Service) : Prop where
  fresh_pos : 0 < s.fresh
  heap_lt : ∀ (p : ℕ) pcc, s.heap p = some pcc → 0 < p ∧ p < s.fresh
  socket_lt : ∀ p pcc (h : ℕ), s.heap p = some pcc → pcc.socketHandle = some h → h < s.fresh
  socket_owner : ∀ p q pcc h, s.heap p = some pcc → pcc.socketHandle = some h →
    s.sockets h = some q → q = p
  app_lt : ∀ p pcc (h : ℕ), s.heap p = some pcc → pcc.appHandle = some h → h < s.fresh
  app_unique : ∀ p q pcc qcc (h : ℕ), s.heap p = some pcc → s.heap q = some qcc →
    pcc.appHandle = some h → qcc.appHandle = some h → p = q
  inited : ∀ p pcc, s.heap p = some pcc → pcc.bInited = pcc.appHandle.isSome
  lineApps : ∀ h, s.lineApps h = true ↔ ∃ p pcc, s.heap p = some pcc ∧ pcc.appHandle = some h

/-- At the start there is no context, no websocket and no registration. -/
theorem Valid.start : Valid .start where
  fresh_pos := Nat.one_pos
  heap_lt _ _ h := by simp [Service.start] at h
  socket_lt _ _ _ h := by simp [Service.start] at h
  socket_owner _ _ _ _ h := by simp [Service.start] at h
  app_lt _ _ _ h := by simp [Service.start] at h
  app_unique _ _ _ _ _ h := by simp [Service.start] at h
  inited _ _ h := by simp [Service.start] at h
  lineApps _ := by simp [Service.start]

/-- The address that is drawn next holds no context. -/
theorem Valid.heap_fresh {s : Service} (hs : Valid s) : s.heap s.fresh = none := by
  cases h : s.heap s.fresh with
  | none => rfl
  | some pcc => exact absurd (hs.heap_lt _ _ h).2 (lt_irrefl _)

/-- A context on the heap has another address than the one that is drawn next. -/
theorem Valid.ne_fresh {s : Service} (hs : Valid s) {q : Ptr} {qcc : ConnectionContext}
    (hq : s.heap q = some qcc) : q ≠ s.fresh := by
  intro heq
  rw [heq, hs.heap_fresh] at hq
  simp at hq

/-- An allocation leaves the contexts that are there. -/
theorem Valid.heap_allocate_of_some {s : Service} (hs : Valid s) {q : Ptr}
    {qcc : ConnectionContext} (hq : s.heap q = some qcc) (pcc : ConnectionContext) :
    (s.allocate pcc).heap q = some qcc := by
  rw [heap_allocate, Function.update_of_ne (hs.ne_fresh hq), hq]

/-- A context on the heap after an allocation is the new one or was there. -/
theorem heap_allocate_eq_some {s : Service} {pcc qcc : ConnectionContext} {q : Ptr}
    (h : (s.allocate pcc).heap q = some qcc) :
    (q = s.fresh ∧ qcc = pcc) ∨ (q ≠ s.fresh ∧ s.heap q = some qcc) := by
  rw [heap_allocate] at h
  by_cases hq : q = s.fresh
  · rw [hq, Function.update_self] at h
    exact .inl ⟨hq, (Option.some.inj h).symm⟩
  · rw [Function.update_of_ne hq] at h
    exact .inr ⟨hq, h⟩

/-- A context on the heap after a deletion is another one that was there. -/
theorem heap_deleteContext_eq_some {s : Service} {p q : Ptr} {qcc : ConnectionContext}
    (h : (s.deleteContext p).heap q = some qcc) : q ≠ p ∧ s.heap q = some qcc := by
  rw [heap_deleteContext] at h
  by_cases hq : q = p
  · rw [hq, Function.update_self] at h
    simp at h
  · rw [Function.update_of_ne hq] at h
    exact ⟨hq, h⟩

/-- The registrations after an allocation are those of the contexts on the heap.

**Proof sketch.** The registration of the new context is added, when it has one. -/
theorem Valid.lineApps_allocate {s : Service} (hs : Valid s) (pcc : ConnectionContext)
    (h : AppHandle) : (s.allocate pcc).lineApps h = true ↔
      ∃ q qcc, (s.allocate pcc).heap q = some qcc ∧ qcc.appHandle = some h := by
  have happs : (s.allocate pcc).lineApps h = true ↔
      pcc.appHandle = some h ∨ s.lineApps h = true := by
    show setApp s.lineApps pcc.appHandle true h = true ↔ _
    rw [setApp_apply]
    split_ifs with ha <;> simp [ha]
  rw [happs, hs.lineApps h]
  constructor
  · intro h'
    rcases h' with hp | ⟨q, qcc, hq, hqh⟩
    · exact ⟨s.fresh, pcc, by simp, hp⟩
    · exact ⟨q, qcc, hs.heap_allocate_of_some hq pcc, hqh⟩
  · intro h'
    obtain ⟨q, qcc, hq, hqh⟩ := h'
    rcases heap_allocate_eq_some hq with ⟨-, rfl⟩ | ⟨-, hq⟩
    · exact .inl hqh
    · exact .inr ⟨q, qcc, hq, hqh⟩

/-- **A new context** keeps the state valid.

**Proof sketch.** The address and the registration of the new context are new, and it has no
websocket. -/
theorem Valid.allocate {s : Service} (hs : Valid s) {pcc : ConnectionContext}
    (hsocket : pcc.socketHandle = none) {lineInit : LineInit}
    (hreg : Registered pcc lineInit (s.fresh + 1)) : Valid (s.allocate pcc) := by
  have hfresh : (s.allocate pcc).fresh = s.fresh + 2 := rfl
  have happ : ∀ h : ℕ, pcc.appHandle = some h → h = s.fresh + 1 := by
    intro h hh
    rw [hreg.2] at hh
    obtain ⟨v, -, hv⟩ := Option.map_eq_some_iff.mp hh
    exact hv.symm
  refine ⟨by rw [hfresh]; omega, ?_, ?_, ?_, ?_, ?_, ?_, ?_⟩
  · intro q qcc hq
    rw [hfresh]
    have hpos := hs.fresh_pos
    rcases heap_allocate_eq_some hq with ⟨rfl, -⟩ | ⟨-, hq⟩
    · omega
    · have := hs.heap_lt q qcc hq
      omega
  · intro q qcc h hq hh
    rw [hfresh]
    rcases heap_allocate_eq_some hq with ⟨-, rfl⟩ | ⟨-, hq⟩
    · rw [hsocket] at hh
      simp at hh
    · have := hs.socket_lt q qcc h hq hh
      omega
  · intro q r qcc h hq hh hr
    rcases heap_allocate_eq_some hq with ⟨-, rfl⟩ | ⟨-, hq⟩
    · rw [hsocket] at hh
      simp at hh
    · exact hs.socket_owner q r qcc h hq hh hr
  · intro q qcc h hq hh
    rw [hfresh]
    rcases heap_allocate_eq_some hq with ⟨-, rfl⟩ | ⟨-, hq⟩
    · have := happ h hh
      omega
    · have := hs.app_lt q qcc h hq hh
      omega
  · intro q r qcc rcc h hq hr hqh hrh
    rcases heap_allocate_eq_some hq with ⟨hqf, hqc⟩ | ⟨-, hq⟩
    · rw [hqc] at hqh
      have h1 := happ h hqh
      rcases heap_allocate_eq_some hr with ⟨hrf, -⟩ | ⟨-, hr⟩
      · rw [hqf, hrf]
      · have h2 := hs.app_lt r rcc h hr hrh
        omega
    · have h2 := hs.app_lt q qcc h hq hqh
      rcases heap_allocate_eq_some hr with ⟨-, hrc⟩ | ⟨-, hr⟩
      · rw [hrc] at hrh
        have h1 := happ h hrh
        omega
      · exact hs.app_unique q r qcc rcc h hq hr hqh hrh
  · intro q qcc hq
    rcases heap_allocate_eq_some hq with ⟨-, rfl⟩ | ⟨-, hq⟩
    · rw [hreg.1, hreg.2]
      simp
    · exact hs.inited q qcc hq
  · exact hs.lineApps_allocate pcc

/-- The registrations after a deletion are those of the contexts that are left: no two contexts
have had the same.

**Proof sketch.** The registration of the deleted context is removed, and no other context has the
same. -/
theorem Valid.lineApps_deleteContext {s : Service} (hs : Valid s) (p : Ptr) (h : AppHandle) :
    (s.deleteContext p).lineApps h = true ↔
      ∃ q qcc, (s.deleteContext p).heap q = some qcc ∧ qcc.appHandle = some h := by
  cases hp : s.heap p with
  | none =>
    have hsame : s.deleteContext p = s := by simp [Service.deleteContext, hp]
    rw [hsame]
    exact hs.lineApps h
  | some pcc =>
    have happs : (s.deleteContext p).lineApps h = true ↔
        s.lineApps h = true ∧ pcc.appHandle ≠ some h := by
      have hset : (s.deleteContext p).lineApps = setApp s.lineApps pcc.appHandle false := by
        have hi := hs.inited p pcc hp
        simp only [Service.deleteContext, hp]
        cases ha : pcc.appHandle with
        | none => simp [hi, ha, setApp]
        | some k => simp [hi, ha]
      rw [hset, setApp_apply]
      split_ifs with ha <;> simp [ha]
    rw [happs, hs.lineApps h]
    constructor
    · intro h'
      obtain ⟨⟨q, qcc, hq, hqh⟩, hne⟩ := h'
      have hqp : q ≠ p := by
        rintro rfl
        rw [hp] at hq
        obtain rfl := Option.some.inj hq
        exact hne hqh
      exact ⟨q, qcc, by rw [heap_deleteContext, Function.update_of_ne hqp, hq], hqh⟩
    · intro h'
      obtain ⟨q, qcc, hq, hqh⟩ := h'
      obtain ⟨hne, hq⟩ := heap_deleteContext_eq_some hq
      exact ⟨⟨q, qcc, hq, hqh⟩, fun hph => hne (hs.app_unique q p qcc pcc h hq hp hqh hph)⟩

/-- **Deleting a context** keeps the state valid.

**Proof sketch.** The contexts that are left were there before. -/
theorem Valid.deleteContext {s : Service} (hs : Valid s) (p : Ptr) :
    Valid (s.deleteContext p) := by
  refine ⟨by simpa using hs.fresh_pos, ?_, ?_, ?_, ?_, ?_, ?_, ?_⟩
  · intro q qcc hq
    rw [fresh_deleteContext]
    exact hs.heap_lt q qcc (heap_deleteContext_eq_some hq).2
  · intro q qcc h hq hh
    rw [fresh_deleteContext]
    exact hs.socket_lt q qcc h (heap_deleteContext_eq_some hq).2 hh
  · intro q r qcc h hq hh hr
    rw [sockets_deleteContext] at hr
    exact hs.socket_owner q r qcc h (heap_deleteContext_eq_some hq).2 hh hr
  · intro q qcc h hq hh
    rw [fresh_deleteContext]
    exact hs.app_lt q qcc h (heap_deleteContext_eq_some hq).2 hh
  · intro q r qcc rcc h hq hr
    exact hs.app_unique q r qcc rcc h (heap_deleteContext_eq_some hq).2
      (heap_deleteContext_eq_some hr).2
  · intro q qcc hq
    exact hs.inited q qcc (heap_deleteContext_eq_some hq).2
  · exact hs.lineApps_deleteContext p

/-- A context on the heap after `ConnectToWebsocket` is the one that got a websocket, or another
one that was there. -/
theorem heap_connectToWebsocket_eq_some {s : Service} {p q : Ptr} {qcc : ConnectionContext}
    (h : (s.connectToWebsocket p).heap q = some qcc) :
    (q = p ∧ ∃ pcc, s.heap p = some pcc ∧ qcc = { pcc with socketHandle := some s.fresh }) ∨
      (q ≠ p ∧ s.heap q = some qcc) := by
  simp only [connectToWebsocket, modify] at h
  by_cases hq : q = p
  · rw [hq, Function.update_self] at h
    obtain ⟨pcc, hp, rfl⟩ := Option.map_eq_some_iff.mp h
    exact .inl ⟨hq, pcc, hp, rfl⟩
  · rw [Function.update_of_ne hq] at h
    exact .inr ⟨hq, h⟩

/-- **A new websocket** keeps the state valid.

**Proof sketch.** Its handle is new, so it belongs to the one context that now has it, and the
websockets of the others are untouched; registrations stay as they are. -/
theorem Valid.connectToWebsocket {s : Service} (hs : Valid s) (p : Ptr) :
    Valid (s.connectToWebsocket p) := by
  have hfresh : (s.connectToWebsocket p).fresh = s.fresh + 1 := rfl
  have hsockets : (s.connectToWebsocket p).sockets =
      Function.update s.sockets s.fresh (some p) := rfl
  have hold : ∀ q qcc, (s.connectToWebsocket p).heap q = some qcc → ∃ old,
      s.heap q = some old ∧ qcc.appHandle = old.appHandle ∧ qcc.bInited = old.bInited := by
    intro q qcc hq
    rcases heap_connectToWebsocket_eq_some hq with ⟨rfl, pcc, hp, rfl⟩ | ⟨-, hq⟩
    · exact ⟨pcc, hp, rfl, rfl⟩
    · exact ⟨qcc, hq, rfl, rfl⟩
  refine ⟨by rw [hfresh]; omega, ?_, ?_, ?_, ?_, ?_, ?_, ?_⟩
  · intro q qcc hq
    obtain ⟨old, hq, -⟩ := hold q qcc hq
    have := hs.heap_lt q old hq
    rw [hfresh]
    omega
  · intro q qcc h hq hh
    rw [hfresh]
    rcases heap_connectToWebsocket_eq_some hq with ⟨-, pcc, -, rfl⟩ | ⟨-, hq⟩
    · obtain rfl := Option.some.inj hh
      omega
    · have := hs.socket_lt q qcc h hq hh
      omega
  · intro q r qcc h hq hh hr
    rw [hsockets] at hr
    rcases heap_connectToWebsocket_eq_some hq with ⟨rfl, pcc, -, rfl⟩ | ⟨-, hq⟩
    · obtain rfl := Option.some.inj hh
      rw [Function.update_self] at hr
      exact (Option.some.inj hr).symm
    · have hne : h ≠ s.fresh := ne_of_lt (hs.socket_lt q qcc h hq hh)
      rw [Function.update_of_ne hne] at hr
      exact hs.socket_owner q r qcc h hq hh hr
  · intro q qcc h hq hh
    obtain ⟨old, hq, happ, -⟩ := hold q qcc hq
    have := hs.app_lt q old h hq (happ ▸ hh)
    rw [hfresh]
    omega
  · intro q r qcc rcc h hq hr hqh hrh
    obtain ⟨oldq, hq, happq, -⟩ := hold q qcc hq
    obtain ⟨oldr, hr, happr, -⟩ := hold r rcc hr
    exact hs.app_unique q r oldq oldr h hq hr (happq ▸ hqh) (happr ▸ hrh)
  · intro q qcc hq
    obtain ⟨old, hq, happ, hinit⟩ := hold q qcc hq
    rw [happ, hinit]
    exact hs.inited q old hq
  · intro h
    show s.lineApps h = true ↔ _
    rw [hs.lineApps h]
    constructor
    · intro h'
      obtain ⟨q, qcc, hq, hqh⟩ := h'
      by_cases hqp : q = p
      · subst hqp
        exact ⟨q, { qcc with socketHandle := some s.fresh },
          by simp [Service.connectToWebsocket, modify, hq], hqh⟩
      · exact ⟨q, qcc, by simp [Service.connectToWebsocket, modify, hqp, hq], hqh⟩
    · intro h'
      obtain ⟨q, qcc, hq, hqh⟩ := h'
      obtain ⟨old, hq, happ, -⟩ := hold q qcc hq
      exact ⟨q, old, hq, happ ▸ hqh⟩

/-- **Closing a websocket** keeps the state valid.

**Proof sketch.** Only websockets change, and they become fewer. -/
theorem Valid.closeWebsocketAsync {s : Service} (hs : Valid s) (h : Option SocketHandle) :
    Valid (s.closeWebsocketAsync h) := by
  refine ⟨?_, ?_, ?_, ?_, ?_, ?_, ?_, ?_⟩
  · rw [fresh_closeWebsocketAsync]
    exact hs.fresh_pos
  · rw [fresh_closeWebsocketAsync, heap_closeWebsocketAsync]
    exact hs.heap_lt
  · rw [fresh_closeWebsocketAsync, heap_closeWebsocketAsync]
    exact hs.socket_lt
  · intro p q pcc k hp hk hq
    rw [heap_closeWebsocketAsync] at hp
    rw [sockets_closeWebsocketAsync_eq_some_iff] at hq
    exact hs.socket_owner p q pcc k hp hk hq.1
  · rw [fresh_closeWebsocketAsync, heap_closeWebsocketAsync]
    exact hs.app_lt
  · rw [heap_closeWebsocketAsync]
    exact hs.app_unique
  · rw [heap_closeWebsocketAsync]
    exact hs.inited
  · rw [heap_closeWebsocketAsync, lineApps_closeWebsocketAsync]
    exact hs.lineApps

/-- The flag has no part in validity. -/
theorem Valid.setConnected {s : Service} (hs : Valid s) (b : Bool) :
    Valid { s with bConnected := b } :=
  ⟨hs.fresh_pos, hs.heap_lt, hs.socket_lt, hs.socket_owner, hs.app_lt, hs.app_unique,
    hs.inited, hs.lineApps⟩

/-- A context with or without websocket is a valid one. -/
theorem Valid.connected {s : Service} (hs : Valid s) {pcc : ConnectionContext}
    (hsocket : pcc.socketHandle = none) {lineInit : LineInit}
    (hreg : Registered pcc lineInit (s.fresh + 1)) (ws : Bool) : Valid (s.connected pcc ws) := by
  have hnew : Valid (s.allocate pcc) := hs.allocate hsocket hreg
  unfold Service.connected
  split_ifs
  · exact (hnew.connectToWebsocket _).setConnected true
  · exact hnew

/-- The new context is on the heap, and the others are where they were. -/
theorem heap_connected (s : Service) (pcc : ConnectionContext) (ws : Bool) :
    ((s.connected pcc ws).heap s.fresh).isSome = true ∧
      ∀ q, q ≠ s.fresh → (s.connected pcc ws).heap q = s.heap q := by
  unfold Service.connected
  split_ifs
  · refine ⟨by simp [Service.connectToWebsocket, modify], fun q hq => ?_⟩
    simp [Service.connectToWebsocket, modify, hq]
  · exact ⟨by simp, fun q hq => by simp [hq]⟩

/-- `ConnectToServer` keeps the state valid, however it ends. -/
theorem Valid.connectToServer {s : Service} (hs : Valid s) (a : ConnectCall) :
    Valid (s.connectToServer a).1 := by
  obtain ⟨pcc, hsocket, hreg, hcases⟩ := connectToServer_cases s a
  have hnew : Valid (s.allocate pcc) := hs.allocate hsocket hreg
  rcases hcases with ⟨-, f, h⟩ | ⟨-, name, password, ⟨x, -, h⟩ | ⟨m, -, h⟩ | ⟨t, -, h⟩⟩
  · rw [h]
    exact hnew
  · rw [h]
    exact hnew
  · rw [h]
    exact hnew.deleteContext _
  · rw [h]
    exact hs.connected hsocket hreg a.connectToWS

/-- After `Disconnect` the context is gone, and the others are where they were. -/
theorem heap_disconnect {s s' : Service} {p : Ptr} (h : s.disconnect p = some s') :
    s'.heap = Function.update s.heap p none := by
  obtain ⟨pcc, -, rfl⟩ := Option.map_eq_some_iff.mp h
  simp

/-- `Disconnect` on a context keeps the state valid. -/
theorem Valid.disconnect {s s' : Service} (hs : Valid s) {p : Ptr}
    (h : s.disconnect p = some s') : Valid s' := by
  obtain ⟨pcc, -, rfl⟩ := Option.map_eq_some_iff.mp h
  exact ((hs.closeWebsocketAsync _).deleteContext _).setConnected false

end Service

end Nuacom
