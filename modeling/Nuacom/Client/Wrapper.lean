import Nuacom.Server.Lifetime

set_option relaxedAutoImplicit false
set_option autoImplicit false

/-!
# The client wrapper

A client talks to the service through a `CRPCWrapper`, which keeps the binding and the context
handle `m_hConn`. Its methods make one RPC each and return the status of it. The constructor
sets the two members for the binding; `m_hConn` holds what its memory held, until the first
`ConnectToServer` that succeeds assigns it.

## Main definitions

* `Nuacom.RpcServer.admit` — what the runtime does with a context handle parameter.
* `Nuacom.CRPCWrapper` and its methods — the wrapper.
* `Nuacom.ClientState`, `Nuacom.ClientState.next` — one wrapper and the service, and the steps of
  the wrapper.
* `Nuacom.KnowsContext` — `m_hConn` is the one context of the wrapper, or `NULL` if there is none.

## Main results

* `Nuacom.ClientState.next_cases` — what a step does to the handle and to the contexts.
* `Nuacom.tracksContext_iff` — the wrapper knows its context throughout a run exactly when the
  memory of `m_hConn` held `NULL` and no `ConnectToServer` succeeds while `m_hConn` is not `NULL`.

## Implementation notes

An RPC that the runtime does not deliver has no effect on the service. A procedure that accesses
memory that holds no context faults, which ends the call in an exception; one that ends the
service by a failed assertion is no step.
-/

namespace Nuacom

open CString Transition

/-! ## The RPC runtime -/

/-- What `RpcBindingFromStringBinding` gives. -/
abbrev BindingHandle := ℕ

/-- `RPC_S_OK` -/
def rpcSOk : UInt32 := 0

/-- `RPC_S_INVALID_BINDING` -/
def rpcSInvalidBinding : UInt32 := 1702

/-- `RPC_X_SS_IN_NULL_CONTEXT` -/
def rpcXSsInNullContext : UInt32 := 1775

/-- `RPC_X_SS_CONTEXT_MISMATCH` -/
def rpcXSsContextMismatch : UInt32 := 6

/-- `EXCEPTION_ACCESS_VIOLATION` -/
def exceptionAccessViolation : UInt32 := 0xC0000005

/-- The functions of the runtime that `Init` calls: what they give, or their status. -/
structure BindingApi where
  stringBindingCompose (pszProtocolSequence pszEndpoint : Bytes) : Except UInt32 Bytes
  bindingFromStringBinding (pszStringBinding : Bytes) : Except UInt32 BindingHandle
  mgmtIsServerListening (binding : BindingHandle) : UInt32

/-- Whether the runtime delivers an RPC, or else the exception in which it ends. -/
abbrev Transport := Except UInt32 Unit

/-- The directions that the interface declares for a context handle parameter. -/
inductive Direction
  /-- `[in]` -/
  | inOnly
  /-- `[in, out]` -/
  | inOut
  deriving DecidableEq, Repr

/-- The handle that the procedure gets, or the exception: `NULL` passes only where the parameter
is also an output, and any other handle only when it is issued to the client. -/
def RpcServer.admit (s : RpcServer) (c : ClientId) (d : Direction) (hConn : Ptr) :
    Except UInt32 Ptr :=
  if hConn = 0 then
    match d with
    | .inOnly => .error rpcXSsInNullContext
    | .inOut => .ok hConn
  else if s.issued hConn = some c then .ok hConn
  else .error rpcXSsContextMismatch

/-! ## The wrapper -/

/-- `CRPCWrapper`; what is `none` is `NULL`. -/
structure CRPCWrapper where
  pszStringBinding : Option Bytes
  binding : Option BindingHandle
  hConn : Ptr

namespace CRPCWrapper

/-- The constructor; `hConn` is what the memory of `m_hConn` holds. -/
def create (hConn : Ptr) : CRPCWrapper where
  pszStringBinding := none
  binding := none
  hConn := hConn

/-- `Init`: the wrapper afterwards, and the status. -/
def init (w : CRPCWrapper) (api : BindingApi) (pszProtocolSequence pszEndpoint : Bytes) :
    CRPCWrapper × UInt32 :=
  match api.stringBindingCompose pszProtocolSequence pszEndpoint with
  | .error status => (w, status)
  | .ok pszStringBinding =>
    let w := { w with pszStringBinding := some pszStringBinding }
    match api.bindingFromStringBinding pszStringBinding with
    | .error status => (w, status)
    | .ok binding => ({ w with binding := some binding }, api.mgmtIsServerListening binding)

section Calls

variable (w : CRPCWrapper) (s : RpcServer) (c : ClientId) (transport : Transport)

/-- Whether an RPC on `m_binding` gets to the service. -/
def deliver : Transport :=
  match w.binding with
  | none => .error rpcSInvalidBinding
  | some _ => transport

/-- The handle on which the procedure runs that is called with `m_hConn`, or the exception. -/
def dispatch (d : Direction) : Except UInt32 Ptr :=
  match w.deliver transport with
  | .error status => .error status
  | .ok _ => s.admit c d w.hConn

/-- `ConnectToServer`: the service and the wrapper afterwards, and the status. -/
def connectToServer (a : ConnectCall) : Option (RpcServer × CRPCWrapper × UInt32) :=
  match w.deliver transport with
  | .error status => some (s, w, status)
  | .ok _ =>
    match s.svc.connectToServer a with
    | (svc, .ok hConn) =>
      some ({ svc := svc, issued := Function.update s.issued hConn (some c) },
        { w with hConn := hConn }, rpcSOk)
    | (svc, .error (.exception status)) => some ({ s with svc := svc }, w, status)
    | (_, .error (.abort _)) => none

/-- `MakeCall`: the status, and the outputs if it is `RPC_S_OK`. -/
def makeCall {n : ℕ} (platform : Platform) (address : Bytes) (statusMessage : Buffer n) :
    Option (UInt32 × Option (Buffer n × UInt32)) :=
  match w.dispatch s c transport .inOnly with
  | .error status => some (status, none)
  | .ok hConn =>
    match s.svc.makeCall platform hConn address statusMessage with
    | none => some (exceptionAccessViolation, none)
    | some (.error (.exception status)) => some (status, none)
    | some (.error (.abort _)) => none
    | some (.ok out) => some (rpcSOk, some out)

/-- `Hangup`: the status. -/
def hangup (platform : Platform) (localChannel : Bytes) : UInt32 :=
  match w.dispatch s c transport .inOnly with
  | .error status => status
  | .ok hConn =>
    match s.svc.hangup platform hConn localChannel with
    | none => exceptionAccessViolation
    | some _ => rpcSOk

/-- `Disconnect`: the service and the wrapper afterwards, and the status. -/
def disconnect : RpcServer × CRPCWrapper × UInt32 :=
  match w.dispatch s c transport .inOut with
  | .error status => (s, w, status)
  | .ok hConn =>
    match s.release hConn with
    | none => (s, w, exceptionAccessViolation)
    | some s' => (s', { w with hConn := 0 }, rpcSOk)

/-- `GetConnectionStatus`: `*bConnected`, or the status. -/
def getConnectionStatus : Except UInt32 Bool :=
  match w.deliver transport with
  | .error status => .error status
  | .ok _ => .ok s.svc.getConnectionStatus

end Calls

end CRPCWrapper

/-- A call of a method of the wrapper: its arguments, and what the runtime, the system and the
network answer. -/
inductive WrapperCall
  | init (api : BindingApi) (pszProtocolSequence pszEndpoint : Bytes)
  | connectToServer (transport : Transport) (a : ConnectCall)
  | makeCall {n : ℕ} (transport : Transport) (platform : Platform) (address : Bytes)
      (statusMessage : Buffer n)
  | hangup (transport : Transport) (platform : Platform) (localChannel : Bytes)
  | disconnect (transport : Transport)
  | getConnectionStatus (transport : Transport)

/-- A wrapper and the service. -/
structure ClientState where
  rpc : RpcServer
  wrapper : CRPCWrapper

namespace ClientState

/-- The steps of the wrapper of client `c`. -/
def next (c : ClientId) (s : ClientState) : WrapperCall → Option ClientState
  | .init api pszProtocolSequence pszEndpoint =>
    some { s with wrapper := (s.wrapper.init api pszProtocolSequence pszEndpoint).1 }
  | .connectToServer transport a =>
    (s.wrapper.connectToServer s.rpc c transport a).map fun r => ⟨r.1, r.2.1⟩
  | .makeCall transport platform address statusMessage =>
    (s.wrapper.makeCall s.rpc c transport platform address statusMessage).map fun _ => s
  | .hangup _ _ _ => some s
  | .disconnect transport =>
    let r := s.wrapper.disconnect s.rpc c transport
    some ⟨r.1, r.2.1⟩
  | .getConnectionStatus _ => some s

end ClientState

/-! ## Calls that succeed -/

/-- The `ConnectToServer` reads a configuration and logs in with it. -/
def ConnectCall.LogsIn (a : ConnectCall) : Prop :=
  ∃ info token, getConfigInfo a.platform a.key a.buffers = .ok info ∧
    getSessionToken a.platform.parser a.http (cStr (info.name.bytes ++ a.buffers.afterName))
      (cStr (info.password.bytes ++ a.buffers.afterPassword)) = .ok (true, token)

/-- The procedure returns exactly when it logs in.

**Proof sketch.** By the outcome of `GetConfigInfo` and then of the login. -/
theorem connectToServer_ok_iff (s : Service) (a : ConnectCall) :
    (∃ svc hConn, s.connectToServer a = (svc, .ok hConn)) ↔ a.LogsIn := by
  unfold Service.connectToServer ConnectCall.LogsIn
  cases hinfo : getConfigInfo a.platform a.key a.buffers with
  | error f => simp
  | ok info =>
    have hc : ¬ info.bConfigured = 0 := by
      rw [getConfigInfo_bConfigured hinfo]
      decide
    rcases hlogin : getSessionToken a.platform.parser a.http
      (cStr (info.name.bytes ++ a.buffers.afterName))
      (cStr (info.password.bytes ++ a.buffers.afterPassword)) with x | ⟨b, token⟩
    · simp [hc, hlogin]
    · cases b with
      | false => simp [hc, hlogin]
      | true => simp [hc, hlogin]

/-- The sample call logs in. -/
theorem logsIn_openCall (ws : Bool) : (openCall ws).LogsIn := by
  rw [← connectToServer_ok_iff Service.start]
  obtain ⟨pcc, h⟩ := next_openCall .start 0 ws
  simp only [RpcServer.next, RpcServer.connect] at h
  split at h
  · rename_i svc hConn heq
    exact ⟨svc, hConn, heq⟩
  · obtain ⟨-, hissued⟩ := RpcServer.mk.inj (Option.some.inj h)
    have := congrFun hissued 1
    simp [RpcServer.start, Service.start] at this
  · simp at h

/-- The handle that the procedure returns is the address of the new context. -/
theorem connectToServer_ok {s svc : Service} {a : ConnectCall} {hConn : Ptr}
    (h : s.connectToServer a = (svc, .ok hConn)) : hConn = s.fresh := by
  obtain ⟨pcc, -, -, hcases⟩ := Service.connectToServer_cases s a
  rcases hcases with ⟨-, f, hf⟩ | ⟨-, _, _, ⟨x, -, hx⟩ | ⟨m, -, hm⟩ | ⟨t, -, ht⟩⟩
  · simp [hf] at h
  · simp [hx] at h
  · simp [hm] at h
  · rw [ht] at h
    exact (Except.ok.inj (Prod.mk.inj h).2).symm

section Connect

variable {w : CRPCWrapper} {s : RpcServer} {c : ClientId} {transport : Transport} {a : ConnectCall}

/-- A `ConnectToServer` that gets to the service and logs in assigns the new context. -/
theorem connectToServer_of_logsIn (hd : w.deliver transport = .ok ()) (ha : a.LogsIn) :
    ∃ svc : Service,
      w.connectToServer s c transport a = some
        ({ svc := svc, issued := Function.update s.issued s.svc.fresh (some c) },
          { w with hConn := s.svc.fresh }, rpcSOk) ∧
      s.connect c a = some
        { svc := svc, issued := Function.update s.issued s.svc.fresh (some c) } := by
  obtain ⟨svc, hConn, hsvc⟩ := (connectToServer_ok_iff s.svc a).mpr ha
  obtain rfl := connectToServer_ok hsvc
  refine ⟨svc, ?_, ?_⟩
  · simp only [CRPCWrapper.connectToServer, hd, hsvc]
  · simp only [RpcServer.connect, hsvc]

/-- One that gets to the service and does not log in assigns nothing. -/
theorem connectToServer_of_not_logsIn (hd : w.deliver transport = .ok ()) (ha : ¬ a.LogsIn)
    {r : RpcServer × CRPCWrapper × UInt32}
    (h : w.connectToServer s c transport a = some r) :
    r.1.issued = s.issued ∧ r.2.1 = w ∧ s.connect c a = some r.1 := by
  simp only [CRPCWrapper.connectToServer, hd] at h
  split at h
  · rename_i svc hConn hsvc
    exact absurd ((connectToServer_ok_iff s.svc a).mp ⟨svc, hConn, hsvc⟩) ha
  · rename_i svc status hsvc
    obtain rfl := Option.some.inj h
    exact ⟨rfl, rfl, by simp only [RpcServer.connect, hsvc]⟩
  · simp at h

end Connect

/-! ## What a step does -/

/-- A procedure with a context handle runs on `m_hConn`, which is issued, or `NULL` where that
passes.

**Proof sketch.** By the checks of the runtime, in their order: the binding, the transport, `NULL`,
and the owner of the handle. -/
theorem dispatch_ok {w : CRPCWrapper} {s : RpcServer} {c : ClientId} {transport : Transport}
    {d : Direction} {hConn : Ptr} (h : w.dispatch s c transport d = .ok hConn) :
    w.binding ≠ none ∧ hConn = w.hConn ∧
      (s.issued w.hConn = some c ∨ w.hConn = 0 ∧ d = .inOut) := by
  have hbinding : w.binding ≠ none := by
    intro hnone
    simp [CRPCWrapper.dispatch, CRPCWrapper.deliver, hnone] at h
  refine ⟨hbinding, ?_⟩
  unfold CRPCWrapper.dispatch at h
  split at h
  · simp at h
  unfold RpcServer.admit at h
  split_ifs at h with hnull hissued
  · cases d with
    | inOnly => simp at h
    | inOut => exact ⟨(Except.ok.inj h).symm, .inr ⟨hnull, rfl⟩⟩
  · exact ⟨(Except.ok.inj h).symm, .inl hissued⟩

/-- A `Disconnect` releases `m_hConn`, which was issued, and sets it to `NULL`; or it changes
nothing.

**Proof sketch.** By the outcome of the dispatch and of the release. A release takes a context from
the heap, where there is none at `NULL`. -/
theorem disconnect_cases {s : RpcServer} (hs : s.Valid) (c : ClientId) (transport : Transport)
    (w : CRPCWrapper) :
    ((w.disconnect s c transport).1 = s ∧ (w.disconnect s c transport).2.1 = w) ∨
      (w.binding ≠ none ∧ s.issued w.hConn = some c ∧
        s.release w.hConn = some (w.disconnect s c transport).1 ∧
        (w.disconnect s c transport).2.1 = { w with hConn := 0 }) := by
  cases hd : w.dispatch s c transport .inOut with
  | error status => exact .inl (by simp [CRPCWrapper.disconnect, hd])
  | ok hConn =>
    obtain ⟨hbinding, rfl, hissued⟩ := dispatch_ok hd
    cases hr : s.release w.hConn with
    | none => exact .inl (by simp [CRPCWrapper.disconnect, hd, hr])
    | some s' =>
      refine .inr ⟨hbinding, hissued.resolve_right ?_, ?_, ?_⟩
      · intro h
        obtain ⟨hnull, -⟩ := h
        obtain ⟨pcc, hp, -⟩ := RpcServer.release_eq_some hr
        rw [hnull] at hp
        exact absurd (hs.svc.heap_lt 0 pcc hp).1 (lt_irrefl 0)
      · simp [CRPCWrapper.disconnect, hd, hr]
      · simp [CRPCWrapper.disconnect, hd, hr]

/-- An issued handle is the address of a context on the heap. -/
theorem RpcServer.Valid.context_of_issued {s : RpcServer} (hs : s.Valid) {p : Ptr}
    (hp : (s.issued p).isSome = true) : p ≠ 0 ∧ (s.svc.heap p).isSome = true := by
  have hheap := hs.issued p hp
  obtain ⟨pcc, hpcc⟩ := Option.isSome_iff_exists.mp hheap
  exact ⟨(hs.svc.heap_lt p pcc hpcc).1.ne', hheap⟩

/-- A `Disconnect` that gets to the service with an issued handle succeeds. -/
theorem disconnect_of_issued {s : RpcServer} (hs : s.Valid) {c : ClientId} {transport : Transport}
    {w : CRPCWrapper} (hd : w.deliver transport = .ok ()) (hissued : s.issued w.hConn = some c) :
    ∃ s', s.release w.hConn = some s' ∧
      w.disconnect s c transport = (s', { w with hConn := 0 }, rpcSOk) := by
  obtain ⟨hne, hheap⟩ := hs.context_of_issued (p := w.hConn) (by rw [hissued]; rfl)
  obtain ⟨pcc, hpcc⟩ := Option.isSome_iff_exists.mp hheap
  have hdispatch : w.dispatch s c transport .inOut = .ok w.hConn := by
    simp only [CRPCWrapper.dispatch, hd, RpcServer.admit, if_neg hne, if_pos hissued]
  obtain ⟨s', hs'⟩ : ∃ s', s.release w.hConn = some s' := by
    simp [RpcServer.release, Service.disconnect, hpcc]
  exact ⟨s', hs', by simp only [CRPCWrapper.disconnect, hdispatch, hs']⟩

namespace ClientState

variable {c : ClientId} {s s' : ClientState} {e : WrapperCall}

/-- The step is a `ConnectToServer` that succeeds. -/
def Connects (s : ClientState) : WrapperCall → Prop
  | .connectToServer transport a => s.wrapper.deliver transport = .ok () ∧ a.LogsIn
  | _ => False

/-- The ways in which a step can change `m_hConn` and the issued handles: not at all, or it is a
`ConnectToServer` that succeeds, or a `Disconnect` of an issued handle.

**Proof sketch.** By cases on the call. Only `ConnectToServer` and `Disconnect` change `m_hConn` or
the issued handles. -/
theorem next_cases (hs : s.rpc.Valid) (h : next c s e = some s') :
    (¬ s.Connects e ∧ s'.wrapper.hConn = s.wrapper.hConn ∧ s'.rpc.issued = s.rpc.issued ∧
        (s'.rpc = s.rpc ∨ ∃ a, s.rpc.connect c a = some s'.rpc)) ∨
      (s.Connects e ∧ s'.wrapper.hConn = s.rpc.svc.fresh ∧
        s'.rpc.issued = Function.update s.rpc.issued s.rpc.svc.fresh (some c) ∧
        ∃ a, s.rpc.connect c a = some s'.rpc) ∨
      (¬ s.Connects e ∧ s.wrapper.binding ≠ none ∧ s.rpc.issued s.wrapper.hConn = some c ∧
        s'.wrapper.hConn = 0 ∧ s.rpc.release s.wrapper.hConn = some s'.rpc) := by
  cases e with
  | init api pszProtocolSequence pszEndpoint =>
    obtain rfl := Option.some.inj h
    refine .inl ⟨id, ?_, rfl, .inl rfl⟩
    simp only [CRPCWrapper.init]
    split
    · rfl
    · split <;> rfl
  | connectToServer transport a =>
    obtain ⟨r, hr, rfl⟩ := Option.map_eq_some_iff.mp h
    cases hd : s.wrapper.deliver transport with
    | error status =>
      simp only [CRPCWrapper.connectToServer, hd, Option.some.injEq] at hr
      subst hr
      refine .inl ⟨?_, rfl, rfl, .inl rfl⟩
      simp [Connects, hd]
    | ok _ =>
      by_cases ha : a.LogsIn
      · obtain ⟨svc, hw, hconnect⟩ := connectToServer_of_logsIn (s := s.rpc) (c := c) hd ha
        rw [hw] at hr
        obtain rfl := Option.some.inj hr
        exact .inr (.inl ⟨⟨hd, ha⟩, rfl, rfl, a, hconnect⟩)
      · obtain ⟨hissued, hw, hconnect⟩ := connectToServer_of_not_logsIn hd ha hr
        exact .inl ⟨fun hc => ha hc.2, by rw [hw], hissued, .inr ⟨a, hconnect⟩⟩
  | makeCall transport platform address statusMessage =>
    obtain ⟨_, -, rfl⟩ := Option.map_eq_some_iff.mp h
    exact .inl ⟨id, rfl, rfl, .inl rfl⟩
  | hangup transport platform localChannel =>
    obtain rfl := Option.some.inj h
    exact .inl ⟨id, rfl, rfl, .inl rfl⟩
  | getConnectionStatus transport =>
    obtain rfl := Option.some.inj h
    exact .inl ⟨id, rfl, rfl, .inl rfl⟩
  | disconnect transport =>
    obtain rfl := Option.some.inj h
    rcases disconnect_cases hs c transport s.wrapper with
      ⟨hrpc, hw⟩ | ⟨hbinding, hissued, hrelease, hw⟩
    · exact .inl ⟨id, by rw [hw], by rw [hrpc], .inl hrpc⟩
    · exact .inr (.inr ⟨id, hbinding, hissued, by rw [hw], hrelease⟩)

/-- For the service a step of the wrapper is one call of its client, or nothing. -/
theorem rpc_next (hs : s.rpc.Valid) (h : next c s e = some s') :
    s'.rpc = s.rpc ∨ ∃ call, s.rpc.next call = some s'.rpc := by
  rcases next_cases hs h with ⟨-, -, -, hrpc | ⟨a, ha⟩⟩ | ⟨-, -, -, a, ha⟩ |
    ⟨-, -, howner, -, hrelease⟩
  · exact .inl hrpc
  · exact .inr ⟨.connectToServer c a, ha⟩
  · exact .inr ⟨.connectToServer c a, ha⟩
  · exact .inr ⟨.disconnect c s.wrapper.hConn, by rw [RpcServer.next, if_pos howner, hrelease]⟩

/-- A step keeps the state of the service valid. -/
theorem valid_next (hs : s.rpc.Valid) (h : next c s e = some s') : s'.rpc.Valid := by
  rcases rpc_next hs h with hrpc | ⟨call, hcall⟩
  · rw [hrpc]
    exact hs
  · exact hs.next hcall

end ClientState

/-! ## The wrapper and its context -/

/-- The contexts that the `ConnectToServer` calls of a client have created and that no
`Disconnect` has destroyed. -/
def RpcServer.contexts (s : RpcServer) (c : ClientId) : Set Ptr :=
  {p | s.issued p = some c ∧ (s.svc.heap p).isSome = true}

/-- The context of the wrapper is `m_hConn`, and it has none if that is `NULL`. -/
def KnowsContext (c : ClientId) (s : ClientState) : Prop :=
  s.rpc.contexts c = if s.wrapper.hConn = 0 then ∅ else {s.wrapper.hConn}

/-- The method passes `m_hConn` by value. -/
def WrapperCall.PassesHandle : WrapperCall → Prop
  | .makeCall _ _ _ _ | .hangup _ _ _ => True
  | .init _ _ _ | .connectToServer _ _ | .disconnect _ | .getConnectionStatus _ => False

/-- After the step the wrapper knows its context, and a handle that it passes to `MakeCall` or
`Hangup` is issued to it; `NULL` the runtime does not send. -/
structure TracksContext (c : ClientId) (t : Step ClientState WrapperCall) : Prop where
  knows : KnowsContext c t.post
  sends : t.label.PassesHandle → t.pre.wrapper.hConn ≠ 0 →
    t.pre.rpc.issued t.pre.wrapper.hConn = some c

/-- The condition on a step: a `ConnectToServer` that succeeds finds `NULL` in `m_hConn`. -/
def ConnectsUnconnected (s : ClientState) (e : WrapperCall) : Prop :=
  s.Connects e → s.wrapper.hConn = 0

section Knows

variable {c : ClientId} {s s' : ClientState} {e : WrapperCall}

/-- In a valid state it is enough to look at the issued handles.

**Proof sketch.** In a valid state every issued handle is of a context on the heap, so both say the
same of each address. -/
theorem knowsContext_iff (hs : s.rpc.Valid) :
    KnowsContext c s ↔
      ∀ p, s.rpc.issued p = some c ↔ s.wrapper.hConn ≠ 0 ∧ p = s.wrapper.hConn := by
  have hmem : ∀ p, p ∈ s.rpc.contexts c ↔ s.rpc.issued p = some c := by
    intro p
    refine and_iff_left_of_imp fun hp => ?_
    exact hs.issued p (by rw [hp]; rfl)
  have hset : ∀ p, p ∈ (if s.wrapper.hConn = 0 then ∅ else {s.wrapper.hConn} : Set Ptr) ↔
      s.wrapper.hConn ≠ 0 ∧ p = s.wrapper.hConn := by
    intro p
    split_ifs with hnull
    · exact iff_of_false id (fun hp => hp.1 hnull)
    · exact (and_iff_right hnull).symm
  unfold KnowsContext
  rw [Set.ext_iff]
  simp only [hmem, hset]

/-- A step of a wrapper that knows its context leads to a state in which it does exactly when it
does not connect again.

**Proof sketch.** A connect assigns the new context, which is then the only one exactly when
there was none before. A `Disconnect` takes the one context away and leaves `NULL`, and no other
step changes the handle or the contexts. -/
theorem knowsContext_next_iff (hs : s.rpc.Valid) (hk : KnowsContext c s)
    (h : ClientState.next c s e = some s') :
    KnowsContext c s' ↔ ConnectsUnconnected s e := by
  rw [knowsContext_iff hs] at hk
  rw [knowsContext_iff (ClientState.valid_next hs h)]
  rcases ClientState.next_cases hs h with ⟨hc, hw, hissued, -⟩ | ⟨hc, hw, hissued, -⟩ |
    ⟨hc, -, howner, hw, hrelease⟩
  · refine iff_of_true (fun p => ?_) (fun h => absurd h hc)
    rw [hissued, hw]
    exact hk p
  · have hfresh : s.rpc.svc.fresh ≠ 0 := hs.svc.fresh_pos.ne'
    rw [hissued, hw]
    constructor
    · intro hall hconnects
      by_contra hne
      have howner := (hk s.wrapper.hConn).mpr ⟨hne, rfl⟩
      have hold : s.wrapper.hConn ≠ s.rpc.svc.fresh := hs.ne_fresh (by rw [howner]; rfl)
      refine hold ((hall s.wrapper.hConn).mp ?_).2
      rw [Function.update_of_ne hold, howner]
    · intro hunconnected p
      have hnull := hunconnected hc
      by_cases hp : p = s.rpc.svc.fresh
      · rw [hp, Function.update_self]
        simp [hfresh]
      · rw [Function.update_of_ne hp, hk p]
        simp [hnull, hp]
  · refine iff_of_true (fun p => ?_) (fun h => absurd h hc)
    obtain ⟨pcc, -, -, hissued⟩ := RpcServer.release_eq_some hrelease
    rw [hissued, hw]
    by_cases hp : p = s.wrapper.hConn
    · rw [hp, Function.update_self]
      simp
    · rw [Function.update_of_ne hp, hk p]
      simp [hp]

/-- A wrapper that has no context and whose `m_hConn` is not `NULL` does not know its context
after its first call: without a binding that call does not get to the service.

**Proof sketch.** The constructor leaves the binding `NULL`, so that the first call leaves `m_hConn`
and issues nothing. -/
theorem not_knowsContext_first {rpc : RpcServer} (hs : rpc.Valid)
    (hnew : ∀ p, rpc.issued p ≠ some c) {hConn : Ptr} (hne : hConn ≠ 0)
    (h : ClientState.next c ⟨rpc, .create hConn⟩ e = some s') : ¬ KnowsContext c s' := by
  rw [knowsContext_iff (ClientState.valid_next (s := ⟨rpc, .create hConn⟩) hs h)]
  intro hall
  rcases ClientState.next_cases (s := ⟨rpc, .create hConn⟩) hs h with ⟨-, hw, hissued, -⟩ |
    ⟨hc, -⟩ | ⟨-, hbinding, -⟩
  · rw [hissued, hw] at hall
    exact hnew hConn ((hall hConn).mpr ⟨hne, rfl⟩)
  · cases e with
    | connectToServer transport a => simp [ClientState.Connects, CRPCWrapper.deliver,
        CRPCWrapper.create] at hc
    | init => exact hc
    | makeCall => exact hc
    | hangup => exact hc
    | disconnect => exact hc
    | getConnectionStatus => exact hc
  · exact hbinding rfl

/-- A step after which the wrapper knows its context has passed an issued handle: such a step
changes neither.

**Proof sketch.** Only `MakeCall` and `Hangup` pass the handle without changing it, and they leave
the state. -/
theorem tracksContext_iff_knows {t : Step ClientState WrapperCall} (hs : t.pre.rpc.Valid)
    (h : ClientState.next c t.pre t.label = some t.post) :
    TracksContext c t ↔ KnowsContext c t.post := by
  refine ⟨TracksContext.knows, fun hk => ⟨hk, fun hpass hne => ?_⟩⟩
  have hsame : t.post = t.pre := by
    cases hl : t.label with
    | makeCall =>
      rw [hl] at h
      obtain ⟨_, -, heq⟩ := Option.map_eq_some_iff.mp h
      exact heq.symm
    | hangup =>
      rw [hl] at h
      exact (Option.some.inj h).symm
    | init => simp [hl, WrapperCall.PassesHandle] at hpass
    | connectToServer => simp [hl, WrapperCall.PassesHandle] at hpass
    | disconnect => simp [hl, WrapperCall.PassesHandle] at hpass
    | getConnectionStatus => simp [hl, WrapperCall.PassesHandle] at hpass
  rw [hsame, knowsContext_iff hs] at hk
  exact (hk _).mpr ⟨hne, rfl⟩

end Knows

/-- **The wrapper and its context.** A wrapper is constructed, by a client who has no context,
and used in any way. After every call its context is `m_hConn`, or it has none and that is
`NULL`, and the handles that it passes are issued to it, exactly when the memory of `m_hConn`
held `NULL` and no `ConnectToServer` succeeds while `m_hConn` is not `NULL`.

**Proof sketch.** If `m_hConn` held `NULL`, the wrapper knows at the start that it has no context,
and a step keeps that exactly when it meets the condition. If it did not, it does not know after its
first call. -/
theorem tracksContext_iff (c : ClientId) (rpc : RpcServer) (hs : rpc.Valid)
    (hnew : ∀ p, rpc.issued p ≠ some c) (hConn : Ptr)
    (tr : List (Step ClientState WrapperCall)) (s' : ClientState)
    (h : Run (ClientState.next c) ⟨rpc, .create hConn⟩ tr s') :
    (∀ t ∈ tr, TracksContext c t) ↔
      ∀ t ∈ tr, hConn = 0 ∧ ConnectsUnconnected t.pre t.label := by
  have hvalid := (h.forall_step (I := fun s => s.rpc.Valid)
    (fun _ _ _ hv hn => ClientState.valid_next hv hn) hs).1
  have hknows : (∀ t ∈ tr, TracksContext c t) ↔ ∀ t ∈ tr, KnowsContext c t.post :=
    forall₂_congr fun t ht => tracksContext_iff_knows (hvalid t ht).1 (h.next_of_mem t ht)
  rw [hknows]
  by_cases hnull : hConn = 0
  · have hstart : KnowsContext c ⟨rpc, .create hConn⟩ := by
      rw [knowsContext_iff hs]
      exact fun p => iff_of_false (hnew p) (fun hp => hp.1 hnull)
    rw [h.forall_post_iff (I := fun s => s.rpc.Valid) (C := ConnectsUnconnected)
      (fun _ _ _ hv hn => ClientState.valid_next hv hn)
      (fun _ _ _ hv hk hn => knowsContext_next_iff hv hk hn) hs hstart]
    simp only [hnull, true_and]
  · cases h with
    | nil => simp
    | cons hfirst hrest =>
      refine iff_of_false (fun hall => ?_) (fun hall => ?_)
      · exact not_knowsContext_first hs hnew hnull hfirst (hall _ List.mem_cons_self)
      · exact hnull (hall _ List.mem_cons_self).1

/-! ## Runs of one wrapper -/

/-- The runtime on a machine where the service is listening. -/
def localBinding : BindingApi where
  stringBindingCompose pszProtocolSequence pszEndpoint :=
    .ok (pszProtocolSequence ++ bytes ":[" ++ pszEndpoint ++ bytes "]")
  bindingFromStringBinding _ := .ok 1
  mgmtIsServerListening _ := rpcSOk

/-- The `Init` of the provider. -/
def initCall : WrapperCall := .init localBinding (bytes "ncalrpc") (bytes "NuacomService")

/-- The wrapper after it. -/
def boundWrapper (hConn : Ptr) : CRPCWrapper where
  pszStringBinding := some (bytes "ncalrpc" ++ bytes ":[" ++ bytes "NuacomService" ++ bytes "]")
  binding := some 1
  hConn := hConn

/-- A wrapper that is created can be bound. -/
theorem next_initCall (c : ClientId) (rpc : RpcServer) (hConn : Ptr) :
    ClientState.next c ⟨rpc, .create hConn⟩ initCall = some ⟨rpc, boundWrapper hConn⟩ := rfl

/-- A bound wrapper connects. -/
theorem next_openConnect (c : ClientId) (rpc : RpcServer) (hConn : Ptr) (ws : Bool) :
    ∃ svc : Service,
      ClientState.next c ⟨rpc, boundWrapper hConn⟩ (.connectToServer (.ok ()) (openCall ws)) =
        some ⟨⟨svc, Function.update rpc.issued rpc.svc.fresh (some c)⟩,
          boundWrapper rpc.svc.fresh⟩ := by
  have hdeliver : (boundWrapper hConn).deliver (.ok ()) = .ok () := rfl
  obtain ⟨svc, hw, -⟩ :=
    connectToServer_of_logsIn (s := rpc) (c := c) hdeliver (logsIn_openCall ws)
  refine ⟨svc, ?_⟩
  simp only [ClientState.next, hw, Option.map_some]
  rfl

/-- The sample call connects a bound wrapper, whatever the service has done before. -/
theorem connects_openCall (rpc : RpcServer) (hConn : Ptr) (ws : Bool) :
    ClientState.Connects ⟨rpc, boundWrapper hConn⟩ (.connectToServer (.ok ()) (openCall ws)) :=
  ⟨rfl, logsIn_openCall ws⟩

/-- A wrapper whose memory held `NULL` is initialised and connects.

**Proof sketch.** Both calls meet the condition. -/
theorem tracksContext_connected :
    ∃ tr s', Run (ClientState.next 0) ⟨.start, .create 0⟩ tr s' ∧ s'.wrapper.hConn = 1 ∧
      ∀ t ∈ tr, TracksContext 0 t := by
  obtain ⟨svc, h2⟩ := next_openConnect 0 .start 0 true
  have hrun := Run.cons (next_initCall 0 .start 0) (.cons h2 (.nil _))
  have hnew : ∀ p, RpcServer.start.issued p ≠ some 0 := by
    intro p
    simp [RpcServer.start]
  refine ⟨_, _, hrun, rfl,
    (tracksContext_iff 0 .start RpcServer.Valid.start hnew 0 _ _ hrun).mpr ?_⟩
  simp only [List.forall_mem_cons, List.not_mem_nil, false_implies, implies_true, and_true,
    true_and]
  exact ⟨fun hc => absurd hc id, fun _ => rfl⟩

/-- A wrapper whose memory held another number does not know after `Init` that it has no context.
And one whose memory held `NULL`, and that connects twice, has two contexts of which it knows
one.

**Proof sketch.** The first wrapper by its first call. The second one would have to know its context
after both connects, and then the second connect would have met the condition. -/
theorem context_unknown :
    (∃ tr s', Run (ClientState.next 0) ⟨.start, .create 7⟩ tr s' ∧
      ¬ ∀ t ∈ tr, TracksContext 0 t) ∧
    ∃ tr s', Run (ClientState.next 0) ⟨.start, .create 0⟩ tr s' ∧
      ¬ ∀ t ∈ tr, TracksContext 0 t := by
  have hnew : ∀ p, RpcServer.start.issued p ≠ some 0 := by
    intro p
    simp [RpcServer.start]
  refine ⟨⟨_, _, .cons (next_initCall 0 .start 7) (.nil _), fun hall => ?_⟩, ?_⟩
  · exact not_knowsContext_first RpcServer.Valid.start hnew (by decide)
      (next_initCall 0 .start 7) (hall _ List.mem_cons_self).knows
  · obtain ⟨svc, h2⟩ := next_openConnect 0 .start 0 true
    obtain ⟨svc', h3⟩ := next_openConnect 0 ⟨svc, Function.update RpcServer.start.issued
      RpcServer.start.svc.fresh (some 0)⟩ RpcServer.start.svc.fresh true
    refine ⟨_, _, .cons (next_initCall 0 .start 0) (.cons h2 (.cons h3 (.nil _))),
      fun hall => ?_⟩
    have hvalid := ClientState.valid_next (s := ⟨.start, boundWrapper 0⟩)
      RpcServer.Valid.start h2
    have hknows2 : KnowsContext 0 _ := (hall _ (by simp; exact .inr (.inl rfl))).knows
    have hknows3 : KnowsContext 0 _ := (hall _ (by simp; exact .inr (.inr rfl))).knows
    have hnull := (knowsContext_next_iff hvalid hknows2 h3).mp hknows3 (connects_openCall _ _ _)
    exact Nat.one_ne_zero hnull

end Nuacom
