import Nuacom.Server.Connection
import Nuacom.Server.ConfigWrite
import Nuacom.Server.ConfigRoundTrip
import Nuacom.Support.Transition

set_option relaxedAutoImplicit false
set_option autoImplicit false

/-!
# The lifetime of the contexts

Clients connect and disconnect, and the RPC runtime runs down the handles of clients that are
lost. A handle that was issued and is neither disconnected nor run down is the one thing through
which a context can ever be deleted again, and the contexts with an open websocket are what the
connection status is about.

## Main definitions

* `Nuacom.RpcServer`, `Nuacom.RpcServer.next` — the service behind the RPC runtime, and its
  steps.
* `Nuacom.StatusMatches` — the status is that of the contexts with an open websocket.
* `Nuacom.NoLeak` — the contexts and their registrations are exactly those of the issued handles.

## Main results

* `Nuacom.RpcServer.Valid.next` — the steps keep the state valid.
* `Nuacom.statusMatches_iff` — the status matches throughout a run exactly when no context is
  disconnected or run down while another one has an open websocket.
* `Nuacom.noLeak_iff` — nothing is leaked in a run exactly when every `ConnectToServer` finds a
  configuration that it can read and log in with.
-/

namespace Nuacom

open CString Registry Transition

abbrev ClientId := ℕ

/-- The service behind the RPC runtime. -/
structure RpcServer where
  svc : Service
  /-- The context handles that the runtime has issued and that are not `NULL` again, with the
  client that holds each. -/
  issued : Ptr → Option ClientId

/-- A call that the runtime dispatches. -/
inductive ServerCall
  | connectToServer (c : ClientId) (a : ConnectCall)
  | disconnect (c : ClientId) (hConn : Ptr)
  /-- `PCONTEXT_HANDLE_TYPE_rundown` -/
  | rundown (hConn : Ptr)

namespace RpcServer

def start : RpcServer where
  svc := .start
  issued _ := none

/-- `Disconnect` on an issued handle, which becomes `NULL`. -/
def release (s : RpcServer) (hConn : Ptr) : Option RpcServer :=
  (s.svc.disconnect hConn).map fun svc =>
    { svc := svc, issued := Function.update s.issued hConn none }

/-- `ConnectToServer` for client `c`, who gets the handle if the call returns. -/
def connect (s : RpcServer) (c : ClientId) (a : ConnectCall) : Option RpcServer :=
  match s.svc.connectToServer a with
  | (svc, .ok hConn) => some { svc := svc, issued := Function.update s.issued hConn (some c) }
  | (svc, .error (.exception _)) => some { s with svc := svc }
  | (_, .error (.abort _)) => none

/-- The steps: a client connects, disconnects a handle of its own, or is lost, and its handles
are run down. There is no step with which the service ends. -/
def next (s : RpcServer) : ServerCall → Option RpcServer
  | .connectToServer c a => s.connect c a
  | .disconnect c hConn => if s.issued hConn = some c then s.release hConn else none
  | .rundown hConn => if (s.issued hConn).isSome then s.release hConn else none

/-- The state of the service is valid, and every issued handle is that of a context. -/
structure Valid (s : RpcServer) : Prop where
  svc : s.svc.Valid
  issued : ∀ p, (s.issued p).isSome = true → (s.svc.heap p).isSome = true

/-- At the start no handle is issued. -/
theorem Valid.start : Valid .start := ⟨Service.Valid.start, by simp [RpcServer.start]⟩

/-- No handle is issued for the address that is drawn next. -/
theorem Valid.issued_fresh {s : RpcServer} (hs : Valid s) : s.issued s.svc.fresh = none := by
  cases h : s.issued s.svc.fresh with
  | none => rfl
  | some c =>
    have := hs.issued s.svc.fresh (by rw [h]; rfl)
    rw [hs.svc.heap_fresh] at this
    simp at this

/-- An issued handle is not the address that is drawn next. -/
theorem Valid.ne_fresh {s : RpcServer} (hs : Valid s) {p : Ptr}
    (hp : (s.issued p).isSome = true) : p ≠ s.svc.fresh := by
  intro heq
  rw [heq, hs.issued_fresh] at hp
  simp at hp

/-- A step of a client that connects: the call raises and leaves the new context, or deletes it,
or issues its address.

**Proof sketch.** By the ways in which `ConnectToServer` ends; a failed assertion ends the process
and is no step. -/
theorem connect_eq_some {s s' : RpcServer} {c : ClientId} {a : ConnectCall}
    (h : s.connect c a = some s') :
    ∃ pcc : ConnectionContext, pcc.socketHandle = none ∧
      Service.Registered pcc a.lineInit (s.svc.fresh + 1) ∧
      ((¬ ConfigReadable a.platform a.buffers a.key ∧
          s' = { s with svc := s.svc.allocate pcc }) ∨
        (ConfigReadable a.platform a.buffers a.key ∧
          (s' = { s with svc := (s.svc.allocate pcc).deleteContext s.svc.fresh } ∨
            s' = { svc := s.svc.connected pcc a.connectToWS,
                   issued := Function.update s.issued s.svc.fresh (some c) }))) := by
  obtain ⟨pcc, hsocket, hreg, hcases⟩ := Service.connectToServer_cases s.svc a
  refine ⟨pcc, hsocket, hreg, ?_⟩
  unfold connect at h
  rcases hcases with ⟨hread, f, hf⟩ | ⟨hread, _, _, ⟨x, -, hx⟩ | ⟨m, -, hm⟩ | ⟨t, -, ht⟩⟩
  · rw [hf] at h
    cases f with
    | exception status => exact .inl ⟨hread, (Option.some.inj h).symm⟩
    | abort x => exact absurd h (by simp)
  · rw [hx] at h
    simp at h
  · rw [hm] at h
    exact .inr ⟨hread, .inl (Option.some.inj h).symm⟩
  · rw [ht] at h
    exact .inr ⟨hread, .inr (Option.some.inj h).symm⟩

/-- A client disconnects a handle of its own. -/
theorem next_disconnect {s s' : RpcServer} {c : ClientId} {p : Ptr}
    (h : s.next (.disconnect c p) = some s') : s.issued p = some c ∧ s.release p = some s' := by
  simp only [next] at h
  split_ifs at h with hc
  exact ⟨hc, h⟩

/-- The handle that is run down is an issued one. -/
theorem next_rundown {s s' : RpcServer} {p : Ptr} (h : s.next (.rundown p) = some s') :
    (s.issued p).isSome = true ∧ s.release p = some s' := by
  simp only [next] at h
  split_ifs at h with hc
  exact ⟨hc, h⟩

/-- A step that releases a handle: it was issued, and its context is gone afterwards. -/
theorem release_eq_some {s s' : RpcServer} {p : Ptr} (h : s.release p = some s') :
    ∃ pcc, s.svc.heap p = some pcc ∧ s.svc.disconnect p = some s'.svc ∧
      s'.issued = Function.update s.issued p none := by
  obtain ⟨svc, hsvc, rfl⟩ := Option.map_eq_some_iff.mp h
  obtain ⟨pcc, hp, -⟩ := Option.map_eq_some_iff.mp hsvc
  exact ⟨pcc, hp, hsvc, rfl⟩

/-- Releasing a handle keeps the state valid. -/
theorem Valid.release {s s' : RpcServer} (hs : Valid s) {p : Ptr} (h : s.release p = some s') :
    Valid s' := by
  obtain ⟨pcc, hp, hsvc, hissued⟩ := release_eq_some h
  refine ⟨hs.svc.disconnect hsvc, fun q hq => ?_⟩
  rw [hissued] at hq
  have hne : q ≠ p := by
    rintro rfl
    simp at hq
  rw [Function.update_of_ne hne] at hq
  rw [Service.heap_disconnect hsvc, Function.update_of_ne hne]
  exact hs.issued q hq

/-- The steps keep the state valid.

**Proof sketch.** A connect stores a context at a new address, which is not issued; a release takes
the handle with its context. -/
theorem Valid.next {s s' : RpcServer} {e : ServerCall} (hs : Valid s) (h : s.next e = some s') :
    Valid s' := by
  cases e with
  | connectToServer c a =>
    obtain ⟨pcc, hsocket, hreg, hcases⟩ := connect_eq_some h
    have hnew : (s.svc.allocate pcc).Valid := hs.svc.allocate hsocket hreg
    rcases hcases with ⟨-, rfl⟩ | ⟨-, rfl | rfl⟩
    · refine ⟨hnew, fun q hq => ?_⟩
      rw [Service.heap_allocate, Function.update_of_ne (hs.ne_fresh hq)]
      exact hs.issued q hq
    · refine ⟨hnew.deleteContext _, fun q hq => ?_⟩
      rw [Service.heap_deleteContext, Function.update_of_ne (hs.ne_fresh hq),
        Service.heap_allocate, Function.update_of_ne (hs.ne_fresh hq)]
      exact hs.issued q hq
    · refine ⟨hs.svc.connected hsocket hreg _, fun q hq => ?_⟩
      obtain ⟨hself, hother⟩ := Service.heap_connected s.svc pcc a.connectToWS
      by_cases hqf : q = s.svc.fresh
      · rw [hqf]
        exact hself
      · rw [hother q hqf]
        simp only [Function.update_of_ne hqf] at hq
        exact hs.issued q hq
  | disconnect c p => exact hs.release (next_disconnect h).2
  | rundown p => exact hs.release (next_rundown h).2

end RpcServer

/-! ## A call that succeeds -/

/-- A `ConnectToServer` that finds a configured user and logs in. -/
def openCall (ws : Bool) : ConnectCall where
  hCallback := 1
  providerId := 1
  connectToWS := ws
  lineInit := some tapiCurrentVersion
  platform := openPlatform
  key := .ok aliceKey
  buffers := connectBuffers
  afterExtension := []
  http := openPlatform.http

/-- The sample call finds a configuration that it can read and log in with. -/
theorem configReadable_openCall (ws : Bool) :
    ConfigReadable (openCall ws).platform (openCall ws).buffers (openCall ws).key :=
  ⟨aliceKey, ⟨.sz, bytes "alice" ++ [0]⟩, ⟨.binary, 1 :: bytes "old" ++ [0]⟩, bytes "old" ++ [0],
    rfl, rfl, by decide, rfl, rfl, openPlatform_logsIn _ _⟩

/-- The sample call connects in every state, and its context is at the next address. -/
theorem next_openCall (s : RpcServer) (c : ClientId) (ws : Bool) :
    ∃ pcc, s.next (.connectToServer c (openCall ws)) = some
      { svc := s.svc.connected pcc ws
        issued := Function.update s.issued s.svc.fresh (some c) } := by
  obtain ⟨pcc, -, -, hcases⟩ := Service.connectToServer_cases s.svc (openCall ws)
  rcases hcases with ⟨hread, -⟩ | ⟨-, _, _, ⟨x, hx, -⟩ | ⟨m, hm, -⟩ | ⟨t, -, ht⟩⟩
  · exact absurd (configReadable_openCall ws) hread
  · simp [openCall, openPlatform_getSessionToken] at hx
  · simp [openCall, openPlatform_getSessionToken] at hm
  · refine ⟨pcc, ?_⟩
    simp only [RpcServer.next, RpcServer.connect, ht]
    rfl

/-! ## The connection status -/

/-- The context at `p` has a websocket that is open and calls it back. -/
def HasWebsocket (s : Service) (p : Ptr) : Prop :=
  ∃ pcc h, s.heap p = some pcc ∧ pcc.socketHandle = some h ∧ s.sockets h = some p

/-- `GetConnectionStatus` says whether a context has an open websocket. -/
def StatusMatches (s : RpcServer) : Prop :=
  s.svc.getConnectionStatus = true ↔ ∃ p, HasWebsocket s.svc p

/-- The condition on a call: no other context has an open websocket when one is disconnected or
run down. -/
def LastWebsocket (s : RpcServer) : ServerCall → Prop
  | .connectToServer _ _ => True
  | .disconnect _ p | .rundown p => ∀ q, q ≠ p → ¬ HasWebsocket s.svc q

/-- A new context has no websocket yet. -/
theorem hasWebsocket_allocate_iff {s : Service} (hs : s.Valid) {pcc : ConnectionContext}
    (hsocket : pcc.socketHandle = none) (q : Ptr) :
    HasWebsocket (s.allocate pcc) q ↔ HasWebsocket s q := by
  constructor
  · intro h'
    obtain ⟨qcc, h, hq, hh, hk⟩ := h'
    rcases Service.heap_allocate_eq_some hq with ⟨-, rfl⟩ | ⟨-, hq⟩
    · rw [hsocket] at hh
      simp at hh
    · exact ⟨qcc, h, hq, hh, hk⟩
  · intro h'
    obtain ⟨qcc, h, hq, hh, hk⟩ := h'
    exact ⟨qcc, h, hs.heap_allocate_of_some hq pcc, hh, hk⟩

/-- The contexts with a websocket after a deletion are the others that had one. -/
theorem hasWebsocket_deleteContext_iff (s : Service) (p q : Ptr) :
    HasWebsocket (s.deleteContext p) q ↔ q ≠ p ∧ HasWebsocket s q := by
  constructor
  · intro h'
    obtain ⟨qcc, h, hq, hh, hk⟩ := h'
    obtain ⟨hne, hq⟩ := Service.heap_deleteContext_eq_some hq
    rw [Service.sockets_deleteContext] at hk
    exact ⟨hne, qcc, h, hq, hh, hk⟩
  · intro h'
    obtain ⟨hne, qcc, h, hq, hh, hk⟩ := h'
    refine ⟨qcc, h, ?_, hh, ?_⟩
    · rw [Service.heap_deleteContext, Function.update_of_ne hne, hq]
    · rw [Service.sockets_deleteContext, hk]

/-- `Disconnect` takes the websocket of the one context, and leaves those of the others.

**Proof sketch.** The websocket that is closed is that of the deleted context, and no other context
has it. -/
theorem hasWebsocket_disconnect_iff {s s' : Service} (hs : s.Valid) {p : Ptr}
    (h : s.disconnect p = some s') (q : Ptr) :
    HasWebsocket s' q ↔ q ≠ p ∧ HasWebsocket s q := by
  obtain ⟨pcc, hp, rfl⟩ := Option.map_eq_some_iff.mp h
  have hflag : HasWebsocket { (s.closeWebsocketAsync pcc.socketHandle).deleteContext p with
      bConnected := false } q ↔
      HasWebsocket ((s.closeWebsocketAsync pcc.socketHandle).deleteContext p) q := Iff.rfl
  rw [hflag, hasWebsocket_deleteContext_iff]
  refine and_congr_right fun hne => ?_
  unfold HasWebsocket
  simp only [Service.heap_closeWebsocketAsync, Service.sockets_closeWebsocketAsync_eq_some_iff]
  constructor
  · intro h'
    obtain ⟨qcc, k, hq, hk, hopen, -⟩ := h'
    exact ⟨qcc, k, hq, hk, hopen⟩
  · intro h'
    obtain ⟨qcc, k, hq, hk, hopen⟩ := h'
    refine ⟨qcc, k, hq, hk, hopen, fun hpk => hne ?_⟩
    exact hs.socket_owner p q pcc k hp hpk hopen

/-- A connection that opened a websocket has it. -/
theorem hasWebsocket_connected (s : Service) (pcc : ConnectionContext) :
    HasWebsocket (s.connected pcc true) s.fresh := by
  refine ⟨{ pcc with socketHandle := some (s.allocate pcc).fresh }, (s.allocate pcc).fresh,
    ?_, rfl, ?_⟩
  · simp [Service.connected, Service.connectToWebsocket, Service.modify]
  · simp [Service.connected, Service.connectToWebsocket]

/-- Releasing a handle leaves a status that matches exactly when no other context has an open
websocket: the flag is cleared. -/
theorem statusMatches_release_iff {s s' : RpcServer} (hs : s.Valid) {p : Ptr}
    (h : s.release p = some s') :
    StatusMatches s' ↔ ∀ q, q ≠ p → ¬ HasWebsocket s.svc q := by
  obtain ⟨pcc, -, hsvc, -⟩ := RpcServer.release_eq_some h
  have hflag : s'.svc.getConnectionStatus = false := by
    obtain ⟨_, -, hs'⟩ := Option.map_eq_some_iff.mp hsvc
    rw [← hs']
    rfl
  unfold StatusMatches
  rw [hflag]
  simp only [hasWebsocket_disconnect_iff hs.svc hsvc, Bool.false_eq_true, false_iff, not_exists,
    not_and]

/-- A connect leaves a status that matches, however it ends.

**Proof sketch.** By the ways in which a connect ends. Only the last one can open a websocket, and
it sets the flag when it does. -/
theorem statusMatches_connect {s s' : RpcServer} (hs : s.Valid)
    (hstatus : StatusMatches s) {c : ClientId} {a : ConnectCall}
    (h : s.connect c a = some s') : StatusMatches s' := by
  obtain ⟨pcc, hsocket, -, hcases⟩ := RpcServer.connect_eq_some h
  have hnew : ∀ q, HasWebsocket (s.svc.allocate pcc) q ↔ HasWebsocket s.svc q :=
    hasWebsocket_allocate_iff hs.svc hsocket
  unfold StatusMatches at hstatus ⊢
  rcases hcases with ⟨-, rfl⟩ | ⟨-, rfl | rfl⟩
  · simp only [hnew]
    exact hstatus
  · have hdel : ∀ q, HasWebsocket ((s.svc.allocate pcc).deleteContext s.svc.fresh) q ↔
        HasWebsocket s.svc q := by
      intro q
      rw [hasWebsocket_deleteContext_iff, hnew]
      refine and_iff_right_of_imp ?_
      rintro ⟨qcc, _, hq, -⟩
      exact hs.svc.ne_fresh hq
    simp only [hdel, Service.getConnectionStatus, Service.bConnected_deleteContext]
    exact hstatus
  · cases a.connectToWS with
    | false =>
      have hsame : s.svc.connected pcc false = s.svc.allocate pcc := rfl
      simp only [hsame, hnew]
      exact hstatus
    | true => exact iff_of_true rfl ⟨s.svc.fresh, hasWebsocket_connected s.svc pcc⟩

/-- **The connection status.** In every run of connects, disconnects and rundowns, by any number
of clients, the status matches in every state reached exactly when no context is disconnected or
run down while another one has an open websocket.

**Proof sketch.** A connect sets the flag only with a websocket, and leaves the websockets of
the other contexts. A disconnect clears the flag, which is right exactly when no other context
has one. -/
theorem statusMatches_iff (tr : List (Step RpcServer ServerCall)) (s' : RpcServer)
    (h : Run RpcServer.next .start tr s') :
    (∀ t ∈ tr, StatusMatches t.post) ↔ ∀ t ∈ tr, LastWebsocket t.pre t.label := by
  refine h.forall_post_iff (fun _ _ _ hs hn => hs.next hn) ?_ RpcServer.Valid.start ?_
  · intro s e s' hs hstatus hn
    cases e with
    | connectToServer c a =>
      exact iff_of_true (statusMatches_connect hs hstatus hn) trivial
    | disconnect c p => exact statusMatches_release_iff hs (RpcServer.next_disconnect hn).2
    | rundown p => exact statusMatches_release_iff hs (RpcServer.next_rundown hn).2
  · refine iff_of_false (by simp [RpcServer.start, Service.start, Service.getConnectionStatus]) ?_
    intro h'
    obtain ⟨p, pcc, _, hp, -⟩ := h'
    simp [RpcServer.start, Service.start] at hp

/-- Releasing an issued handle is a step that the runtime can make. -/
theorem RpcServer.exists_release {s : RpcServer} (hs : s.Valid) {p : Ptr}
    (hp : (s.issued p).isSome = true) :
    ∃ s', s.release p = some s' ∧ s'.issued = Function.update s.issued p none := by
  obtain ⟨pcc, hpcc⟩ := Option.isSome_iff_exists.mp (hs.issued p hp)
  obtain ⟨s', hs'⟩ : ∃ s', s.release p = some s' := by
    simp [RpcServer.release, Service.disconnect, hpcc]
  obtain ⟨-, -, -, hissued⟩ := RpcServer.release_eq_some hs'
  exact ⟨s', hs', hissued⟩

/-- One client connects with a websocket and another one without. The first one disconnects, and
the second one is lost and run down.

**Proof sketch.** The one websocket is that of the first context, so each release meets the
condition. -/
theorem statusMatches_two_clients :
    ∃ tr s', Run RpcServer.next .start tr s' ∧ (∃ t ∈ tr, t.label = .disconnect 0 1) ∧
      (∃ t ∈ tr, t.label = .rundown 4) ∧ (∀ p, s'.issued p = none) ∧
      ∀ t ∈ tr, StatusMatches t.post := by
  obtain ⟨pcc, h1⟩ := next_openCall .start 0 true
  set s1 : RpcServer := ⟨Service.start.connected pcc true,
    Function.update RpcServer.start.issued 1 (some 0)⟩ with hs1
  have hvalid1 : s1.Valid := RpcServer.Valid.start.next h1
  obtain ⟨pcc2, h2⟩ := next_openCall s1 1 false
  obtain ⟨s2, hs2⟩ : ∃ s2, s1.next (.connectToServer 1 (openCall false)) = some s2 := ⟨_, h2⟩
  obtain rfl := Option.some.inj (hs2.symm.trans h2)
  have hvalid2 := hvalid1.next hs2
  set s2 : RpcServer := ⟨s1.svc.connected pcc2 false,
    Function.update s1.issued s1.svc.fresh (some 1)⟩
  have hissued : s2.issued = Function.update (Function.update (fun _ => none) 1 (some 0)) 4
      (some 1) := rfl
  -- the one websocket is that of the first context
  have hsocket : ∀ q, HasWebsocket s2.svc q → q = 1 := by
    rintro q ⟨-, h, -, -, hh⟩
    have hopen : Function.update (fun _ => none) 3 (some 1) h = some q := hh
    by_cases h3 : h = 3
    · rw [h3, Function.update_self] at hopen
      exact (Option.some.inj hopen).symm
    · rw [Function.update_of_ne h3] at hopen
      simp at hopen
  obtain ⟨s3, hs3, hissued3⟩ := RpcServer.exists_release hvalid2 (p := 1) (by rw [hissued]; rfl)
  have h3 : s2.next (.disconnect 0 1) = some s3 := by
    rw [RpcServer.next, if_pos (by rw [hissued]; rfl), hs3]
  have hvalid3 := hvalid2.next h3
  obtain ⟨s4, hs4, hissued4⟩ := RpcServer.exists_release hvalid3 (p := 4)
    (by rw [hissued3, hissued]; rfl)
  have h4 : s3.next (.rundown 4) = some s4 := by
    rw [RpcServer.next, if_pos (by rw [hissued3, hissued]; rfl), hs4]
  have hnone : ∀ q, ¬ HasWebsocket s3.svc q := by
    intro q hq
    obtain ⟨-, -, hsvc, -⟩ := RpcServer.release_eq_some hs3
    obtain ⟨hne, hold⟩ := (hasWebsocket_disconnect_iff hvalid2.svc hsvc q).mp hq
    exact hne (hsocket q hold)
  have hrun := Run.cons h1 (.cons hs2 (.cons h3 (.cons h4 (.nil _))))
  refine ⟨_, s4, hrun, ⟨⟨s2, .disconnect 0 1, s3⟩, by simp, rfl⟩,
    ⟨⟨s3, .rundown 4, s4⟩, by simp, rfl⟩, fun p => ?_, (statusMatches_iff _ _ hrun).mpr ?_⟩
  · rw [hissued4, hissued3, hissued]
    simp only [Function.update_apply]
    split_ifs <;> rfl
  · simp only [List.forall_mem_cons, List.not_mem_nil, false_implies, implies_true, and_true]
    exact ⟨trivial, trivial, fun q hne hq => hne (hsocket q hq), fun q _ => hnone q⟩

/-- Two clients connect with websockets and the first one disconnects: the second one is still
connected, and the status says that nobody is.

**Proof sketch.** The first client disconnects while the second context has a websocket, which does
not meet the condition. -/
theorem status_lost :
    ∃ tr s', Run RpcServer.next .start tr s' ∧ (∃ p, HasWebsocket s'.svc p) ∧
      s'.svc.getConnectionStatus = false ∧ ¬ ∀ t ∈ tr, StatusMatches t.post := by
  obtain ⟨pcc, h1⟩ := next_openCall .start 0 true
  set s1 : RpcServer := ⟨Service.start.connected pcc true,
    Function.update RpcServer.start.issued 1 (some 0)⟩ with hs1
  have hvalid : s1.Valid := RpcServer.Valid.start.next h1
  obtain ⟨pcc2, h2⟩ := next_openCall s1 1 true
  set s2 : RpcServer := ⟨s1.svc.connected pcc2 true,
    Function.update s1.issued s1.svc.fresh (some 1)⟩ with hs2
  have hvalid2 : s2.Valid := hvalid.next h2
  have hne : s1.svc.fresh ≠ 1 := by
    show (4 : ℕ) ≠ 1
    decide
  have hissued : s2.issued 1 = some 0 := by
    rw [hs2]
    simp only [Function.update_of_ne hne.symm]
    rfl
  have hlive := hvalid2.issued 1 (by rw [hissued]; rfl)
  obtain ⟨pcc1, hpcc1⟩ := Option.isSome_iff_exists.mp hlive
  obtain ⟨svc3, hsvc3⟩ : ∃ svc3, s2.svc.disconnect 1 = some svc3 := by
    simp [Service.disconnect, hpcc1]
  set s3 : RpcServer := ⟨svc3, Function.update s2.issued 1 none⟩ with hs3
  have h3 : s2.next (.disconnect 0 1) = some s3 := by
    simp [RpcServer.next, hissued, RpcServer.release, hsvc3, hs3]
  have hsecond : HasWebsocket s2.svc s1.svc.fresh := hasWebsocket_connected _ _
  have hno : ¬ StatusMatches s3 := by
    rw [statusMatches_release_iff hvalid2 (RpcServer.next_disconnect h3).2]
    exact fun h => h _ hne hsecond
  refine ⟨_, s3, Run.cons h1 (Run.cons h2 (Run.cons h3 (.nil _))), ?_, ?_, fun h => ?_⟩
  · exact ⟨s1.svc.fresh, (hasWebsocket_disconnect_iff hvalid2.svc hsvc3 _).mpr ⟨hne, hsecond⟩⟩
  · obtain ⟨_, -, he⟩ := Option.map_eq_some_iff.mp hsvc3
    rw [hs3, ← he]
    rfl
  · exact hno (h ⟨s2, .disconnect 0 1, s3⟩ (by simp))

/-! ## Leaks -/

/-- The contexts on the heap are those of the issued handles, and the registrations are those of
these contexts. -/
structure NoLeak (s : RpcServer) : Prop where
  heap : ∀ p, (s.svc.heap p).isSome = true ↔ (s.issued p).isSome = true
  lineApps : ∀ h, s.svc.lineApps h = true ↔ ∃ p pcc, (s.issued p).isSome = true ∧
    s.svc.heap p = some pcc ∧ pcc.bInited = true ∧ pcc.appHandle = some h

/-- The condition on a call: a `ConnectToServer` finds a configuration that it can read and log
in with. -/
def FindsConfig (_ : RpcServer) : ServerCall → Prop
  | .connectToServer _ a => ConfigReadable a.platform a.buffers a.key
  | .disconnect _ _ | .rundown _ => True

/-- In a valid state it is enough to look at the heap.

**Proof sketch.** In a valid state issued handles are of contexts on the heap, and registrations of
contexts that have them. -/
theorem noLeak_iff_heap {s : RpcServer} (hs : s.Valid) :
    NoLeak s ↔ ∀ p, (s.svc.heap p).isSome = true → (s.issued p).isSome = true := by
  constructor
  · exact fun h p hp => (h.heap p).mp hp
  · intro h
    refine ⟨fun p => ⟨h p, hs.issued p⟩, fun k => ?_⟩
    rw [hs.svc.lineApps k]
    constructor
    · intro h'
      obtain ⟨p, pcc, hp, hk⟩ := h'
      have hi := hs.svc.inited p pcc hp
      rw [hk] at hi
      exact ⟨p, pcc, h p (by rw [hp]; rfl), hp, hi, hk⟩
    · intro h'
      obtain ⟨p, pcc, -, hp, -, hk⟩ := h'
      exact ⟨p, pcc, hp, hk⟩

/-- Releasing a handle leaks nothing. -/
theorem noLeak_release {s s' : RpcServer} (hs : s.Valid) (hleak : NoLeak s) {p : Ptr}
    (h : s.release p = some s') : NoLeak s' := by
  obtain ⟨pcc, hp, hsvc, hissued⟩ := RpcServer.release_eq_some h
  rw [noLeak_iff_heap (hs.release h)]
  intro q hq
  rw [Service.heap_disconnect hsvc] at hq
  have hne : q ≠ p := by
    rintro rfl
    simp at hq
  rw [Function.update_of_ne hne] at hq
  rw [hissued, Function.update_of_ne hne]
  exact (hleak.heap q).mp hq

/-- A connect leaks nothing exactly when it finds a configuration that it can use.

**Proof sketch.** By the ways in which a connect ends: the context is left behind, deleted, or
issued. -/
theorem noLeak_connect_iff {s s' : RpcServer} (hs : s.Valid) (hleak : NoLeak s) {c : ClientId}
    {a : ConnectCall} (h : s.connect c a = some s') :
    NoLeak s' ↔ ConfigReadable a.platform a.buffers a.key := by
  have hvalid : s'.Valid := hs.next (show s.next (.connectToServer c a) = some s' from h)
  obtain ⟨pcc, -, -, hcases⟩ := RpcServer.connect_eq_some h
  rw [noLeak_iff_heap hvalid]
  rcases hcases with ⟨hread, rfl⟩ | ⟨hread, rfl | rfl⟩
  · refine iff_of_false (fun hall => ?_) hread
    have := hall s.svc.fresh (by simp)
    rw [hs.issued_fresh] at this
    simp at this
  · refine iff_of_true (fun q hq => ?_) hread
    rw [Service.heap_deleteContext] at hq
    have hne : q ≠ s.svc.fresh := by
      rintro rfl
      simp at hq
    rw [Function.update_of_ne hne, Service.heap_allocate, Function.update_of_ne hne] at hq
    exact (hleak.heap q).mp hq
  · refine iff_of_true (fun q hq => ?_) hread
    by_cases hqf : q = s.svc.fresh
    · rw [hqf]
      simp
    · rw [(Service.heap_connected s.svc pcc a.connectToWS).2 q hqf] at hq
      simp only [Function.update_of_ne hqf]
      exact (hleak.heap q).mp hq

/-- **Leaks.** In every run of connects, disconnects and rundowns, the contexts and their
registrations are exactly those of the handles that are issued and not released, in every state
reached, exactly when every `ConnectToServer` finds a configuration that it can read and log in
with.

**Proof sketch.** A connect that does not find one raises in `GetConfigInfo` and leaves its
context behind, which no handle names. Every other way in which it ends, and every release,
deletes the context or has issued its handle. -/
theorem noLeak_iff (tr : List (Step RpcServer ServerCall)) (s' : RpcServer)
    (h : Run RpcServer.next .start tr s') :
    (∀ t ∈ tr, NoLeak t.post) ↔ ∀ t ∈ tr, FindsConfig t.pre t.label := by
  refine h.forall_post_iff (fun _ _ _ hs hn => hs.next hn) ?_ RpcServer.Valid.start ?_
  · intro s e s' hs hleak hn
    cases e with
    | connectToServer c a => exact noLeak_connect_iff hs hleak hn
    | disconnect c p =>
      exact iff_of_true (noLeak_release hs hleak (RpcServer.next_disconnect hn).2) trivial
    | rundown p =>
      exact iff_of_true (noLeak_release hs hleak (RpcServer.next_rundown hn).2) trivial
  · rw [noLeak_iff_heap RpcServer.Valid.start]
    simp [RpcServer.start, Service.start]

/-- A `ConnectToServer` that finds a configured user, with whom `GetConfigInfo` logs in; its own
login then fails. -/
def refusedCall : ConnectCall := { openCall true with http := fun _ => ⟨6, [], []⟩ }

/-- A client connects and is lost and run down, and the login of another one is refused.

**Proof sketch.** Both calls find a configuration that `GetConfigInfo` reads and logs in with, which
is all that the condition asks for. -/
theorem noLeak_two_clients :
    ∃ tr s', Run RpcServer.next .start tr s' ∧ (∃ t ∈ tr, t.label = .rundown 1) ∧
      (∃ t ∈ tr, t.label = .connectToServer 1 refusedCall) ∧ (∀ p, s'.issued p = none) ∧
      ∀ t ∈ tr, NoLeak t.post := by
  obtain ⟨pcc, h1⟩ := next_openCall .start 0 true
  set s1 : RpcServer := ⟨Service.start.connected pcc true,
    Function.update RpcServer.start.issued 1 (some 0)⟩ with hs1
  have hvalid1 : s1.Valid := RpcServer.Valid.start.next h1
  obtain ⟨s2, hs2, hissued2⟩ := RpcServer.exists_release hvalid1 (p := 1) rfl
  have hissued1 : (s1.issued 1).isSome = true := rfl
  have h2 : s1.next (.rundown 1) = some s2 := by
    rw [RpcServer.next, if_pos hissued1, hs2]
  have hread : ConfigReadable refusedCall.platform refusedCall.buffers refusedCall.key :=
    configReadable_openCall true
  have hrefused : ∀ name password, getSessionToken refusedCall.platform.parser refusedCall.http
      name password = .ok (false, []) := fun _ _ => rfl
  obtain ⟨s3, h3, hissued3⟩ : ∃ s3, s2.next (.connectToServer 1 refusedCall) = some s3 ∧
      s3.issued = s2.issued := by
    obtain ⟨pcc3, -, -, hcases⟩ := Service.connectToServer_cases s2.svc refusedCall
    rcases hcases with ⟨hno, -⟩ | ⟨-, _, _, ⟨x, hx, -⟩ | ⟨m, -, hm⟩ | ⟨t, ht, -⟩⟩
    · exact absurd hread hno
    · simp [hrefused] at hx
    · simp [RpcServer.next, RpcServer.connect, hm]
    · simp [hrefused] at ht
  have hrun := Run.cons h1 (.cons h2 (.cons h3 (.nil _)))
  refine ⟨_, s3, hrun, ⟨⟨s1, .rundown 1, s2⟩, .tail _ (.head _), rfl⟩,
    ⟨⟨s2, .connectToServer 1 refusedCall, s3⟩, .tail _ (.tail _ (.head _)), rfl⟩, fun p => ?_,
    (noLeak_iff _ _ hrun).mpr ?_⟩
  · rw [hissued3, hissued2, hs1]
    simp only [RpcServer.start, Function.update_apply]
    split_ifs <;> rfl
  · simp only [List.forall_mem_cons, List.not_mem_nil, false_implies, implies_true, and_true]
    exact ⟨configReadable_openCall true, trivial, hread⟩

/-- A client connects before a user is configured: the key does not exist, and the call raises
and leaves a context that no handle names.

**Proof sketch.** The key does not exist, so `GetConfigInfo` raises, and the context is at the first
address. -/
theorem context_leaked :
    ∃ tr s', Run RpcServer.next .start tr s' ∧ (s'.svc.heap 1).isSome = true ∧
      (∀ p, s'.issued p = none) ∧ ¬ ∀ t ∈ tr, NoLeak t.post := by
  set a : ConnectCall := { openCall true with key := .error errorFileNotFound } with ha
  have hraise : getConfigInfo a.platform a.key a.buffers =
      .error (.exception errorFileNotFound) := rfl
  obtain ⟨s', hs'⟩ : ∃ s', RpcServer.start.next (.connectToServer 0 a) = some s' := by
    simp [RpcServer.next, RpcServer.connect, Service.connectToServer, hraise]
  have hread : ¬ ConfigReadable a.platform a.buffers a.key := by
    intro h
    obtain ⟨k, _, _, _, hk, -⟩ := h
    simp [ha] at hk
  obtain ⟨pcc, -, -, ⟨-, rfl⟩ | ⟨hr, -⟩⟩ :=
    RpcServer.connect_eq_some (show RpcServer.start.connect 0 a = some s' from hs')
  · refine ⟨_, _, Run.cons hs' (.nil _), rfl, fun _ => rfl, fun hall => ?_⟩
    have hnone : NoLeak _ := hall _ List.mem_cons_self
    have hlive := (hnone.heap 1).mp rfl
    simp [RpcServer.start] at hlive
  · exact absurd hr hread

end Nuacom
