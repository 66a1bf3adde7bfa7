import Nuacom.Client.Wrapper

set_option relaxedAutoImplicit false
set_option autoImplicit false

/-!
# What the procedures run on

Any number of clients use the service, each through its wrapper, in any order, and the runtime
runs down the handles of clients that are lost. `MakeCall`, `Hangup`, `Disconnect` and the
rundown routine take the handle they are given for the address of a context.

## Main definitions

* `Nuacom.ClientSystem`, `Nuacom.ClientSystem.next` — the wrappers and the service, and the steps
  of all of them.
* `Nuacom.ClientSystem.runsOn` — the handle on which a step makes a procedure run.
* `Nuacom.RunsOnContext` — that handle is the address of a context on the heap.

## Main results

* `Nuacom.ClientSystem.exists_run_rpc` — for the service a run of the wrappers is a run of calls.
* `Nuacom.runsOnContext_iff` — the procedures run on contexts throughout a run exactly when no
  `Disconnect` gets to the service with `NULL`.

## Implementation notes

A step is a whole call, since the runtime serialises the calls on one handle. A client may call
every method from the start, also before its first `ConnectToServer`.
-/

namespace Nuacom

open Transition

/-- The wrappers of all clients, and the service. -/
structure ClientSystem where
  rpc : RpcServer
  wrapper : ClientId → CRPCWrapper
  /-- The clients that are gone, whose handles the runtime runs down. -/
  lost : ClientId → Bool

/-- The steps of the clients and of the runtime. -/
inductive SystemEvent
  | call (c : ClientId) (e : WrapperCall)
  | lost (c : ClientId)
  /-- `PCONTEXT_HANDLE_TYPE_rundown` -/
  | rundown (hConn : Ptr)

namespace ClientSystem

/-- No client has called yet; `hConn` is what the memory of each `m_hConn` holds. -/
def start (hConn : ClientId → Ptr) : ClientSystem where
  rpc := .start
  wrapper c := .create (hConn c)
  lost _ := false

def next (s : ClientSystem) : SystemEvent → Option ClientSystem
  | .call c e =>
    if s.lost c then none
    else
      (ClientState.next c ⟨s.rpc, s.wrapper c⟩ e).map fun t =>
        { s with rpc := t.rpc, wrapper := Function.update s.wrapper c t.wrapper }
  | .lost c => some { s with lost := Function.update s.lost c true }
  | .rundown hConn =>
    match s.rpc.issued hConn with
    | none => none
    | some c =>
      if s.lost c then (s.rpc.release hConn).map fun rpc => { s with rpc := rpc } else none

/-- The handle on which a step makes `MakeCall`, `Hangup`, `Disconnect` or the rundown routine
run. -/
def runsOn (s : ClientSystem) : SystemEvent → Option Ptr
  | .call c (.makeCall transport _ _ _) | .call c (.hangup transport _ _) =>
    ((s.wrapper c).dispatch s.rpc c transport .inOnly).toOption
  | .call c (.disconnect transport) =>
    ((s.wrapper c).dispatch s.rpc c transport .inOut).toOption
  | .call _ _ | .lost _ => none
  | .rundown hConn => some hConn

variable {s s' : ClientSystem} {e : SystemEvent}

/-- The handle that is run down is an issued one. -/
theorem next_rundown {hConn : Ptr} (h : s.next (.rundown hConn) = some s') :
    (s.rpc.issued hConn).isSome = true ∧ s.rpc.release hConn = some s'.rpc := by
  simp only [next] at h
  split at h
  · simp at h
  · rename_i c hissued
    split_ifs at h
    obtain ⟨rpc, hrelease, rfl⟩ := Option.map_eq_some_iff.mp h
    exact ⟨by rw [hissued]; rfl, hrelease⟩

/-- A call is a step of the wrapper of its client. -/
theorem next_call {c : ClientId} {e : WrapperCall} (h : s.next (.call c e) = some s') :
    ∃ t, ClientState.next c ⟨s.rpc, s.wrapper c⟩ e = some t ∧ s'.rpc = t.rpc := by
  simp only [next] at h
  split_ifs at h
  obtain ⟨t, ht, rfl⟩ := Option.map_eq_some_iff.mp h
  exact ⟨t, ht, rfl⟩

/-- For the service a step is one call or one rundown, or nothing.

**Proof sketch.** By cases on the step: a call is one of the wrapper, a lost client changes nothing,
a rundown is one of the service. -/
theorem rpc_next (hs : s.rpc.Valid) (h : s.next e = some s') :
    s'.rpc = s.rpc ∨ ∃ call, s.rpc.next call = some s'.rpc := by
  cases e with
  | call c e =>
    obtain ⟨t, ht, hrpc⟩ := next_call h
    rw [hrpc]
    exact ClientState.rpc_next (s := ⟨s.rpc, s.wrapper c⟩) hs ht
  | lost c =>
    obtain rfl := Option.some.inj h
    exact .inl rfl
  | rundown hConn =>
    obtain ⟨hissued, hrelease⟩ := next_rundown h
    exact .inr ⟨.rundown hConn, by rw [RpcServer.next, if_pos hissued, hrelease]⟩

/-- A step keeps the state of the service valid. -/
theorem valid_next (hs : s.rpc.Valid) (h : s.next e = some s') : s'.rpc.Valid := by
  rcases rpc_next hs h with hrpc | ⟨call, hcall⟩
  · rw [hrpc]
    exact hs
  · exact hs.next hcall

/-- **The service behind the wrappers.** What the service does in a run of the wrappers is a run
of connects, disconnects and rundowns. -/
theorem exists_run_rpc {hConn : ClientId → Ptr} {tr : List (Step ClientSystem SystemEvent)}
    (h : Run next (start hConn) tr s') : ∃ tr', Run RpcServer.next .start tr' s'.rpc :=
  h.exists_map rpc (I := fun s => s.rpc.Valid) (fun _ _ _ hs hn => valid_next hs hn)
    (fun _ _ _ hs hn => rpc_next hs hn) RpcServer.Valid.start

end ClientSystem

/-! ## The procedures and their contexts -/

/-- A procedure that the step makes run has the address of a context for its handle. -/
def RunsOnContext (s : ClientSystem) (e : SystemEvent) : Prop :=
  ∀ p, s.runsOn e = some p → p ≠ 0 ∧ (s.rpc.svc.heap p).isSome = true

/-- The condition on a step: a `Disconnect` that gets to the service has a handle to give. -/
def DisconnectsConnected (s : ClientSystem) : SystemEvent → Prop
  | .call c (.disconnect transport) =>
    (s.wrapper c).deliver transport = .ok () → (s.wrapper c).hConn ≠ 0
  | _ => True

section Runs

variable {s : ClientSystem}

/-- A procedure whose handle is only an input runs on a context. -/
theorem context_of_inOnly (hs : s.rpc.Valid) {c : ClientId} {transport : Transport} {p : Ptr}
    (h : ((s.wrapper c).dispatch s.rpc c transport .inOnly).toOption = some p) :
    p ≠ 0 ∧ (s.rpc.svc.heap p).isSome = true := by
  cases hd : (s.wrapper c).dispatch s.rpc c transport .inOnly with
  | error status => simp [hd, Except.toOption] at h
  | ok hConn =>
    obtain rfl : hConn = p := by simpa [hd, Except.toOption] using h
    obtain ⟨-, rfl, hissued | ⟨-, hdir⟩⟩ := dispatch_ok hd
    · exact hs.context_of_issued (by rw [hissued]; rfl)
    · simp at hdir

/-- `Disconnect` runs on a context exactly when it does not get to the service with `NULL`.

**Proof sketch.** A `Disconnect` that is delivered passes `m_hConn`. Where that is `NULL` it runs on
no context, and where it is not, the runtime has found it among the issued handles. -/
theorem runsOnContext_disconnect_iff (hs : s.rpc.Valid) (c : ClientId) (transport : Transport) :
    RunsOnContext s (.call c (.disconnect transport)) ↔
      DisconnectsConnected s (.call c (.disconnect transport)) := by
  constructor
  · intro hruns hdeliver hnull
    refine (hruns 0 ?_).1 rfl
    simp [ClientSystem.runsOn, CRPCWrapper.dispatch, hdeliver, RpcServer.admit, hnull,
      Except.toOption]
  · intro hconnected p hp
    simp only [ClientSystem.runsOn] at hp
    cases hdeliver : (s.wrapper c).deliver transport with
    | error status => simp [CRPCWrapper.dispatch, hdeliver, Except.toOption] at hp
    | ok _ =>
      cases hd : (s.wrapper c).dispatch s.rpc c transport .inOut with
      | error status => simp [hd, Except.toOption] at hp
      | ok hConn =>
        obtain rfl : hConn = p := by simpa [hd, Except.toOption] using hp
        obtain ⟨-, rfl, hissued | ⟨hnull, -⟩⟩ := dispatch_ok hd
        · exact hs.context_of_issued (by rw [hissued]; rfl)
        · exact absurd hnull (hconnected hdeliver)

/-- A step makes its procedure run on a context exactly when it meets the condition.

**Proof sketch.** By cases on the step. All but `Disconnect` run on an issued handle or on none. -/
theorem runsOnContext_step_iff (hs : s.rpc.Valid) {e : SystemEvent} {s' : ClientSystem}
    (h : s.next e = some s') : RunsOnContext s e ↔ DisconnectsConnected s e := by
  cases e with
  | lost c => exact iff_of_true (fun p hp => by simp [ClientSystem.runsOn] at hp) trivial
  | rundown hConn =>
    refine iff_of_true (fun p hp => ?_) trivial
    obtain rfl : hConn = p := Option.some.inj hp
    exact hs.context_of_issued (ClientSystem.next_rundown h).1
  | call c e =>
    cases e with
    | makeCall transport _ _ _ =>
      exact iff_of_true (fun p hp => context_of_inOnly hs hp) trivial
    | hangup transport _ _ =>
      exact iff_of_true (fun p hp => context_of_inOnly hs hp) trivial
    | disconnect transport => exact runsOnContext_disconnect_iff hs c transport
    | init => exact iff_of_true (fun p hp => by simp [ClientSystem.runsOn] at hp) trivial
    | connectToServer =>
      exact iff_of_true (fun p hp => by simp [ClientSystem.runsOn] at hp) trivial
    | getConnectionStatus =>
      exact iff_of_true (fun p hp => by simp [ClientSystem.runsOn] at hp) trivial

end Runs

/-- **Procedures and contexts.** In every run of any number of wrappers, with any rundowns of
lost clients, whenever the body of `MakeCall`, `Hangup`, `Disconnect` or the rundown routine
runs, its handle is the address of a context on the heap, exactly when no `Disconnect` gets to
the service from a wrapper whose `m_hConn` is `NULL`.

**Proof sketch.** The runtime lets a handle that is not `NULL` pass only while it is issued, and
an issued handle is that of a context in every state reached. `NULL` it lets pass in
`Disconnect` alone. -/
theorem runsOnContext_iff (hConn : ClientId → Ptr) (tr : List (Step ClientSystem SystemEvent))
    (s' : ClientSystem) (h : Run ClientSystem.next (.start hConn) tr s') :
    (∀ t ∈ tr, RunsOnContext t.pre t.label) ↔
      ∀ t ∈ tr, DisconnectsConnected t.pre t.label := by
  have hvalid := (h.forall_step (I := fun s => s.rpc.Valid)
    (fun _ _ _ hs hn => ClientSystem.valid_next hs hn) RpcServer.Valid.start).1
  exact forall₂_congr fun t ht =>
    runsOnContext_step_iff (hvalid t ht).1 (h.next_of_mem t ht)

/-! ## Runs of one client -/

/-- The system in which client 0 has a bound wrapper. -/
private def boundSystem (rpc : RpcServer) (hConn : Ptr) : ClientSystem where
  rpc := rpc
  wrapper := Function.update (fun _ => .create 0) 0 (boundWrapper hConn)
  lost _ := false

/-- A call of client 0, as one of its wrapper alone. -/
private theorem next_boundSystem {rpc rpc' : RpcServer} {hConn hConn' : Ptr} {e : WrapperCall}
    (h : ClientState.next 0 ⟨rpc, boundWrapper hConn⟩ e = some ⟨rpc', boundWrapper hConn'⟩) :
    (boundSystem rpc hConn).next (.call 0 e) = some (boundSystem rpc' hConn') := by
  have hw : (boundSystem rpc hConn).wrapper 0 = boundWrapper hConn := rfl
  have hrpc : (boundSystem rpc hConn).rpc = rpc := rfl
  simp only [ClientSystem.next, hw, hrpc, h, Option.map_some]
  simp [boundSystem]

/-- Client 0 has bound its wrapper, connected and disconnected. -/
private theorem exists_run_disconnected : ∃ tr rpc,
    Run ClientSystem.next (.start fun _ => 0) tr (boundSystem rpc 0) ∧
      ∀ t ∈ tr, DisconnectsConnected t.pre t.label := by
  have h1 : (ClientSystem.start fun _ => 0).next (.call 0 initCall) =
      some (boundSystem .start 0) := rfl
  obtain ⟨svc, hconnect⟩ := next_openConnect 0 .start 0 true
  have hvalid := ClientState.valid_next (s := ⟨.start, boundWrapper 0⟩)
    RpcServer.Valid.start hconnect
  have h2 := next_boundSystem hconnect
  set rpc2 : RpcServer := ⟨svc, Function.update RpcServer.start.issued
    RpcServer.start.svc.fresh (some 0)⟩ with hrpc2
  obtain ⟨rpc3, hdisconnect⟩ : ∃ rpc3, ClientState.next 0 ⟨rpc2, boundWrapper 1⟩
      (.disconnect (.ok ())) = some ⟨rpc3, boundWrapper 0⟩ := by
    obtain ⟨rpc3, -, hrpc3⟩ := disconnect_of_issued (s := rpc2) (c := 0) (w := boundWrapper 1)
      hvalid (show (boundWrapper 1).deliver (.ok ()) = .ok () from rfl) rfl
    refine ⟨rpc3, ?_⟩
    simp only [ClientState.next, hrpc3]
    rfl
  refine ⟨_, rpc3, .cons h1 (.cons h2 (.cons (next_boundSystem hdisconnect) (.nil _))), ?_⟩
  simp only [List.forall_mem_cons, List.not_mem_nil, false_implies, implies_true, and_true]
  exact ⟨trivial, trivial, fun _ => Nat.one_ne_zero⟩

/-- A client that connects and disconnects. -/
theorem runsOnContext_disconnected :
    ∃ tr s', Run ClientSystem.next (.start fun _ => 0) tr s' ∧ (s'.wrapper 0).hConn = 0 ∧
      ∀ t ∈ tr, RunsOnContext t.pre t.label := by
  obtain ⟨tr, rpc, hrun, hcond⟩ := exists_run_disconnected
  exact ⟨tr, _, hrun, rfl, (runsOnContext_iff _ tr _ hrun).mpr hcond⟩

/-- A client that disconnects once more: the procedure runs on `NULL`. -/
theorem disconnect_runs_on_null :
    ∃ tr s', Run ClientSystem.next (.start fun _ => 0) tr s' ∧
      ¬ ∀ t ∈ tr, RunsOnContext t.pre t.label := by
  obtain ⟨tr, rpc, hrun, -⟩ := exists_run_disconnected
  have hlast : (boundSystem rpc 0).runsOn (.call 0 (.disconnect (.ok ()))) = some 0 := rfl
  obtain ⟨s', hs'⟩ : ∃ s', (boundSystem rpc 0).next (.call 0 (.disconnect (.ok ()))) = some s' :=
    ⟨_, rfl⟩
  refine ⟨_, s', hrun.concat hs', fun hall => ?_⟩
  have hcontext := hall ⟨boundSystem rpc 0, .call 0 (.disconnect (.ok ())), s'⟩ (by simp)
  exact (hcontext 0 hlast).1 rfl

end Nuacom
