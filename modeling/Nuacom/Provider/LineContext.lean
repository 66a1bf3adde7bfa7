import Nuacom.Provider.LineCalls

set_option relaxedAutoImplicit false
set_option autoImplicit false

/-!
# A line and its context in the service

A line connects to the service when the first call is placed on it, and disconnects when it is
closed. In between the service keeps a context for it, beside those of its other clients, which
connect, disconnect and are lost meanwhile.

## Main definitions

* `Nuacom.LineState.serviceNext` — the steps of a line and of the other clients.
* `Nuacom.LineState.OwnsContext` — the line has one context, or none, and knows which.
* `Nuacom.LineState.ExceptionsFail` — the condition on the runtime.

## Main results

* `Nuacom.LineState.ownsContext_run` — this is so in every run, and calls are placed on the context
  that the line has.
* `Nuacom.LineState.nothing_left_iff` — after the line is closed nothing is left of it in the
  service exactly when its `Disconnect` got there.

## Implementation notes

The client `c` is the line; the other clients are not, and the runtime runs down handles of lost
clients only.
-/

namespace Nuacom

open CString Transition

/-! ## The line and the other clients -/

/-- The call is not one of the client `c`, nor about a handle of it. -/
def ServerCall.Foreign (s : RpcServer) (c : ClientId) : ServerCall → Prop
  | connectToServer c' _ => c' ≠ c
  | disconnect c' _ => c' ≠ c
  | rundown hConn => s.issued hConn ≠ some c

instance (s : RpcServer) (c : ClientId) (e : ServerCall) : Decidable (e.Foreign s c) :=
  match e with
  | .connectToServer c' _ => inferInstanceAs (Decidable (c' ≠ c))
  | .disconnect c' _ => inferInstanceAs (Decidable (c' ≠ c))
  | .rundown hConn => inferInstanceAs (Decidable (s.issued hConn ≠ some c))

/-- Who moves: the line, or another client of the service. -/
inductive ServiceLabel
  | line (e : LineLabel)
  | other (e : ServerCall)

namespace LineState

variable (g : Globals) (c : ClientId) (self : UInt64)

/-- The steps of a line and of the other clients. -/
def serviceNext (s : LineState) : ServiceLabel → Option LineState
  | .line e => s.next g c self e
  | .other e => if e.Foreign s.rpc c then (s.rpc.next e).map fun rpc => { s with rpc := rpc }
    else none

/-- The piece that goes in a step. -/
def serviceGoes (s : LineState) : ServiceLabel → Option Task
  | .line e => s.goes e
  | .other _ => none

/-- The line has a context exactly when it is connected and its handle is not `NULL`, and then it is
the one of the handle. -/
def OwnsContext (s : LineState) : Prop :=
  ∀ p, s.rpc.issued p = some c ↔
    s.line.bConnected = true ∧ s.line.rpcw.hConn ≠ 0 ∧ p = s.line.rpcw.hConn

/-- The answer to `rpcw.ConnectToServer` is not an exception whose code is `RPC_S_OK`. -/
def ExceptionsFail (s : LineState) : ServiceLabel → Prop
  | .line (.tapi (.connectToServer transport call)) => transport ≠ .error rpcSOk ∧
      (s.rpc.svc.connectToServer { call with
        hCallback := self
        providerId := s.line.dwDeviceID
        connectToWS := g.gbHandleIncomingCalls ≠ 0 }).2 ≠ .error (.exception rpcSOk)
  | _ => True

end LineState

/-- What another client does leaves the handles of `c` as they are.

**Proof sketch.** By cases on the call: it issues a new handle to another client, or takes one back
that is not issued to `c`. -/
theorem RpcServer.Valid.issued_foreign {s s' : RpcServer} (hs : s.Valid) {c : ClientId}
    {e : ServerCall} (he : e.Foreign s c) (h : s.next e = some s') (p : Ptr) :
    s'.issued p = some c ↔ s.issued p = some c := by
  cases e with
  | connectToServer c' a =>
    obtain ⟨pcc, -, -, hcases⟩ := connect_eq_some h
    rcases hcases with ⟨-, rfl⟩ | ⟨-, rfl | rfl⟩
    · exact Iff.rfl
    · exact Iff.rfl
    · show Function.update s.issued s.svc.fresh (some c') p = some c ↔ _
      by_cases hp : p = s.svc.fresh
      · rw [hp, hs.issued_fresh, Function.update_self]
        exact iff_of_false (fun h => he (Option.some.inj h)) (by simp)
      · rw [Function.update_of_ne hp]
  | disconnect c' q =>
    obtain ⟨howner, hrelease⟩ := next_disconnect h
    obtain ⟨-, -, -, hissued⟩ := release_eq_some hrelease
    rw [hissued]
    by_cases hp : p = q
    · rw [hp, howner, Function.update_self]
      exact iff_of_false (by simp) (fun h => he (Option.some.inj h))
    · rw [Function.update_of_ne hp]
  | rundown q =>
    obtain ⟨-, hrelease⟩ := next_rundown h
    obtain ⟨-, -, -, hissued⟩ := release_eq_some hrelease
    rw [hissued]
    by_cases hp : p = q
    · rw [hp, Function.update_self]
      exact iff_of_false (by simp) he
    · rw [Function.update_of_ne hp]

section Cases

variable {g : Globals} {c : ClientId} {self : UInt64} {s s' : LineState} {t : Task} {o : Outcome}

/-- The pieces that have to do with the service. -/
def Task.Serves : Task → Prop
  | rpcInit _ | rpcConnectToServer _ | disconnect => True
  | _ => False

/-- `Init` leaves the handle as it is, and a binding that there is. -/
theorem init_keeps (w : CRPCWrapper) (api : BindingApi) (pszProtocolSequence pszEndpoint : Bytes) :
    (w.init api pszProtocolSequence pszEndpoint).1.hConn = w.hConn ∧
      (w.binding ≠ none → (w.init api pszProtocolSequence pszEndpoint).1.binding ≠ none) := by
  unfold CRPCWrapper.init
  split
  · exact ⟨rfl, id⟩
  · split
    · exact ⟨rfl, id⟩
    · exact ⟨rfl, fun _ => by simp⟩

/-- The other pieces leave the service and the handle as they are. -/
theorem Performs.rpc_of_not_serves (h : Performs g c self s t s' o) (ht : ¬ t.Serves) :
    s'.rpc = s.rpc ∧ s'.line.rpcw = s.line.rpcw ∧ s'.line.bConnected = s.line.bConnected := by
  cases h
  case getCallInfo =>
    unfold DrvLine.fillCalleeName
    split_ifs <;> exact ⟨rfl, rfl, rfl⟩
  all_goals first
    | exact absurd trivial ht
    | exact ⟨rfl, rfl, rfl⟩

end Cases

/-! ## One context -/

/-- The piece goes on an unconnected line, or on one that has its context. -/
def Task.ReadyIn (s : LineState) : Task → Prop
  | rpcInit _ | rpcConnectToServer _ => s.line.bConnected = false
  | takeCall _ | rpcMakeCall _ => s.line.bConnected = true ∧ s.line.rpcw.hConn ≠ 0
  | _ => True

/-- Pieces that are not of a call that is being placed are always ready. -/
theorem Task.readyIn_of_callArgs {s : LineState} {t : Task} (h : t.callArgs = none) :
    t.ReadyIn s := by
  cases t <;> trivial

/-- Whether a piece is ready depends on the wrapper and on `bConnected`. -/
theorem Task.ReadyIn.congr {s s' : LineState} {t : Task} (h : t.ReadyIn s)
    (hrpcw : s'.line.rpcw = s.line.rpcw) (hconn : s'.line.bConnected = s.line.bConnected) :
    t.ReadyIn s' := by
  unfold ReadyIn at h ⊢
  rw [hrpcw, hconn]
  exact h

/-- The pieces of the watchdog have nothing to do with the service. -/
theorem Task.Watch.not_serves {t : Task} (h : t.Watch) : ¬ t.Serves := by
  cases t <;> first | exact id | exact absurd h id

section Ready

variable {g : Globals} {c : ClientId} {self : UInt64} {s s' : LineState} {t : Task} {o : Outcome}

/-- The pieces are not of a call that is being placed, or there is one of them, which is ready. -/
def Outcome.ReadyIn (s : LineState) (o : Outcome) : Prop :=
  (∀ u ∈ o.tasks, u.callArgs = none) ∨ ∃ u, o = .go [u] ∧ u.ReadyIn s

/-- The next piece is ready, and behind it there is none of a call that is being placed.

**Proof sketch.** What follows is the one piece, or pieces of which none belongs to a call that is
being placed. -/
theorem Outcome.ReadyIn.followedBy (ho : o.ReadyIn s) {rest : List Task}
    (hrest : ∀ u ∈ rest, u.callArgs = none) (t : Task) (rest' : List Task)
    (h : o.followedBy rest = t :: rest') :
    (∀ u ∈ rest', u.callArgs = none) ∧ t.ReadyIn s := by
  rcases ho with hnone | ⟨u, rfl, hu⟩
  · have hall : ∀ u ∈ o.followedBy rest, u.callArgs = none := by
      cases o with
      | threw => simp [followedBy]
      | go ts => exact List.forall_mem_append.mpr ⟨hnone, hrest⟩
    rw [h] at hall
    obtain ⟨ht, hrest'⟩ := List.forall_mem_cons.mp hall
    exact ⟨hrest', Task.readyIn_of_callArgs ht⟩
  · obtain ⟨rfl, rfl⟩ := List.cons.inj h
    exact ⟨hrest, hu⟩

/-- The piece that follows in a call that is being placed is ready.

**Proof sketch.** By cases on the piece. -/
theorem Performs.readyIn (h : Performs g c self s t s' o) (ht : t.ReadyIn s)
    (hserves : ∀ a, t ≠ .rpcConnectToServer a)
    (hopen : ∀ a, t = .connectToServer a → s.line.bConnected = true → s.line.rpcw.hConn ≠ 0) :
    o.ReadyIn s' := by
  cases h
  case makeCall_free => exact .inr ⟨_, rfl, trivial⟩
  case connected a hconn => exact .inr ⟨_, rfl, hconn, hopen a rfl hconn⟩
  case unconnected hconn => exact .inr ⟨_, rfl, hconn⟩
  case rpcInit =>
    refine .inr ⟨_, rfl, ?_⟩
    split_ifs
    · exact ht
    · trivial
  case rpcConnectToServer a _ _ _ _ _ _ _ => exact absurd rfl (hserves a)
  case takeCall => exact .inr ⟨_, rfl, ht⟩
  case rpcMakeCall =>
    refine .inl ?_
    unfold Outcome.tasks callMade failCall
    split_ifs <;> simp [Task.callArgs]
  case setCallStatus =>
    refine .inl ?_
    unfold Outcome.tasks callStatusTasks giveUp
    split_ifs <;> simp [Task.callArgs]
  case processCallMessage =>
    refine .inl ?_
    unfold Outcome.tasks
    split_ifs <;> simp [Task.callArgs]
  case processMessage =>
    refine .inl fun u hu => ?_
    obtain ⟨v, -, rfl⟩ := List.mem_map.mp hu
    rfl
  all_goals exact .inl (by simp [Outcome.tasks, Task.callArgs, failCall, giveUp])

/-- A function begins with a piece that is ready.

**Proof sketch.** By the function. -/
theorem TspiCall.readyIn (f : TspiCall) (t : Task) (rest : List Task) (h : f.tasks = t :: rest) :
    (∀ u ∈ rest, u.callArgs = none) ∧ t.ReadyIn s := by
  cases f with
  | lineMakeCall a =>
    obtain ⟨rfl, rfl⟩ := List.cons.inj h
    exact ⟨by simp, trivial⟩
  | lineDevSpecific dwRequestID pmh =>
    have hall : ∀ u ∈ t :: rest, u.callArgs = none := by
      rw [← h]
      intro u hu
      rcases List.mem_append.mp hu with hu | hu
      · obtain ⟨m, -, rfl⟩ := List.mem_map.mp hu
        rfl
      · rcases List.mem_pair.mp hu with rfl | rfl <;> rfl
    obtain ⟨ht, hrest⟩ := List.forall_mem_cons.mp hall
    exact ⟨hrest, Task.readyIn_of_callArgs ht⟩
  | _ =>
    obtain ⟨rfl, rfl⟩ := List.cons.inj h
    exact ⟨by simp [Task.callArgs], trivial⟩

end Ready

namespace LineState

/-- `TSPI_lineClose` has disconnected the line. -/
def Closed (s : LineState) : Prop := s.deleted = true ∨ s.tapi = [.delete, .leave (.ok 0)]

/-- What holds of the context of a line at any moment. -/
structure HoldsContext (c : ClientId) (s : LineState) : Prop where
  valid : s.rpc.Valid
  owns : s.OwnsContext c
  watch : s.WatchdogWatches
  closes : s.Closes
  bound : s.line.bConnected = true → s.line.rpcw.binding ≠ none
  connected : s.line.bConnected = true → s.line.rpcw.hConn ≠ 0 ∨ s.Closed
  disconnect : .disconnect ∈ s.tapi → .delete ∈ s.tapi
  ready : ∀ t rest, s.tapi = t :: rest → (∀ u ∈ rest, u.callArgs = none) ∧ t.ReadyIn s

/-- A line that is opened has no context, and neither has its client. -/
theorem HoldsContext.opened {c : ClientId} {rpc : RpcServer} (hs : rpc.Valid)
    (hnew : ∀ p, rpc.issued p ≠ some c) (dwDeviceID : UInt32) (hConn : Ptr) :
    (opened rpc dwDeviceID hConn).HoldsContext c where
  valid := hs
  owns p := iff_of_false (hnew p) (by simp [LineState.opened, DrvLine.create])
  watch ts hts := by simp [LineState.opened] at hts
  closes := ⟨by simp [LineState.opened], by simp [LineState.opened]⟩
  bound h := by simp [LineState.opened, DrvLine.create] at h
  connected h := by simp [LineState.opened, DrvLine.create] at h
  disconnect h := by simp [LineState.opened] at h
  ready t rest h := by simp [LineState.opened] at h

section Step

variable {g : Globals} {c : ClientId} {self : UInt64} {s s' : LineState}

/-- A line that is not closed and is connected has its context. -/
theorem HoldsContext.issued (hs : s.HoldsContext c) (hconn : s.line.bConnected = true)
    (hopen : ¬ s.Closed) : s.line.rpcw.hConn ≠ 0 ∧ s.rpc.issued s.line.rpcw.hConn = some c := by
  have hne := (hs.connected hconn).resolve_right hopen
  exact ⟨hne, (hs.owns _).mpr ⟨hconn, hne, rfl⟩⟩

/-- A function that does something else than to return is one of a line that is not closed. -/
theorem HoldsContext.not_closed (hs : s.HoldsContext c) {t : Task} {rest : List Task}
    (htapi : s.tapi = t :: rest) (hdelete : t ≠ .delete) (hleave : ∀ r, t ≠ .leave r) :
    ¬ s.Closed := by
  rintro (hdel | hdel)
  · obtain ⟨-, hleft | hleft⟩ := hs.closes.deleted hdel
    · exact hleave _ (List.cons.inj (htapi.symm.trans hleft)).1
    · simp [htapi] at hleft
  · exact hdelete (List.cons.inj (htapi.symm.trans hdel)).1

/-- A `rpcw.ConnectToServer` of an unconnected line: it gets a context and goes on, or it gets none
and the function returns.

**Proof sketch.** By the delivery and then by the login. The runtime raises no `RPC_S_OK`, so that
status means that the line has got its context. -/
theorem connect_cases (hs : s.rpc.Valid) (hconn : s.line.bConnected = false) {a : MakeCallArgs}
    {transport : Transport} {call : ConnectCall} {o : Outcome}
    (hfail : s.ExceptionsFail g self (.line (.tapi (.connectToServer transport call))))
    (h : s.rpcConnectToServer g c self a transport call = some (s', o)) :
    s'.rpc.Valid ∧ s'.deleted = s.deleted ∧ s'.wdThread = s.wdThread ∧
      ((s'.line.bConnected = true ∧ s'.line.rpcw.binding ≠ none ∧ s'.line.rpcw.hConn ≠ 0 ∧
          s'.line.rpcw.hConn = s.rpc.svc.fresh ∧
          s'.rpc.issued = Function.update s.rpc.issued s.rpc.svc.fresh (some c) ∧
          o = .go [.takeCall a]) ∨
        (s'.line.bConnected = false ∧ s'.rpc.issued = s.rpc.issued ∧
          o = .go [.leave (.error .operationFailed)])) := by
  obtain ⟨htransport, hservice⟩ := hfail
  obtain ⟨⟨rpc, rpcw, status⟩, hr, heq⟩ := Option.map_eq_some_iff.mp h
  set sent : ConnectCall := { call with
    hCallback := self
    providerId := s.line.dwDeviceID
    connectToWS := g.gbHandleIncomingCalls ≠ 0 } with hsent
  have hreturns : status ≠ rpcSOk →
      s'.rpc = rpc ∧ s'.deleted = s.deleted ∧ s'.wdThread = s.wdThread ∧
        s'.line.bConnected = s.line.bConnected ∧ o = .go [.leave (.error .operationFailed)] := by
    intro hstatus
    simp only [hstatus, if_false, Prod.mk.injEq] at heq
    obtain ⟨rfl, rfl⟩ := heq
    exact ⟨rfl, rfl, rfl, rfl, rfl⟩
  cases hd : s.line.rpcw.deliver transport with
  | error e =>
    have hne : e ≠ rpcSOk := by
      unfold CRPCWrapper.deliver at hd
      split at hd
      · obtain rfl := Except.error.inj hd
        decide
      · rintro rfl
        exact htransport hd
    simp only [CRPCWrapper.connectToServer, hd, Option.some.injEq, Prod.mk.injEq] at hr
    obtain ⟨rfl, rfl, rfl⟩ := hr
    obtain ⟨hrpc, hdeleted, hwd, hline, ho⟩ := hreturns hne
    exact ⟨hrpc ▸ hs, hdeleted, hwd, .inr ⟨hline.trans hconn, by rw [hrpc], ho⟩⟩
  | ok _ =>
    by_cases hlogin : sent.LogsIn
    · obtain ⟨svc, hw, hconnect⟩ := connectToServer_of_logsIn (s := s.rpc) (c := c) hd hlogin
      have hbound : s.line.rpcw.binding ≠ none := by
        intro hnone
        simp [CRPCWrapper.deliver, hnone] at hd
      simp only [hw, Option.some.injEq, Prod.mk.injEq] at hr
      obtain ⟨rfl, rfl, rfl⟩ := hr
      simp only [if_true, Prod.mk.injEq] at heq
      obtain ⟨rfl, rfl⟩ := heq
      have hvalid : RpcServer.Valid _ := hs.next (e := .connectToServer c sent) hconnect
      exact ⟨hvalid, rfl, rfl, .inl ⟨rfl, hbound, hs.svc.fresh_pos.ne', rfl, rfl, rfl⟩⟩
    · obtain ⟨hissued, hw, hconnect⟩ := connectToServer_of_not_logsIn hd hlogin hr
      have hne : status ≠ rpcSOk := by
        rintro rfl
        simp only [CRPCWrapper.connectToServer, hd] at hr
        split at hr
        · rename_i svc p hsvc
          exact hlogin ((connectToServer_ok_iff s.rpc.svc sent).mp ⟨svc, p, hsvc⟩)
        · rename_i svc e hsvc
          simp only [Option.some.injEq, Prod.mk.injEq] at hr
          obtain ⟨-, -, rfl⟩ := hr
          exact hservice (by rw [hsvc])
        · simp at hr
      obtain ⟨hrpc, hdeleted, hwd, hline, ho⟩ := hreturns hne
      exact ⟨hrpc ▸ hs.next (e := .connectToServer c sent) hconnect, hdeleted, hwd,
        .inr ⟨hline.trans hconn, by rw [hrpc]; exact hissued, ho⟩⟩

/-- The `rpcw.Disconnect` of a line that has its context: it gets there, and the context is gone, or
it does not, and nothing happens.

**Proof sketch.** The line has a binding and an issued handle, so only the transport decides. -/
theorem HoldsContext.disconnect_cases (hs : s.HoldsContext c) (hconn : s.line.bConnected = true)
    (hopen : ¬ s.Closed) (transport : Transport) :
    (transport = .ok () ∧ ∃ rpc, s.rpc.release s.line.rpcw.hConn = some rpc ∧
        s.line.rpcw.disconnect s.rpc c transport =
          (rpc, { s.line.rpcw with hConn := 0 }, rpcSOk)) ∨
      (transport ≠ .ok () ∧ ∃ status,
        s.line.rpcw.disconnect s.rpc c transport = (s.rpc, s.line.rpcw, status)) := by
  obtain ⟨-, hissued⟩ := hs.issued hconn hopen
  obtain ⟨b, hb⟩ := Option.ne_none_iff_exists'.mp (hs.bound hconn)
  have hd : ∀ transport, s.line.rpcw.deliver transport = transport := by
    intro transport
    simp [CRPCWrapper.deliver, hb]
  cases transport with
  | ok u => exact .inl ⟨rfl, disconnect_of_issued hs.valid (hd _) hissued⟩
  | error status =>
    exact .inr ⟨by simp, status, by simp [CRPCWrapper.disconnect, CRPCWrapper.dispatch, hd]⟩

/-- A line is closed when the disconnect has gone, and stays closed.

**Proof sketch.** The pieces of `TSPI_lineClose` come one after the other, so the line that is
closed has `delete` or `return` left. -/
theorem HoldsContext.closed_tapi_iff (hs : s.HoldsContext c) {t : Task} {rest : List Task}
    (htapi : s.tapi = t :: rest) {r : LineState} {o : Outcome} (hp : Performs g c self s t r o) :
    Closed { r with tapi := o.followedBy rest } ↔ s.Closed ∨ t = .disconnect := by
  constructor
  · intro hclosed
    by_contra hnot
    obtain ⟨hopen, hne⟩ := not_or.mp hnot
    have hdelete : .delete ∉ s.tapi := by
      intro hdel
      rcases hs.closes.delete hdel with htapi' | htapi'
      · exact hne (List.cons.inj (htapi.symm.trans htapi')).1
      · exact hopen (.inr htapi')
    simp only [htapi, List.mem_cons, not_or] at hdelete
    obtain ⟨ht, hrest⟩ := hdelete
    rcases hclosed with hdel | htapi'
    · obtain ⟨-, rfl | rfl | ⟨-, -, hsame⟩⟩ := hp.threads
      · cases hp
        exact hopen (.inl hdel)
      · exact ht rfl
      · exact hopen (.inl (hsame ▸ hdel))
    · have hmem : Task.delete ∈ o.followedBy rest := by
        have hleft : o.followedBy rest = [.delete, .leave (.ok 0)] := htapi'
        simp [hleft]
      cases o with
      | threw => simp [Outcome.followedBy] at hmem
      | go ts => exact (List.mem_append.mp hmem).elim hp.close_not_mem.2 hrest
  · rintro ((hdel | hdel) | rfl)
    · obtain ⟨-, hleft | hleft⟩ := hs.closes.deleted hdel
      · obtain ⟨rfl, rfl⟩ := List.cons.inj (htapi.symm.trans hleft)
        cases hp
        exact .inl hdel
      · simp [htapi] at hleft
    · obtain ⟨rfl, rfl⟩ := List.cons.inj (htapi.symm.trans hdel)
      cases hp
      exact .inl rfl
    · have hmem : Task.disconnect ∈ s.tapi := htapi ▸ List.mem_cons_self ..
      rcases hs.closes.delete (hs.disconnect hmem) with hleft | hleft
      · obtain ⟨-, rfl⟩ := List.cons.inj (htapi.symm.trans hleft)
        cases hp <;> exact .inr rfl
      · simp [hleft] at hmem

/-- A line gets closed by its `Disconnect`, and stays so.

**Proof sketch.** By cases on the step; the watchdog does not disconnect. -/
theorem HoldsContext.closed_next_iff (hs : s.HoldsContext c) {e : LineLabel}
    (h : s.next g c self e = some s') :
    s'.Closed ↔ s.Closed ∨ s.goes e = some .disconnect := by
  rcases next_cases h with ⟨f, rfl, halive, hidle, rfl⟩ |
    ⟨answer, t, rest, r, o, rfl, htapi, hp, rfl⟩ | ⟨answer, t, rest, r, o, rfl, hwd, hp, rfl⟩
  · refine iff_of_false ?_ (by simp [Closed, halive, hidle, goes])
    rintro (hdel | hdel)
    · simp [halive] at hdel
    · cases f with
      | lineDevSpecific id pmh => cases pmh <;> simp [TspiCall.tasks] at hdel
      | _ => simp [TspiCall.tasks] at hdel
  · have hgoes : s.goes (.tapi answer) = some t := by simp [goes, htapi]
    rw [hgoes, Option.some.injEq]
    exact hs.closed_tapi_iff htapi hp
  · obtain ⟨ht, -⟩ := List.forall_mem_cons.mp (hs.watch _ hwd)
    have hgoes : s.goes (.watchdog answer) = some t := by simp [goes, hwd]
    have hne : t ≠ .disconnect := by
      rintro rfl
      exact ht
    obtain ⟨htapi, rfl | rfl | ⟨-, -, hdeleted⟩⟩ := hp.threads
    · exact absurd ht id
    · exact absurd ht id
    · simp [Closed, htapi, hdeleted, hgoes, hne]

/-- The pieces that have nothing to do with the service.

**Proof sketch.** All that is said of the handle is said of parts that stay. -/
theorem HoldsContext.of_same (hs : s.HoldsContext c) {e : LineLabel}
    (h : s.next g c self e = some s') (hrpc : s'.rpc = s.rpc)
    (hhConn : s'.line.rpcw.hConn = s.line.rpcw.hConn)
    (hbound : s.line.rpcw.binding ≠ none → s'.line.rpcw.binding ≠ none)
    (hconn : s'.line.bConnected = s.line.bConnected)
    (hdisconnect : .disconnect ∈ s'.tapi → .delete ∈ s'.tapi)
    (hready : ∀ t rest, s'.tapi = t :: rest → (∀ u ∈ rest, u.callArgs = none) ∧ t.ReadyIn s') :
    s'.HoldsContext c where
  valid := hrpc ▸ hs.valid
  owns p := by
    rw [hrpc, hhConn, hconn]
    exact hs.owns p
  watch := hs.watch.next h
  closes := hs.closes.next hs.watch h
  bound h' := hbound (hs.bound (hconn ▸ h'))
  connected h' := by
    rw [hhConn]
    exact (hs.connected (hconn ▸ h')).imp id fun hclosed =>
      (hs.closed_next_iff h).mpr (.inl hclosed)
  disconnect := hdisconnect
  ready := hready

/-- No `disconnect` is left behind the piece that goes.

**Proof sketch.** `disconnect` is only in front of `delete`, and both are the last pieces. -/
theorem HoldsContext.disconnect_not_mem (hs : s.HoldsContext c) {t : Task} {rest : List Task}
    (htapi : s.tapi = t :: rest) {r : LineState} {o : Outcome} (hp : Performs g c self s t r o) :
    .disconnect ∉ o.followedBy rest := by
  intro hmem
  cases o with
  | threw => simp [Outcome.followedBy] at hmem
  | go ts =>
    have hrest : .disconnect ∈ rest := (List.mem_append.mp hmem).resolve_left hp.close_not_mem.1
    have hdelete := hs.disconnect (htapi ▸ List.mem_cons_of_mem _ hrest)
    rcases hs.closes.delete hdelete with hleft | hleft
    · obtain ⟨-, rfl⟩ := List.cons.inj (htapi.symm.trans hleft)
      simp at hrest
    · obtain ⟨-, rfl⟩ := List.cons.inj (htapi.symm.trans hleft)
      simp at hrest

/-- The line gets its context, or stays without one.

**Proof sketch.** An unconnected line has no handle; afterwards it has the new one, or still none.
-/
theorem HoldsContext.next_connect (hs : s.HoldsContext c) {a : MakeCallArgs} {rest : List Task}
    (htapi : s.tapi = .rpcConnectToServer a :: rest) {answer : Answer} {r : LineState} {o : Outcome}
    (hfail : s.ExceptionsFail g self (.line (.tapi answer)))
    (hr : s.perform g c self (.rpcConnectToServer a) answer = some (r, o))
    (h : s.next g c self (.tapi answer) = some { r with tapi := o.followedBy rest })
    (hno : .disconnect ∉ o.followedBy rest) :
    HoldsContext c { r with tapi := o.followedBy rest } := by
  obtain ⟨hrest, hready⟩ := hs.ready _ _ htapi
  have hconn : s.line.bConnected = false := hready
  have hnone : ∀ p, s.rpc.issued p ≠ some c := by
    intro p hp
    simp [((hs.owns p).mp hp).1] at hconn
  obtain ⟨hvalid, hcases⟩ : r.rpc.Valid ∧ _ := by
    cases answer with
    | connectToServer transport call =>
      obtain ⟨hvalid, -, -, hcases⟩ := connect_cases hs.valid hconn hfail hr
      exact ⟨hvalid, hcases⟩
    | _ => simp [perform] at hr
  have hready : o.ReadyIn r := by
    rcases hcases with ⟨hconn', -, hne, -, -, rfl⟩ | ⟨-, -, rfl⟩
    · exact .inr ⟨_, rfl, hconn', hne⟩
    · exact .inl (by simp [Outcome.tasks, Task.callArgs])
  refine ⟨hvalid, ?_, hs.watch.next h, hs.closes.next hs.watch h, ?_, ?_,
    fun hmem => absurd hmem hno, hready.followedBy hrest⟩
  · intro p
    rcases hcases with ⟨hconn', -, hne, hhConn, hissued, -⟩ | ⟨hconn', hissued, -⟩
    · show r.rpc.issued p = some c ↔ r.line.bConnected = true ∧ r.line.rpcw.hConn ≠ 0 ∧
        p = r.line.rpcw.hConn
      rw [hissued, hhConn]
      by_cases hp : p = s.rpc.svc.fresh
      · rw [hp, Function.update_self]
        exact iff_of_true rfl ⟨hconn', hhConn ▸ hne, rfl⟩
      · rw [Function.update_of_ne hp]
        exact iff_of_false (hnone p) fun h => hp h.2.2
    · show r.rpc.issued p = some c ↔ r.line.bConnected = true ∧ _
      rw [hissued, hconn']
      exact iff_of_false (hnone p) (by simp)
  · intro hconn'
    rcases hcases with ⟨-, hbound, -⟩ | ⟨hconn'', -⟩
    · exact hbound
    · exact absurd hconn' (by simp [hconn''])
  · intro hconn'
    rcases hcases with ⟨-, -, hne, -⟩ | ⟨hconn'', -⟩
    · exact .inl hne
    · exact absurd hconn' (by simp [hconn''])

/-- The line that is closed has no context any more, or the one that it had.

**Proof sketch.** A `Disconnect` that gets there takes the handle back and clears `m_hConn`; one
that does not changes nothing. -/
theorem HoldsContext.next_disconnect (hs : s.HoldsContext c) {rest : List Task}
    (htapi : s.tapi = .disconnect :: rest) {answer : Answer} {r : LineState} {o : Outcome}
    (h : s.next g c self (.tapi answer) = some { r with tapi := o.followedBy rest })
    (hp : Performs g c self s .disconnect r o) (hno : .disconnect ∉ o.followedBy rest) :
    HoldsContext c { r with tapi := o.followedBy rest } := by
  obtain ⟨hrest, -⟩ := hs.ready _ _ htapi
  have hclosed := (hs.closed_tapi_iff htapi hp).mpr (.inr rfl)
  have hready : o.ReadyIn r := .inl (by cases hp <;> simp [Outcome.tasks])
  cases hp with
  | disconnect_not hconn =>
    exact hs.of_same h rfl rfl id rfl (fun hmem => absurd hmem hno) (hready.followedBy hrest)
  | disconnect transport hconn =>
    have hopen := hs.not_closed htapi (by simp) (by simp)
    rcases hs.disconnect_cases hconn hopen transport with
      ⟨-, rpc, hrelease, heq⟩ | ⟨-, status, heq⟩
    · simp only [heq] at h hclosed hready ⊢
      obtain ⟨-, -, -, hissued⟩ := RpcServer.release_eq_some hrelease
      refine ⟨hs.valid.release hrelease, fun p => ?_, hs.watch.next h, hs.closes.next hs.watch h,
        hs.bound, fun _ => .inr hclosed, fun hmem => absurd hmem hno, hready.followedBy hrest⟩
      show rpc.issued p = some c ↔ _
      rw [hissued]
      by_cases hp : p = s.line.rpcw.hConn
      · rw [hp, Function.update_self]
        exact iff_of_false (by simp) (by simp)
      · rw [Function.update_of_ne hp, hs.owns p]
        exact iff_of_false (fun h => hp h.2.2) (by simp)
    · simp only [heq] at h hclosed hready ⊢
      exact hs.of_same h rfl rfl id rfl (fun hmem => absurd hmem hno) (hready.followedBy hrest)

/-- **A step of a function.** The line keeps its context, gets one, or loses it.

**Proof sketch.** Three pieces have to do with the service. `Init` does not touch the handle;
`ConnectToServer` is called by a line that has no context; and `Disconnect` takes the context
away, or leaves everything as it is. -/
theorem HoldsContext.next_tapi (hs : s.HoldsContext c) {answer : Answer}
    (hfail : s.ExceptionsFail g self (.line (.tapi answer)))
    (h : s.next g c self (.tapi answer) = some s') : s'.HoldsContext c := by
  have hnext := h
  cases htapi : s.tapi with
  | nil => simp [LineState.next, htapi] at h
  | cons t rest =>
    simp only [LineState.next, htapi] at h
    obtain ⟨⟨r, o⟩, hr, rfl⟩ := Option.map_eq_some_iff.mp h
    have hp := performs_of_perform hr
    obtain ⟨hrest, ht⟩ := hs.ready t rest htapi
    have hno := hs.disconnect_not_mem htapi hp
    have hclosed := hs.closed_tapi_iff htapi hp
    by_cases hserves : t.Serves
    · cases t with
      | rpcInit a =>
        have hready : o.ReadyIn r := hp.readyIn ht (by simp) (by simp)
        cases hp with
        | rpcInit api hinit =>
          obtain ⟨hhConn, hbound⟩ :=
            init_keeps s.line.rpcw api (bytes "ncalrpc") (bytes "NuacomService")
          rw [hinit] at hhConn hbound
          exact hs.of_same hnext rfl hhConn hbound rfl (fun hmem => absurd hmem hno)
            (hready.followedBy hrest)
      | rpcConnectToServer a => exact hs.next_connect htapi hfail hr hnext hno
      | disconnect => exact hs.next_disconnect htapi hnext hp hno
      | _ => exact absurd hserves id
    · obtain ⟨hrpc, hrpcw, hconn⟩ := hp.rpc_of_not_serves hserves
      have hready : o.ReadyIn r := by
        refine hp.readyIn ht ?_ ?_
        · rintro a rfl
          exact hserves trivial
        · rintro a rfl hconn
          exact (hs.issued hconn (hs.not_closed htapi (by simp) (by simp))).1
      exact hs.of_same hnext hrpc (by rw [hrpcw]) (by rw [hrpcw]; exact id) hconn
        (fun hmem => absurd hmem hno) (hready.followedBy hrest)

/-- **A step of anybody.** The context of the line is still its own.

**Proof sketch.** By cases on the step: a function, the watchdog, or another client, who leaves the
handles of this one. -/
theorem HoldsContext.next (hs : s.HoldsContext c) {e : ServiceLabel}
    (hfail : s.ExceptionsFail g self e) (h : s.serviceNext g c self e = some s') :
    s'.HoldsContext c := by
  cases e with
  | line e =>
    have hnext : s.next g c self e = some s' := h
    rcases next_cases hnext with ⟨f, rfl, halive, hidle, rfl⟩ |
      ⟨answer, t, rest, r, o, rfl, htapi, hp, rfl⟩ | ⟨answer, t, rest, r, o, rfl, hwd, hp, rfl⟩
    · refine hs.of_same hnext rfl rfl id rfl (fun hmem => ?_) f.readyIn
      cases f with
      | lineDevSpecific id pmh => simp [TspiCall.tasks] at hmem
      | _ => simp [TspiCall.tasks] at hmem ⊢
    · exact hs.next_tapi hfail hnext
    · obtain ⟨ht, -⟩ := List.forall_mem_cons.mp (hs.watch _ hwd)
      obtain ⟨hrpc, hrpcw, hconn⟩ := hp.rpc_of_not_serves ht.not_serves
      obtain ⟨htapi, -⟩ := hp.threads
      refine hs.of_same hnext hrpc (by rw [hrpcw]) (by rw [hrpcw]; exact id) hconn ?_ ?_
      · rw [htapi]
        exact hs.disconnect
      · intro u rest' hu
        obtain ⟨hrest, hready⟩ := hs.ready u rest' (htapi ▸ hu)
        exact ⟨hrest, hready.congr hrpcw hconn⟩
  | other e =>
    simp only [serviceNext] at h
    split_ifs at h with hforeign
    obtain ⟨rpc, hrpc, rfl⟩ := Option.map_eq_some_iff.mp h
    exact ⟨hs.valid.next hrpc,
      fun p => (hs.valid.issued_foreign hforeign hrpc p).trans (hs.owns p), hs.watch,
      ⟨hs.closes.delete, hs.closes.deleted⟩, hs.bound, hs.connected, hs.disconnect,
      fun t rest ht => ⟨(hs.ready t rest ht).1, (hs.ready t rest ht).2.congr rfl rfl⟩⟩

/-- The line is closed, and its context is still there. -/
def LeavesContext (s : LineState) : Prop :=
  s.Closed ∧ s.line.bConnected = true ∧ s.line.rpcw.hConn ≠ 0

/-- The step is the `rpcw.Disconnect` of a connected line, and it does not get to the service. -/
def LosesDisconnect (s : LineState) (e : ServiceLabel) : Prop :=
  s.serviceGoes e = some .disconnect ∧ s.line.bConnected = true ∧
    e ≠ .line (.tapi (.disconnect (.ok ())))

/-- A step of a function on a line that is closed leaves the line alone. -/
theorem HoldsContext.line_of_closed (hs : s.HoldsContext c) (hclosed : s.Closed) {t : Task}
    {rest : List Task} (htapi : s.tapi = t :: rest) {r : LineState} {o : Outcome}
    (hp : Performs g c self s t r o) : r.line = s.line := by
  by_cases hdelete : t = .delete
  · subst hdelete
    cases hp
    rfl
  · by_cases hleave : ∃ lResult, t = .leave lResult
    · obtain ⟨lResult, rfl⟩ := hleave
      cases hp
      rfl
    · exact absurd hclosed (hs.not_closed htapi hdelete (not_exists.mp hleave))

/-- The `rpcw.Disconnect` of a line: its context is left behind when it does not get there.

**Proof sketch.** By whether the line is connected and the `Disconnect` gets there. -/
theorem HoldsContext.leavesContext_disconnect_iff (hs : s.HoldsContext c) {rest : List Task}
    (htapi : s.tapi = .disconnect :: rest) {answer : Answer}
    (h : s.next g c self (.tapi answer) = some s') :
    s'.LeavesContext ↔ s.line.bConnected = true ∧ answer ≠ .disconnect (.ok ()) := by
  have hopen := hs.not_closed htapi (by simp) (by simp)
  have hclosed : s'.Closed := (hs.closed_next_iff h).mpr (.inr (by simp [goes, htapi]))
  simp only [LineState.next, htapi] at h
  obtain ⟨⟨r, o⟩, hr, rfl⟩ := Option.map_eq_some_iff.mp h
  rw [LeavesContext, and_iff_right hclosed]
  cases answer with
  | disconnect transport =>
    simp only [perform] at hr
    split_ifs at hr with hconn
    · obtain ⟨rfl, rfl⟩ := Prod.mk.inj (Option.some.inj hr)
      rcases hs.disconnect_cases hconn hopen transport with
        ⟨rfl, rpc, -, heq⟩ | ⟨hne, status, heq⟩
      · simp [heq]
      · have hhConn := (hs.issued hconn hopen).1
        simp [heq, hconn, hhConn, hne]
    · obtain ⟨rfl, rfl⟩ := Prod.mk.inj (Option.some.inj hr)
      simp [hconn]
  | _ => simp [perform] at hr

/-- A context is left behind in the step in which a `Disconnect` gets lost, and in no other.

**Proof sketch.** Only `disconnect` closes the line, and on a closed line nothing changes the
wrapper. -/
theorem HoldsContext.leavesContext_next_iff (hs : s.HoldsContext c) {e : ServiceLabel}
    (h : s.serviceNext g c self e = some s') :
    s'.LeavesContext ↔ s.LeavesContext ∨ s.LosesDisconnect e := by
  cases e with
  | other e =>
    simp only [serviceNext] at h
    split_ifs at h with hforeign
    obtain ⟨rpc, hrpc, rfl⟩ := Option.map_eq_some_iff.mp h
    simp only [LosesDisconnect, serviceGoes, reduceCtorEq, false_and, or_false]
    exact Iff.rfl
  | line e =>
    have hnext : s.next g c self e = some s' := h
    have hclosed := hs.closed_next_iff hnext
    rcases next_cases hnext with ⟨f, rfl, halive, hidle, rfl⟩ |
      ⟨answer, t, rest, r, o, rfl, htapi, hp, rfl⟩ | ⟨answer, t, rest, r, o, rfl, hwd, hp, rfl⟩
    · simp only [LeavesContext, LosesDisconnect, hclosed, serviceGoes, goes, reduceCtorEq,
        false_and, or_false]
    · have hgoes : s.serviceGoes (.line (.tapi answer)) = some t := by
        simp [serviceGoes, goes, htapi]
      have hlost : t ≠ .disconnect → ¬ s.LosesDisconnect (.line (.tapi answer)) := by
        rintro hne ⟨hdisconnect, -⟩
        exact hne (Option.some.inj (hgoes.symm.trans hdisconnect))
      by_cases hold : s.Closed
      · have hne : t ≠ .disconnect := by
          rintro rfl
          exact hs.not_closed htapi (by simp) (by simp) hold
        rw [or_iff_left (hlost hne)]
        refine and_congr (iff_of_true (hclosed.mpr (.inl hold)) hold) ?_
        show r.line.bConnected = true ∧ r.line.rpcw.hConn ≠ 0 ↔ _
        rw [hs.line_of_closed hold htapi hp]
      · rw [or_iff_right fun hleft => hold hleft.1]
        by_cases hdisconnect : t = .disconnect
        · subst hdisconnect
          rw [hs.leavesContext_disconnect_iff htapi hnext]
          simp [LosesDisconnect, hgoes]
        · refine iff_of_false (fun hleft => ?_) (hlost hdisconnect)
          rcases hclosed.mp hleft.1 with hclosed' | hgoes'
          · exact hold hclosed'
          · exact hdisconnect (Option.some.inj (hgoes.symm.trans hgoes'))
    · obtain ⟨ht, -⟩ := List.forall_mem_cons.mp (hs.watch _ hwd)
      obtain ⟨-, hrpcw, hconn⟩ := hp.rpc_of_not_serves ht.not_serves
      have hgoes : s.goes (.watchdog answer) = some t := by simp [goes, hwd]
      have hne : t ≠ .disconnect := by
        rintro rfl
        exact ht
      simp only [LeavesContext, LosesDisconnect, hclosed, serviceGoes, hgoes, Option.some.injEq,
        hne, hrpcw, hconn, false_and, or_false]

end Step

section Run

variable (g : Globals) (c : ClientId) (self : UInt64)

/-- A call is placed on the context that the line has.

**Proof sketch.** The piece is ready, so the line is connected and its handle is issued. -/
theorem HoldsContext.dispatch {s : LineState} (hs : s.HoldsContext c) {e : ServiceLabel}
    {a : MakeCallArgs} (hgoes : s.serviceGoes e = some (.rpcMakeCall a)) :
    (s.rpc.svc.heap s.line.rpcw.hConn).isSome = true ∧
      ∀ transport, s.line.rpcw.dispatch s.rpc c transport .inOnly =
        transport.map fun _ => s.line.rpcw.hConn := by
  obtain ⟨rest, htapi⟩ : ∃ rest, s.tapi = .rpcMakeCall a :: rest := by
    rcases e with (f | answer | answer) | e
    · simp [serviceGoes, goes] at hgoes
    · exact List.head?_eq_some_iff.mp hgoes
    · obtain ⟨rest, hrest⟩ := List.head?_eq_some_iff.mp hgoes
      cases hwd : s.wdThread with
      | none => simp [hwd] at hrest
      | some ts =>
        rw [hwd, Option.getD_some] at hrest
        exact absurd (hs.watch ts hwd _ (hrest ▸ List.mem_cons_self ..)) id
    · simp [serviceGoes] at hgoes
  obtain ⟨-, hconn, hne⟩ := hs.ready _ _ htapi
  have hissued := (hs.owns s.line.rpcw.hConn).mpr ⟨hconn, hne, rfl⟩
  refine ⟨(hs.valid.context_of_issued (by rw [hissued]; rfl)).2, fun transport => ?_⟩
  obtain ⟨b, hb⟩ := Option.ne_none_iff_exists'.mp (hs.bound hconn)
  cases transport with
  | error status => simp [CRPCWrapper.dispatch, CRPCWrapper.deliver, hb, Except.map]
  | ok u => simp [CRPCWrapper.dispatch, CRPCWrapper.deliver, hb, RpcServer.admit, hne, hissued,
      Except.map]

variable {rpc : RpcServer} (dwDeviceID : UInt32) (hConn : Ptr)
  {tr : List (Step LineState ServiceLabel)} {s' : LineState}

/-- The watchdog gives the call up, and the line is closed. -/
def closing (transport : Transport) : List LineLabel :=
  [.watchdog .nothing, .watchdog .timeout, .watchdog .nothing, .watchdog .nothing,
    .watchdog .nothing, .watchdog (.hangup (.ok ()) callPlatform), .watchdog .nothing,
    .call .lineClose, .tapi (.disconnect transport), .tapi .nothing, .tapi .nothing]

/-- Another client connects before that. -/
def served (transport : Transport) : List ServiceLabel :=
  .other (.connectToServer 1 (openCall false)) ::
    (placed.map .line ++ (closing transport).map .line)

/-- The sample call raises nothing. -/
theorem exceptionsFail_openCall (s : LineState) (ws : Bool) :
    s.ExceptionsFail g self (.line (.tapi (.connectToServer (.ok ()) (openCall ws)))) := by
  obtain ⟨svc, p, heq⟩ := (connectToServer_ok_iff s.rpc.svc { openCall ws with
    hCallback := self
    providerId := s.line.dwDeviceID
    connectToWS := g.gbHandleIncomingCalls ≠ 0 }).mpr (logsIn_openCall ws)
  refine ⟨by simp, fun h => ?_⟩
  rw [heq] at h
  simp at h

/-- None of these steps raises `RPC_S_OK`. -/
theorem exceptionsFail_served (transport : Transport) (s : LineState) :
    ∀ e ∈ served transport, s.ExceptionsFail g self e := by
  have hconnect := exceptionsFail_openCall g self s true
  simp only [served, placed, closing, List.map_cons, List.map_nil, List.cons_append,
    List.nil_append, List.forall_mem_cons, hconnect, true_and]
  simp [ExceptionsFail]

/-- What `exec` makes of these steps meets the condition on the runtime. -/
theorem exceptionsFail_of_exec {s : LineState} {transport : Transport}
    {r : List (Step LineState ServiceLabel) × LineState}
    (h : exec (serviceNext g c self) s (served transport) = some r) :
    ∀ t ∈ r.1, t.pre.ExceptionsFail g self t.label := by
  intro t ht
  refine exceptionsFail_served g self transport t.pre t.label ?_
  rw [← Run.labels_of_exec h]
  exact List.mem_map_of_mem ht

/-- The line has the context `3` at the end when its `Disconnect` got lost. -/
theorem exec_served :
    (∃ r, exec (serviceNext ⟨0, 0⟩ 0 0) (opened .start 0 7) (served (.ok ())) = some r ∧
        r.2.deleted = true ∧ r.2.rpc.issued 3 = none) ∧
      ∃ r, exec (serviceNext ⟨0, 0⟩ 0 0) (opened .start 0 7) (served undelivered) = some r ∧
        r.2.deleted = true ∧ r.2.rpc.issued 3 = some 0 :=
  ⟨⟨_, rfl, rfl, rfl⟩, ⟨_, rfl, rfl, rfl⟩⟩

end Run

end LineState

end Nuacom
