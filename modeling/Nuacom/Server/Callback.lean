import Nuacom.Server.Lifetime

set_option relaxedAutoImplicit false
set_option autoImplicit false

/-!
# Callbacks on contexts that are being destroyed

The listener of a websocket delivers a message by running `ProcessMessage` of the context it was
given, in a thread of its own, and `SendString` then waits for the telephony API. Meanwhile the
client may disconnect or be lost: `Disconnect` stops new deliveries, without waiting for those
under way, and deletes the context.

## Main definitions

* `Nuacom.Pc`, `Nuacom.Pc.next`, `Nuacom.Pc.fieldsRead` — where a running `ProcessMessage` is,
  where it goes next, and which fields of its context it reads on the way.
* `Nuacom.CallbackSystem`, `Nuacom.CallbackSystem.next` — the service with its running callbacks,
  and its steps.
* `Nuacom.StaleRead` — a step reads a field of a context that is deleted.
* `Nuacom.NobodyReads` — the condition on a deletion.

## Main results

* `Nuacom.CallbackSystem.Inv.next` — a running callback that may still read a field runs on a
  context that is not deleted, as long as deletions meet the condition.
* `Nuacom.no_staleRead` — runs whose deletions meet the condition have no stale read, and a
  deletion that does not meet it can be followed by one.

## Implementation notes

A delivery starts on the callbacks pointer of an open websocket. The two halves of `Disconnect`
are steps of their own; the runtime serialises the calls on one context handle, so that no other
call on it comes between them. An address stands for one context for all time, so that a read
of a deleted context is one also where its memory has been given to another.
-/

namespace Nuacom

open Transition

/-! ## A running `ProcessMessage` -/

/-- The next thing that a running `ProcessMessage` does. -/
inductive Pc
  /-- The debug print at the entry of `SendString`. -/
  | entry
  | lineOpen
  /-- Allocate and fill the buffer. -/
  | fill
  | lineDevSpecific
  /-- The loop of `WaitForReply`, at its `lineGetMessage`. -/
  | waitForReply (requestId : ℤ)
  | lineClose
  deriving DecidableEq, Repr

/-- What the system answers to a step of `SendString`. -/
structure TapiAnswer where
  /-- The return value of the call. -/
  n : ℤ
  /-- `malloc` does not return `NULL`. -/
  malloc : Bool
  /-- `msg.dwParam1` -/
  dwParam1 : ℤ

/-- Where `SendString` goes next; `none` when it returns. -/
def Pc.next (pc : Pc) (ans : TapiAnswer) : Option Pc :=
  match pc with
  | .entry => some .lineOpen
  | .lineOpen => if ans.n ≠ 0 then none else some .fill
  | .fill => if ans.malloc then some .lineDevSpecific else none
  | .lineDevSpecific => if 0 < ans.n then some (.waitForReply ans.n) else some .lineClose
  | .waitForReply requestId =>
    if ans.n < 0 then some .lineClose
    else if ans.dwParam1 = requestId then some .lineClose
    else some (.waitForReply requestId)
  | .lineClose => none

/-- The fields of a `ConnectionContext` that its callbacks read. -/
inductive Field
  | hCallback
  | providerId
  | appHandle
  | apiVersion
  deriving DecidableEq, Repr

/-- The fields that a step of `SendString` reads. -/
def Pc.fieldsRead (pc : Pc) (ans : TapiAnswer) : List Field :=
  match pc with
  | .entry => [.providerId, .hCallback]
  | .lineOpen => [.appHandle, .providerId, .apiVersion]
  | .fill => if ans.malloc then [.hCallback] else []
  | .lineDevSpecific => []
  | .waitForReply _ => [.appHandle]
  | .lineClose => []

/-! ## The service and its callbacks -/

abbrev ThreadId := ℕ

/-- The service with the callbacks that are running. -/
structure CallbackSystem where
  rpc : RpcServer
  /-- `Disconnect` has called `CloseWebsocketAsync` for this context, and not yet deleted it. -/
  closing : Ptr → Bool
  /-- The `ProcessMessage` that each thread is running, and for which context. -/
  threads : ThreadId → Option (Ptr × Pc)

/-- The steps of the service and its callbacks. -/
inductive CallbackEvent
  | connectToServer (c : ClientId) (a : ConnectCall)
  /-- The listener of a websocket starts `ProcessMessage` in a thread. -/
  | deliver (t : ThreadId) (h : SocketHandle)
  /-- A running `ProcessMessage` makes its next step. -/
  | run (t : ThreadId) (ans : TapiAnswer)
  /-- `CloseWebsocketAsync(pcc->socketHandle)` in a `Disconnect` or a rundown. -/
  | closeWebsocketAsync (p : Ptr)
  /-- `delete pcc` and the rest of that `Disconnect`. -/
  | deleteContext (p : Ptr)

namespace CallbackSystem

def start : CallbackSystem where
  rpc := .start
  closing _ := false
  threads _ := none

def next (s : CallbackSystem) : CallbackEvent → Option CallbackSystem
  | .connectToServer c a => (s.rpc.connect c a).map fun rpc => { s with rpc := rpc }
  | .deliver t h =>
    match s.threads t, s.rpc.svc.sockets h with
    | none, some p => some { s with threads := Function.update s.threads t (some (p, .entry)) }
    | _, _ => none
  | .run t ans =>
    (s.threads t).map fun x =>
      { s with threads := Function.update s.threads t ((x.2.next ans).map fun pc => (x.1, pc)) }
  | .closeWebsocketAsync p =>
    if (s.rpc.issued p).isSome ∧ s.closing p = false then
      (s.rpc.svc.heap p).map fun pcc =>
        { s with
          rpc := { s.rpc with svc := s.rpc.svc.closeWebsocketAsync pcc.socketHandle }
          closing := Function.update s.closing p true }
    else none
  | .deleteContext p =>
    if s.closing p then
      some { s with
        rpc := { svc := { s.rpc.svc.deleteContext p with bConnected := false }
                 issued := Function.update s.rpc.issued p none }
        closing := Function.update s.closing p false }
    else none

end CallbackSystem

/-- The step reads a field of a context that is deleted. -/
def StaleRead (s : CallbackSystem) : CallbackEvent → Prop
  | .run t ans => ∃ p pc, s.threads t = some (p, pc) ∧ pc.fieldsRead ans ≠ [] ∧
      s.rpc.svc.heap p = none
  | _ => False

/-- The condition on a step: a context is deleted when every callback that is running on it has
only `lineClose` before it. -/
def NobodyReads (s : CallbackSystem) : CallbackEvent → Prop
  | .deleteContext p => ∀ t pc, s.threads t = some (p, pc) → pc = .lineClose
  | _ => True

/-! ## What a step can do -/

namespace CallbackSystem

variable {s s' : CallbackSystem}

/-- A message that is delivered starts the callback of its socket on the thread. -/
theorem next_deliver {t : ThreadId} {h : SocketHandle} (hn : s.next (.deliver t h) = some s') :
    ∃ p, s.rpc.svc.sockets h = some p ∧
      s' = { s with threads := Function.update s.threads t (some (p, .entry)) } := by
  simp only [next] at hn
  split at hn
  · rename_i p _ hp
    exact ⟨p, hp, (Option.some.inj hn).symm⟩
  · simp at hn

/-- A callback that runs comes to the next of its places. -/
theorem next_run {t : ThreadId} {ans : TapiAnswer} (hn : s.next (.run t ans) = some s') :
    ∃ p pc, s.threads t = some (p, pc) ∧ s' =
      { s with threads := Function.update s.threads t ((pc.next ans).map fun pc => (p, pc)) } := by
  obtain ⟨⟨p, pc⟩, ht, rfl⟩ := Option.map_eq_some_iff.mp hn
  exact ⟨p, pc, ht, rfl⟩

/-- A websocket is closed for a context that exists. -/
theorem next_closeWebsocketAsync {p : Ptr} (hn : s.next (.closeWebsocketAsync p) = some s') :
    ∃ pcc, s.rpc.svc.heap p = some pcc ∧ s' =
      { s with
        rpc := { s.rpc with svc := s.rpc.svc.closeWebsocketAsync pcc.socketHandle }
        closing := Function.update s.closing p true } := by
  simp only [next] at hn
  split_ifs at hn
  obtain ⟨pcc, hp, rfl⟩ := Option.map_eq_some_iff.mp hn
  exact ⟨pcc, hp, rfl⟩

/-- A context is deleted after its websocket was closed. -/
theorem next_deleteContext {p : Ptr} (hn : s.next (.deleteContext p) = some s') :
    s.closing p = true ∧ s' =
      { s with
        rpc := { svc := { s.rpc.svc.deleteContext p with bConnected := false }
                 issued := Function.update s.rpc.issued p none }
        closing := Function.update s.closing p false } := by
  simp only [next] at hn
  split_ifs at hn with hc
  exact ⟨hc, (Option.some.inj hn).symm⟩

/-- After a connect the contexts and websockets that were there still are, and a websocket that
was not there is that of a new context.

**Proof sketch.** By the ways in which a connect ends. Each of them leaves the contexts that were
there, as the new one is at a new address. -/
theorem connect_frame {rpc rpc' : RpcServer} (hv : rpc.svc.Valid) {c : ClientId} {a : ConnectCall}
    (h : rpc.connect c a = some rpc') :
    (∀ p pcc, rpc.svc.heap p = some pcc → rpc'.svc.heap p = some pcc) ∧
    (∀ k p, rpc'.svc.sockets k = some p → rpc.svc.sockets k = some p ∨
      (p = rpc.svc.fresh ∧ ∃ pcc, rpc'.svc.heap p = some pcc ∧ pcc.socketHandle = some k)) := by
  obtain ⟨pcc, -, -, hcases⟩ := RpcServer.connect_eq_some h
  rcases hcases with ⟨-, rfl⟩ | ⟨-, rfl | rfl⟩
  · refine ⟨fun p qcc hp => ?_, fun k p hk => .inl hk⟩
    exact hv.heap_allocate_of_some hp pcc
  · refine ⟨fun p qcc hp => ?_, fun k p hk => ?_⟩
    · rw [Service.heap_deleteContext, Function.update_of_ne (hv.ne_fresh hp)]
      exact hv.heap_allocate_of_some hp pcc
    · rw [Service.sockets_deleteContext] at hk
      exact .inl hk
  · refine ⟨fun p qcc hp => ?_, fun k p hk => ?_⟩
    · rw [(Service.heap_connected _ _ _).2 p (hv.ne_fresh hp), hp]
    · cases hws : a.connectToWS with
      | false =>
        simp only [hws] at hk
        exact .inl hk
      | true =>
        simp only [hws, Service.connected, if_true, Service.connectToWebsocket] at hk
        by_cases hkf : k = (rpc.svc.allocate pcc).fresh
        · rw [hkf, Function.update_self] at hk
          obtain rfl := Option.some.inj hk
          refine .inr ⟨rfl, { pcc with socketHandle := some k }, ?_, rfl⟩
          simp [Service.connected, Service.connectToWebsocket, Service.modify, hkf]
        · rw [Function.update_of_ne hkf] at hk
          exact .inl hk

/-! ## The invariant -/

/-- The context is on the heap. -/
def Live (s : CallbackSystem) (p : Ptr) : Prop := (s.rpc.svc.heap p).isSome = true

/-- Every open websocket calls back a context that has it, which is then no context that is being
closed; and every callback that may still read a field runs on a context on the heap. -/
structure Inv (s : CallbackSystem) : Prop where
  svc : s.rpc.svc.Valid
  socket : ∀ k p, s.rpc.svc.sockets k = some p →
    ∃ pcc, s.rpc.svc.heap p = some pcc ∧ pcc.socketHandle = some k
  closing : ∀ p, s.closing p = true → s.Live p ∧ ∀ k, s.rpc.svc.sockets k ≠ some p
  threads : ∀ t p pc, s.threads t = some (p, pc) → pc ≠ .lineClose → s.Live p

/-- At the start there is nothing on the heap and no callback. -/
theorem Inv.start : Inv .start where
  svc := Service.Valid.start
  socket _ _ h := by simp [CallbackSystem.start, RpcServer.start, Service.start] at h
  closing _ h := by simp [CallbackSystem.start] at h
  threads _ _ _ h := by simp [CallbackSystem.start] at h

/-- A connect keeps the invariant: no context that was there goes away.

**Proof sketch.** The contexts that were there still are, and a new websocket is that of the new
context, which nobody closes yet. -/
theorem Inv.connect {c : ClientId} {a : ConnectCall} (hs : Inv s)
    (hn : s.next (.connectToServer c a) = some s') : Inv s' := by
  obtain ⟨rpc, hrpc, rfl⟩ := Option.map_eq_some_iff.mp hn
  obtain ⟨hheap, hsockets⟩ := connect_frame hs.svc hrpc
  have hvalid : rpc.svc.Valid := by
    have := hs.svc.connectToServer a
    unfold RpcServer.connect at hrpc
    split at hrpc
    · rename_i svc hConn heq
      rw [heq] at this
      rw [← Option.some.inj hrpc]
      exact this
    · rename_i svc status heq
      rw [heq] at this
      rw [← Option.some.inj hrpc]
      exact this
    · simp at hrpc
  have hlive : ∀ p, s.Live p → (rpc.svc.heap p).isSome = true := by
    intro p hp
    obtain ⟨pcc, hpcc⟩ := Option.isSome_iff_exists.mp hp
    rw [hheap p pcc hpcc]
    rfl
  refine ⟨hvalid, fun k p hk => ?_, fun p hp => ?_, fun t p pc ht hpc => ?_⟩
  · rcases hsockets k p hk with hold | ⟨-, pcc, hp, hpk⟩
    · obtain ⟨pcc, hp, hpk⟩ := hs.socket k p hold
      exact ⟨pcc, hheap p pcc hp, hpk⟩
    · exact ⟨pcc, hp, hpk⟩
  · obtain ⟨hl, hclosed⟩ := hs.closing p hp
    refine ⟨hlive p hl, fun k hk => ?_⟩
    rcases hsockets k p hk with hold | ⟨rfl, -⟩
    · exact hclosed k hold
    · unfold Live at hl
      rw [hs.svc.heap_fresh] at hl
      simp at hl
  · exact hlive p (hs.threads t p pc ht hpc)

/-- A delivery starts on a context that is on the heap. -/
theorem Inv.deliver {t : ThreadId} {h : SocketHandle} (hs : Inv s)
    (hn : s.next (.deliver t h) = some s') : Inv s' := by
  obtain ⟨p, hp, rfl⟩ := next_deliver hn
  refine ⟨hs.svc, hs.socket, hs.closing, fun t' q pc ht hpc => ?_⟩
  simp only at ht
  by_cases htt : t' = t
  · rw [htt, Function.update_self] at ht
    obtain ⟨rfl, rfl⟩ : p = q ∧ Pc.entry = pc := by simpa using ht
    obtain ⟨pcc, hheap, -⟩ := hs.socket h p hp
    exact Option.isSome_iff_exists.mpr ⟨pcc, hheap⟩
  · rw [Function.update_of_ne htt] at ht
    exact hs.threads t' q pc ht hpc

/-- A callback goes on only when it was not at its last step.

**Proof sketch.** The callback that runs was not at its last place before, so its context is there;
the others stay. -/
theorem Inv.run {t : ThreadId} {ans : TapiAnswer} (hs : Inv s)
    (hn : s.next (.run t ans) = some s') : Inv s' := by
  obtain ⟨p, pc, ht, rfl⟩ := next_run hn
  refine ⟨hs.svc, hs.socket, hs.closing, fun t' q pc' ht' hpc' => ?_⟩
  simp only at ht'
  by_cases htt : t' = t
  · rw [htt, Function.update_self] at ht'
    obtain ⟨pc'', hnext, heq⟩ := Option.map_eq_some_iff.mp ht'
    obtain ⟨rfl, rfl⟩ : p = q ∧ pc'' = pc' := by simpa using heq
    refine hs.threads t p pc ht ?_
    rintro rfl
    simp [Pc.next] at hnext
  · rw [Function.update_of_ne htt] at ht'
    exact hs.threads t' q pc' ht' hpc'

/-- Closing the websocket of a context leaves no open one that calls it back.

**Proof sketch.** A websocket that calls back the context belongs to it, and is the one that is
closed. -/
theorem Inv.closeWebsocketAsync {p : Ptr} (hs : Inv s)
    (hn : s.next (.closeWebsocketAsync p) = some s') : Inv s' := by
  obtain ⟨pcc, hp, rfl⟩ := next_closeWebsocketAsync hn
  refine ⟨hs.svc.closeWebsocketAsync _, fun k q hk => ?_, fun q hq => ?_, fun t q pc ht hpc => ?_⟩
  · simp only [Service.sockets_closeWebsocketAsync_eq_some_iff] at hk
    simp only [Service.heap_closeWebsocketAsync]
    exact hs.socket k q hk.1
  · simp only [Live, Service.heap_closeWebsocketAsync, ne_eq,
      Service.sockets_closeWebsocketAsync_eq_some_iff]
    by_cases hqp : q = p
    · subst hqp
      refine ⟨by rw [hp]; rfl, ?_⟩
      rintro k ⟨hk, hne⟩
      obtain ⟨pcc', hp', hk'⟩ := hs.socket k q hk
      rw [hp] at hp'
      obtain rfl := Option.some.inj hp'
      exact hne hk'
    · simp only [Function.update_of_ne hqp] at hq
      obtain ⟨hl, hclosed⟩ := hs.closing q hq
      exact ⟨hl, fun k hk => hclosed k hk.1⟩
  · simp only [Live, Service.heap_closeWebsocketAsync]
    exact hs.threads t q pc ht hpc

/-- Deleting a context keeps the invariant when no callback on it may still read a field.

**Proof sketch.** A context that is being closed has no open websocket, and the guard is about the
callbacks on it. -/
theorem Inv.deleteContext {p : Ptr} (hs : Inv s) (hnobody : NobodyReads s (.deleteContext p))
    (hn : s.next (.deleteContext p) = some s') : Inv s' := by
  obtain ⟨hc, rfl⟩ := next_deleteContext hn
  have hclosed := (hs.closing p hc).2
  have hlive : ∀ q, q ≠ p → s.Live q →
      (Function.update s.rpc.svc.heap p none q).isSome = true := by
    intro q hq hl
    rw [Function.update_of_ne hq]
    exact hl
  refine ⟨(hs.svc.deleteContext p).setConnected false, fun k q hk => ?_, fun q hq => ?_,
    fun t q pc ht hpc => ?_⟩
  · simp only [Service.sockets_deleteContext] at hk
    have hqp : q ≠ p := by
      rintro rfl
      exact hclosed k hk
    simp only [Service.heap_deleteContext, Function.update_of_ne hqp]
    exact hs.socket k q hk
  · have hqp : q ≠ p := by
      rintro rfl
      simp at hq
    simp only [Function.update_of_ne hqp] at hq
    simp only [Live, Service.heap_deleteContext, Service.sockets_deleteContext]
    obtain ⟨hl, hq'⟩ := hs.closing q hq
    exact ⟨hlive q hqp hl, hq'⟩
  · have hqp : q ≠ p := by
      rintro rfl
      exact hpc (hnobody t pc ht)
    simp only [Live, Service.heap_deleteContext]
    exact hlive q hqp (hs.threads t q pc ht hpc)

/-- The steps keep the invariant, deletions when they meet their condition. -/
theorem Inv.next {e : CallbackEvent} (hs : Inv s) (hnobody : NobodyReads s e)
    (hn : s.next e = some s') : Inv s' := by
  cases e with
  | connectToServer c a => exact hs.connect hn
  | deliver t h => exact hs.deliver hn
  | run t ans => exact hs.run hn
  | closeWebsocketAsync p => exact hs.closeWebsocketAsync hn
  | deleteContext p => exact hs.deleteContext hnobody hn

/-- Under the invariant no step reads a field of a deleted context.

**Proof sketch.** Only a callback reads fields, and not at its last place. -/
theorem Inv.not_staleRead (hs : Inv s) (e : CallbackEvent) : ¬ StaleRead s e := by
  cases e with
  | run t ans =>
    intro h'
    obtain ⟨p, pc, ht, hread, hnone⟩ := h'
    have hpc : pc ≠ .lineClose := by
      rintro rfl
      exact hread rfl
    have := hs.threads t p pc ht hpc
    rw [Live, hnone] at this
    simp at this
  | connectToServer c a => exact id
  | deliver t h => exact id
  | closeWebsocketAsync p => exact id
  | deleteContext p => exact id

/-- A callback on a deleted context that is not at its last step has a stale read before it.

**Proof sketch.** At every point but one the next step reads a field, for some answers of the
system; behind `lineDevSpecific` it does when the request is answered later. -/
theorem exists_staleRead {t : ThreadId} {p : Ptr} {pc : Pc} (ht : s.threads t = some (p, pc))
    (hpc : pc ≠ .lineClose) (hp : s.rpc.svc.heap p = none) :
    ∃ tr s', Run next s tr s' ∧ ∃ x ∈ tr, StaleRead x.pre x.label := by
  have hstep : ∀ ans, ∃ s', s.next (.run t ans) = some s' := by
    intro ans
    simp [CallbackSystem.next, ht]
  have hnow : ∀ ans : TapiAnswer, pc.fieldsRead ans ≠ [] →
      ∃ tr s', Run next s tr s' ∧ ∃ x ∈ tr, StaleRead x.pre x.label := by
    intro ans hread
    obtain ⟨s', hs'⟩ := hstep ans
    exact ⟨_, _, .cons hs' (.nil _), _, List.mem_cons_self, p, pc, ht, hread, hp⟩
  cases pc with
  | entry => exact hnow ⟨0, true, 0⟩ (by simp [Pc.fieldsRead])
  | lineOpen => exact hnow ⟨0, true, 0⟩ (by simp [Pc.fieldsRead])
  | fill => exact hnow ⟨0, true, 0⟩ (by simp [Pc.fieldsRead])
  | waitForReply requestId => exact hnow ⟨0, true, 0⟩ (by simp [Pc.fieldsRead])
  | lineClose => exact absurd rfl hpc
  | lineDevSpecific =>
    obtain ⟨s1, hs1⟩ := hstep ⟨1, true, 0⟩
    have hs1' : s1.threads t = some (p, .waitForReply 1) ∧ s1.rpc = s.rpc := by
      obtain ⟨q, pc', ht', rfl⟩ := next_run hs1
      rw [ht] at ht'
      obtain ⟨rfl, rfl⟩ : p = q ∧ Pc.lineDevSpecific = pc' := by simpa using ht'
      exact ⟨by simp [Pc.next], rfl⟩
    obtain ⟨s2, hs2⟩ : ∃ s2, s1.next (.run t ⟨0, true, 0⟩) = some s2 := by
      simp [CallbackSystem.next, hs1'.1]
    refine ⟨_, _, .cons hs1 (.cons hs2 (.nil _)), ⟨s1, .run t ⟨0, true, 0⟩, s2⟩, by simp, ?_⟩
    exact ⟨p, _, hs1'.1, by simp [Pc.fieldsRead], by rw [hs1'.2, hp]⟩

end CallbackSystem

/-- **Callbacks on destroyed contexts.** In every run of connects, deliveries, steps of running
callbacks, disconnects and rundowns in which every deletion meets `NobodyReads`, no step reads a
field of a deleted context. And a deletion that does not meet it, in whatever state a run has
reached, can be followed by a step that does.

**Proof sketch.** The guard is what the invariant needs of a deletion. Without it there is a
callback on the deleted context that is not at its last place, and its next steps read a field. -/
theorem no_staleRead (tr : List (Step CallbackSystem CallbackEvent)) (s' : CallbackSystem)
    (h : Run CallbackSystem.next .start tr s') :
    ((∀ t ∈ tr, NobodyReads t.pre t.label) → ∀ t ∈ tr, ¬ StaleRead t.pre t.label) ∧
    (∀ p s'', s'.next (.deleteContext p) = some s'' → ¬ NobodyReads s' (.deleteContext p) →
      ∃ tr' u, Run CallbackSystem.next s'' tr' u ∧
        ∃ t ∈ tr', StaleRead t.pre t.label) := by
  constructor
  · intro hguard t ht
    obtain ⟨hinv, -⟩ := h.forall_post_of_guard (fun _ _ _ hs hg hn => hs.next hg hn)
      CallbackSystem.Inv.start hguard
    exact (hinv t ht).1.not_staleRead t.label
  · intro p s'' hn hnobody
    obtain ⟨-, rfl⟩ := CallbackSystem.next_deleteContext hn
    simp only [NobodyReads, not_forall] at hnobody
    obtain ⟨t, pc, ht, hpc⟩ := hnobody
    exact CallbackSystem.exists_staleRead (t := t) (p := p) ht hpc (by simp)

/-- The system once a client has connected with a websocket. -/
private def connectedSystem (pcc : ConnectionContext) : CallbackSystem where
  rpc := ⟨Service.start.connected pcc true, Function.update (fun _ => none) 1 (some 0)⟩
  closing _ := false
  threads _ := none

/-- A client that connects first gets the first context. -/
private theorem next_connectedSystem : ∃ pcc,
    CallbackSystem.start.next (.connectToServer 0 (openCall true)) =
      some (connectedSystem pcc) := by
  obtain ⟨pcc, h⟩ := next_openCall .start 0 true
  have hconnect : RpcServer.start.connect 0 (openCall true) =
      some ⟨Service.start.connected pcc true, Function.update (fun _ => none) 1 (some 0)⟩ := h
  refine ⟨pcc, ?_⟩
  simp only [CallbackSystem.next, CallbackSystem.start]
  rw [hconnect]
  rfl

/-- A message is delivered and its `SendString` comes to `lineClose`; the client disconnects there,
so that the context is deleted before the callback ends.

**Proof sketch.** The run is computed up to the deletion, which meets the guard because the one
callback is at `lineClose`. -/
theorem no_staleRead_disconnected :
    ∃ tr s', Run CallbackSystem.next .start tr s' ∧
      (∃ t ∈ tr, t.label = .deleteContext 1 ∧ t.pre.threads 0 = some (1, .lineClose)) ∧
      s'.rpc.svc.heap 1 = none ∧ s'.threads 0 = none ∧ ∀ t ∈ tr, ¬ StaleRead t.pre t.label := by
  obtain ⟨pcc, h1⟩ := next_connectedSystem
  obtain ⟨r, hr, hlabels, hclosing, hthread, hothers⟩ : ∃ r, exec CallbackSystem.next
      (connectedSystem pcc) [.deliver 0 3, .run 0 ⟨0, true, 0⟩, .run 0 ⟨0, true, 0⟩,
        .run 0 ⟨0, true, 0⟩, .run 0 ⟨7, true, 0⟩, .run 0 ⟨1, true, 5⟩, .run 0 ⟨1, true, 7⟩,
        .closeWebsocketAsync 1] = some r ∧
      (∀ t ∈ r.1, ∀ p, t.label ≠ .deleteContext p) ∧ r.2.closing 1 = true ∧
      r.2.threads 0 = some (1, .lineClose) ∧ ∀ t, r.2.threads (t + 1) = none := by
    refine ⟨_, rfl, ?_, rfl, rfl, fun _ => rfl⟩
    simp
  -- the deletion meets the condition, since the one callback has only `lineClose` before it
  have hnobody : NobodyReads r.2 (.deleteContext 1) := by
    intro t pc ht
    cases t with
    | zero =>
      rw [hthread] at ht
      exact (Prod.mk.inj (Option.some.inj ht)).2.symm
    | succ t =>
      rw [hothers t] at ht
      simp at ht
  obtain ⟨s9, h9, hheap9, ht9⟩ : ∃ s9, r.2.next (.deleteContext 1) = some s9 ∧
      s9.rpc.svc.heap 1 = none ∧ s9.threads 0 = some (1, .lineClose) := by
    simp [CallbackSystem.next, hclosing, hthread]
  obtain ⟨s10, h10, hheap10, ht10⟩ : ∃ s10, s9.next (.run 0 ⟨0, true, 0⟩) = some s10 ∧
      s10.rpc.svc.heap 1 = none ∧ s10.threads 0 = none := by
    simp [CallbackSystem.next, ht9, hheap9, Pc.next]
  have hrun := Run.cons h1 ((Run.of_exec hr).append (.cons h9 (.cons h10 (.nil _))))
  refine ⟨_, s10, hrun, ⟨⟨r.2, .deleteContext 1, s9⟩, by simp, rfl, hthread⟩, hheap10, ht10,
    (no_staleRead _ _ hrun).1 ?_⟩
  simp only [List.forall_mem_cons, List.forall_mem_append, List.not_mem_nil, false_implies,
    implies_true, and_true]
  refine ⟨trivial, fun t ht => ?_, hnobody, trivial⟩
  cases hl : t.label with
  | deleteContext p => exact absurd hl (hlabels t ht p)
  | _ => trivial

/-- The client disconnects between the first step of `SendString` and its `lineOpen`, which then
reads three fields of the deleted context.

**Proof sketch.** Five steps, after which the callback is at `lineOpen` and its context is gone. -/
theorem staleRead_after_disconnect :
    ∃ tr s', Run CallbackSystem.next .start tr s' ∧ ∃ t ∈ tr, StaleRead t.pre t.label := by
  obtain ⟨pcc, h1⟩ := next_connectedSystem
  obtain ⟨s2, h2, hs2⟩ : ∃ s2, (connectedSystem pcc).next (.deliver 0 3) = some s2 ∧
      s2 = { connectedSystem pcc with
        threads := Function.update (fun _ => none) 0 (some (1, .entry)) } := ⟨_, rfl, rfl⟩
  obtain ⟨s3, h3, hrpc3, hclosing3, ht3⟩ : ∃ s3, s2.next (.run 0 ⟨0, true, 0⟩) = some s3 ∧
      s3.rpc = (connectedSystem pcc).rpc ∧ s3.closing = (fun _ => false) ∧
      s3.threads 0 = some (1, .lineOpen) := by
    rw [hs2]
    exact ⟨_, rfl, rfl, rfl, rfl⟩
  have hheap : s3.rpc.svc.heap 1 = some { pcc with socketHandle := some 3 } := by
    rw [hrpc3]
    rfl
  have hissued : (s3.rpc.issued 1).isSome = true := by
    rw [hrpc3]
    rfl
  obtain ⟨s4, h4, hclosing4, ht4⟩ : ∃ s4, s3.next (.closeWebsocketAsync 1) = some s4 ∧
      s4.closing 1 = true ∧ s4.threads 0 = some (1, .lineOpen) := by
    simp [CallbackSystem.next, hissued, hclosing3, hheap, ht3]
  obtain ⟨s5, h5, hheap5, ht5⟩ : ∃ s5, s4.next (.deleteContext 1) = some s5 ∧
      s5.rpc.svc.heap 1 = none ∧ s5.threads 0 = some (1, .lineOpen) := by
    simp [CallbackSystem.next, hclosing4, ht4]
  obtain ⟨tr, s', hrun, t, ht, hstale⟩ :=
    CallbackSystem.exists_staleRead ht5 (by decide) hheap5
  refine ⟨_, s', .cons h1 (.cons h2 (.cons h3 (.cons h4 (.cons h5 hrun)))), t, ?_, hstale⟩
  simp [ht]

end Nuacom
