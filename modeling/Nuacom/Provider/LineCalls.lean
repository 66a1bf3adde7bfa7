import Nuacom.Provider.LineRequests

set_option relaxedAutoImplicit false
set_option autoImplicit false

/-!
# The call of a line

A line has room for one call. It takes a call when TAPI places one, or when TAPI accepts one that a
message announces, and gives it back when TAPI closes it.

## Main definitions

* `Nuacom.CallSlot` — a place for one call, with its steps.
* `Nuacom.LineState.slot` — the call of a line as such a place.
* `Nuacom.LineEvent.OnlyOf` — an event is about one call.

## Main results

* `Nuacom.LineState.exists_slot_run` — the runs of a line are runs of a place for one call.
* `Nuacom.LineState.call_kept` — until TAPI closes a call, the line reports the states of that call,
  and announces no other.
-/

namespace Nuacom

open CString Transition

/-! ## A place for one call -/

/-- A place for one call: the call, and whether the service has announced it. -/
abbrev CallSlot := Option (HTapiCall × Bool)

/-- What can happen to it. -/
inductive SlotStep
  | place (h : HTapiCall)
  | announce (h : HTapiCall)
  | close

/-- Only a free place takes a call. -/
def CallSlot.next : CallSlot → SlotStep → Option CallSlot
  | none, .place h => some (some (h, false))
  | none, .announce h => some (some (h, true))
  | _, .close => some none
  | some _, .place _ | some _, .announce _ => none

namespace Task

/-- The line takes a call with the piece, or with one that follows from it, without looking again
whether it has one. -/
def Takes : Task → Prop
  | connectToServer _ | rpcInit _ | rpcConnectToServer _ | takeCall _ | offerCall => True
  | _ => False

/-- The piece belongs to a call that is placed after the line was found free. -/
def Places : Task → Prop
  | connectToServer _ | rpcInit _ | rpcConnectToServer _ | takeCall _ | rpcMakeCall _ => True
  | _ => False

end Task

namespace LineState

/-- The call of the line. -/
def slot (s : LineState) : CallSlot := s.line.htCall.map fun h => (h, s.line.bIncomingCall)

/-- The piece that goes in a step. -/
def goes (s : LineState) : LineLabel → Option Task
  | .call _ => none
  | .tapi _ => s.tapi.head?
  | .watchdog _ => (s.wdThread.getD []).head?

end LineState

section Cases

variable {g : Globals} {c : ClientId} {self : UInt64} {s s' : LineState} {t : Task} {o : Outcome}

/-- The pieces that change the call of a line.

**Proof sketch.** By cases on the piece. -/
theorem Performs.call (h : Performs g c self s t s' o) :
    (s'.line.htCall = s.line.htCall ∧ s'.line.bIncomingCall = s.line.bIncomingCall ∧
        t ≠ .closeCall) ∨
      (∃ a, t = .takeCall a ∧ s'.line.htCall = some a.htCall ∧
        s'.line.bIncomingCall = s.line.bIncomingCall) ∨
      (∃ x, t = .offerCall ∧ s'.line.htCall = some x ∧ s'.line.bIncomingCall = true) ∨
      (t = .closeCall ∧ s'.line.htCall = none ∧ s'.line.bIncomingCall = false) := by
  cases h
  case takeCall a => exact .inr (.inl ⟨a, rfl, rfl, rfl⟩)
  case offerCall x => exact .inr (.inr (.inl ⟨x, rfl, rfl, rfl⟩))
  case closeCall => exact .inr (.inr (.inr ⟨rfl, rfl, rfl⟩))
  case getCallInfo =>
    refine .inl ⟨?_, ?_, by simp⟩
    · unfold DrvLine.fillCalleeName
      split_ifs <;> rfl
    · unfold DrvLine.fillCalleeName
      split_ifs <;> rfl
  all_goals exact .inl ⟨rfl, rfl, by simp⟩

/-- The watchdog leaves the call of the line as it is. -/
theorem Performs.call_of_watch (h : Performs g c self s t s' o) (ht : t.Watch) :
    s'.line.htCall = s.line.htCall ∧ s'.line.bIncomingCall = s.line.bIncomingCall ∧
      t ≠ .closeCall := by
  rcases h.call with hsame | ⟨a, rfl, -⟩ | ⟨x, rfl, -⟩ | ⟨rfl, -⟩
  · exact hsame
  · exact absurd ht id
  · exact absurd ht id
  · exact absurd ht id

/-- The event that a piece sends, and the state that it sets: `SetCallState` does both.

**Proof sketch.** By cases on the piece. -/
theorem Performs.sends (h : Performs g c self s t s' o) :
    (s'.log = s.log ∧ s'.line.dwCallState = s.line.dwCallState ∧ ∀ x, t ≠ .setCallState x) ∨
      (∃ x, t = .setCallState x ∧ s'.line.dwCallState = x ∧
        s'.log = s.log ++ [.callState s.line.htCall x 0 s.line.dwMediaMode]) ∨
      (∃ e, s'.log = s.log ++ [e] ∧ s'.line.dwCallState = s.line.dwCallState ∧
        (∀ x, t ≠ .setCallState x) ∧ (∀ a x y z, e ≠ .callState a x y z) ∧
        (e = .newCall → t = .offerCall) ∧ ∀ b, e = .makeCall b → ∃ a, t = .rpcMakeCall a) := by
  cases h
  case setCallState x => exact .inr (.inl ⟨x, rfl, rfl, rfl⟩)
  case getCallInfo =>
    refine .inl ⟨rfl, ?_, by simp⟩
    unfold DrvLine.fillCalleeName
    split_ifs <;> rfl
  all_goals first
    | exact .inl ⟨rfl, rfl, by simp⟩
    | exact .inr (.inr ⟨_, rfl, rfl, by simp, by simp, by simp, by simp⟩)

/-- A piece that looks whether there is a call, or that comes behind one that has looked, is the
only one that is followed by a piece that takes a call.

**Proof sketch.** By cases on the piece. Those of a call that is being placed come one at a time,
and `ProcessCallMessage` looks whether there is a call. -/
theorem Performs.takes (h : Performs g c self s t s' o) (ht : t.Takes → s.line.htCall = none) :
    (∀ u ∈ o.tasks, ¬ u.Takes) ∨ ∃ u, o.tasks = [u] ∧ s'.line.htCall = none := by
  cases h
  case makeCall_free hnone => exact .inr ⟨_, rfl, hnone⟩
  case connected | unconnected | rpcInit | rpcConnectToServer => exact .inr ⟨_, rfl, ht trivial⟩
  case processCallMessage =>
    cases hcall : s.line.htCall with
    | none => exact .inr ⟨.offerCall, rfl, rfl⟩
    | some x => exact .inl (by simp [Outcome.tasks, Task.Takes])
  case rpcMakeCall =>
    refine .inl ?_
    unfold Outcome.tasks callMade failCall
    split_ifs <;> simp [Task.Takes]
  case setCallStatus =>
    refine .inl ?_
    unfold Outcome.tasks callStatusTasks giveUp
    split_ifs <;> simp [Task.Takes]
  case processMessage =>
    refine .inl fun u hu => ?_
    obtain ⟨v, -, rfl⟩ := List.mem_map.mp hu
    exact id
  all_goals exact .inl (by simp [Outcome.tasks, Task.Takes, failCall, giveUp])

/-- No call is placed by the pieces that follow from another one, as long as there is a call.

**Proof sketch.** By cases on the piece; `TSPI_lineMakeCall` places its call only when there is
none. -/
theorem Performs.places (h : Performs g c self s t s' o) (ht : ¬ t.Places)
    (hcall : s.line.htCall ≠ none) : ∀ u ∈ o.tasks, ¬ u.Places := by
  cases h
  case makeCall_free hnone => exact absurd hnone hcall
  case processCallMessage =>
    unfold Outcome.tasks
    split_ifs <;> simp [Task.Places]
  case setCallStatus =>
    unfold Outcome.tasks callStatusTasks giveUp
    split_ifs <;> simp [Task.Places]
  case processMessage =>
    intro u hu
    obtain ⟨v, -, rfl⟩ := List.mem_map.mp hu
    exact id
  all_goals first
    | exact absurd trivial ht
    | simp [Outcome.tasks, Task.Places, failCall, giveUp]

end Cases

/-- No function begins with a piece that takes or places a call without looking. -/
theorem TspiCall.looks_first (f : TspiCall) : ∀ u ∈ f.tasks, ¬ u.Takes ∧ ¬ u.Places := by
  intro u hu
  cases f with
  | lineDevSpecific dwRequestID pmh =>
    rcases List.mem_append.mp hu with hu | hu
    · obtain ⟨m, -, rfl⟩ := List.mem_map.mp hu
      exact ⟨id, id⟩
    · rcases List.mem_pair.mp hu with rfl | rfl
      · exact ⟨id, id⟩
      · exact ⟨id, id⟩
  | _ =>
    simp only [tasks, List.mem_cons, List.not_mem_nil, or_false] at hu
    rcases hu with rfl | rfl | rfl | rfl <;> exact ⟨id, id⟩

/-! ## One call at a time -/

/-- The event is not about another call than `x`: it announces none, it places none, and a state
that it reports is one of `x`. -/
def LineEvent.OnlyOf (x : HTapiCall) : LineEvent → Prop
  | .callState htCall _ _ _ => htCall = some x
  | .newCall | .makeCall _ => False
  | .returned _ | .threw | .completion _ _ | .hangup _ => True

namespace LineState

/-- What holds of the call of a line at any moment. -/
structure KeepsCall (s : LineState) : Prop where
  watch : s.WatchdogWatches
  incoming : s.line.bIncomingCall = true → s.line.htCall ≠ none
  takes : ∀ t rest, s.tapi = t :: rest →
    (∀ u ∈ rest, ¬ u.Takes) ∧ (t.Takes → s.line.htCall = none)

/-- A line that is opened has no call. -/
theorem KeepsCall.opened (rpc : RpcServer) (dwDeviceID : UInt32) (hConn : Ptr) :
    (opened rpc dwDeviceID hConn).KeepsCall where
  watch ts hts := by simp [LineState.opened] at hts
  incoming h := by simp [LineState.opened, DrvLine.create] at h
  takes t rest h := by simp [LineState.opened] at h

section Step

variable {g : Globals} {c : ClientId} {self : UInt64} {s s' : LineState} {e : LineLabel}

/-- A step leaves the call as it is, takes a call when there is none, or closes the call.

**Proof sketch.** A piece that takes a call goes when there is none, and the watchdog takes and
closes none. -/
theorem KeepsCall.slot_next (hs : s.KeepsCall) (h : s.next g c self e = some s') :
    (s'.line.htCall = s.line.htCall ∧ s'.line.bIncomingCall = s.line.bIncomingCall ∧
        s.goes e ≠ some .closeCall) ∨
      (s.line.htCall = none ∧ s.goes e ≠ some .closeCall ∧ ∃ x, s'.line.htCall = some x ∧
        (s'.line.bIncomingCall = s.line.bIncomingCall ∨ s'.line.bIncomingCall = true)) ∨
      (s.goes e = some .closeCall ∧ s'.line.htCall = none ∧ s'.line.bIncomingCall = false) := by
  rcases next_cases h with ⟨f, rfl, -, -, rfl⟩ | ⟨_, t, rest, r, o, rfl, htapi, hp, rfl⟩ |
    ⟨_, t, rest, r, o, rfl, hwd, hp, rfl⟩
  · exact .inl ⟨rfl, rfl, by simp [goes]⟩
  · obtain ⟨-, htakes⟩ := hs.takes t rest htapi
    have hgoes : ∀ u, t ≠ u → (s.tapi.head? ≠ some u) := by
      intro u hne
      simpa [htapi] using hne
    rcases hp.call with ⟨hcall, hin, hne⟩ | ⟨a, rfl, hcall, hin⟩ | ⟨x, rfl, hcall, hin⟩ |
      ⟨rfl, hcall, hin⟩
    · exact .inl ⟨hcall, hin, hgoes _ hne⟩
    · exact .inr (.inl ⟨htakes trivial, hgoes _ (by simp), _, hcall, .inl hin⟩)
    · exact .inr (.inl ⟨htakes trivial, hgoes _ (by simp), _, hcall, .inr hin⟩)
    · exact .inr (.inr ⟨by simp [goes, htapi], hcall, hin⟩)
  · obtain ⟨ht, -⟩ := List.forall_mem_cons.mp (hs.watch _ hwd)
    obtain ⟨hcall, hin, hne⟩ := hp.call_of_watch ht
    exact .inl ⟨hcall, hin, by simpa [goes, hwd] using hne⟩

/-- Every step keeps what holds of the call.

**Proof sketch.** A piece that takes a call is the only one left of its kind, and is preceded by one
that has looked. -/
theorem KeepsCall.next (hs : s.KeepsCall) (h : s.next g c self e = some s') : s'.KeepsCall := by
  refine ⟨hs.watch.next h, ?_, ?_⟩
  · rcases hs.slot_next h with ⟨hcall, hin, -⟩ | ⟨-, -, x, hcall, -⟩ | ⟨-, -, hin⟩
    · rw [hcall, hin]
      exact hs.incoming
    · simp [hcall]
    · simp [hin]
  · have hnone : ∀ {ts : List Task} {p : Prop}, (∀ u ∈ ts, ¬ u.Takes) → ∀ t rest, ts = t :: rest →
        (∀ u ∈ rest, ¬ u.Takes) ∧ (t.Takes → p) := by
      rintro _ p hts t rest rfl
      obtain ⟨ht, hrest⟩ := List.forall_mem_cons.mp hts
      exact ⟨hrest, fun h => absurd h ht⟩
    rcases next_cases h with ⟨f, rfl, -, -, rfl⟩ | ⟨_, t, rest, r, o, rfl, htapi, hp, rfl⟩ |
      ⟨_, t, rest, r, o, rfl, hwd, hp, rfl⟩
    · exact hnone fun u hu => (f.looks_first u hu).1
    · obtain ⟨hrest, htakes⟩ := hs.takes t rest htapi
      cases o with
      | threw => exact hnone (by simp [Outcome.followedBy])
      | go ts =>
        rcases hp.takes htakes with hts | ⟨u, rfl, hcall⟩
        · exact hnone (List.forall_mem_append.mpr ⟨hts, hrest⟩)
        · intro t' rest' heq
          obtain ⟨rfl, rfl⟩ := List.cons.inj heq
          exact ⟨hrest, fun _ => hcall⟩
    · obtain ⟨ht, -⟩ := List.forall_mem_cons.mp (hs.watch _ hwd)
      obtain ⟨htapi, -⟩ := hp.threads
      obtain ⟨hcall, -⟩ := hp.call_of_watch ht
      simp only [htapi, hcall]
      exact hs.takes

/-- A step of a line leaves the place as it is, or is a step of it. -/
theorem KeepsCall.slot_step (hs : s.KeepsCall) (h : s.next g c self e = some s') :
    s'.slot = s.slot ∨ ∃ x, s.slot.next x = some s'.slot := by
  rcases hs.slot_next h with ⟨hcall, hin, -⟩ | ⟨hfree, -, x, hcall, hin⟩ | ⟨-, hcall, -⟩
  · exact .inl (by simp only [slot, hcall, hin])
  · have hold : s.line.bIncomingCall = false := by
      by_contra htrue
      exact hs.incoming (by simpa using htrue) hfree
    rcases hin with hin | hin
    · exact .inr ⟨.place x, by simp [slot, hcall, hin, hold, hfree, CallSlot.next]⟩
    · exact .inr ⟨.announce x, by simp [slot, hcall, hin, hfree, CallSlot.next]⟩
  · refine .inr ⟨.close, ?_⟩
    cases s.slot <;> simp [slot, hcall, CallSlot.next]

end Step

section Run

variable (g : Globals) (c : ClientId) (self : UInt64)

/-- Every call that is placed is a success. -/
def callPlatform : Platform where
  parser text := if text = bytes "\x7b\"status\":\"success\"\x7d" then
      some (.object [(bytes "status", .string (bytes "success"))])
    else none
  http _ := ⟨curleOk, [bytes "\x7b\"status\":\"success\"\x7d"], []⟩
  protect data := .ok data
  unprotect encrypted := .ok encrypted

/-- The memory of `statusMessage`. -/
def unsetStatus : Buffer 255 := ⟨List.replicate 255 0, List.length_replicate⟩

/-- TAPI places a call on a line that is not connected yet. -/
def placed : List LineLabel :=
  [.call (.lineMakeCall ⟨1, 1, [50, 48, 48], none⟩), .tapi .nothing, .tapi .nothing,
    .tapi (.init localBinding), .tapi (.connectToServer (.ok ()) (openCall true)), .tapi .nothing,
    .tapi (.makeCall (.ok ()) callPlatform unsetStatus []),
    .tapi .nothing, .tapi .nothing, .tapi .nothing, .tapi .nothing]

end Run

section Kept

variable {g : Globals} {c : ClientId} {self : UInt64}

/-- The line has the call `x`, and everything that it sent after `log` is about it. -/
structure HasCall (x : HTapiCall) (log : List LineEvent) (s : LineState) : Prop where
  keeps : s.KeepsCall
  htCall : s.line.htCall = some x
  places : ∀ u ∈ s.tapi, ¬ u.Places
  log : ∃ es, s.log = log ++ es ∧ ∀ e ∈ es, e.OnlyOf x

/-- A piece of the line sends an event about its call, or none.

**Proof sketch.** By the event of the piece. A new call would have to be taken while there is none,
and a call to the service would have to be placed. -/
theorem HasCall.sends {x : HTapiCall} {log : List LineEvent} {s r : LineState} {t : Task}
    {o : Outcome} (hs : s.HasCall x log) (ht : ¬ t.Places)
    (htakes : t.Takes → s.line.htCall = none) (hp : Performs g c self s t r o) :
    ∃ es, r.log = log ++ es ∧ ∀ e ∈ es, e.OnlyOf x := by
  obtain ⟨es, hlog, hes⟩ := hs.log
  have hone : ∀ e : LineEvent, e.OnlyOf x → r.log = s.log ++ [e] →
      ∃ es, r.log = log ++ es ∧ ∀ e ∈ es, e.OnlyOf x := by
    intro e he hr
    refine ⟨es ++ [e], by rw [hr, hlog, List.append_assoc], ?_⟩
    exact List.forall_mem_append.mpr ⟨hes, List.forall_mem_singleton.mpr he⟩
  rcases hp.sends with ⟨hr, -⟩ | ⟨y, -, -, hr⟩ | ⟨e, hr, -, -, hstate, hnew, hmake⟩
  · exact ⟨es, by rw [hr, hlog], hes⟩
  · exact hone (.callState s.line.htCall y 0 s.line.dwMediaMode) hs.htCall hr
  · refine hone e ?_ hr
    cases e with
    | callState a y z w => exact absurd rfl (hstate a y z w)
    | newCall =>
      obtain rfl := hnew rfl
      have := htakes trivial
      rw [hs.htCall] at this
      simp at this
    | makeCall b =>
      obtain ⟨a, rfl⟩ := hmake b rfl
      exact absurd trivial ht
    | _ => trivial

/-- A step that does not close the call keeps it, and whether it is an incoming one.

**Proof sketch.** The call stays, as it is not closed and there is no room for another one. So no
piece that places a call follows. -/
theorem HasCall.next {x : HTapiCall} {log : List LineEvent} {s s' : LineState} {e : LineLabel}
    (hs : s.HasCall x log) (hclose : s.goes e ≠ some .closeCall)
    (h : s.next g c self e = some s') :
    s'.HasCall x log ∧ s'.line.bIncomingCall = s.line.bIncomingCall := by
  have hcall : s'.line.htCall = some x ∧ s'.line.bIncomingCall = s.line.bIncomingCall := by
    rcases hs.keeps.slot_next h with ⟨hcall, hin, -⟩ | ⟨hfree, -⟩ | ⟨hgoes, -⟩
    · exact ⟨hcall.trans hs.htCall, hin⟩
    · rw [hs.htCall] at hfree
      simp at hfree
    · exact absurd hgoes hclose
  have hsome : s.line.htCall ≠ none := by
    rw [hs.htCall]
    simp
  refine ⟨⟨hs.keeps.next h, hcall.1, ?_, ?_⟩, hcall.2⟩
  · rcases next_cases h with ⟨f, -, -, -, rfl⟩ | ⟨_, t, rest, r, o, -, htapi, hp, rfl⟩ |
      ⟨_, t, rest, r, o, -, -, hp, rfl⟩
    · exact fun u hu => (f.looks_first u hu).2
    · obtain ⟨ht, hrest⟩ := List.forall_mem_cons.mp (htapi ▸ hs.places)
      cases o with
      | threw => simp [Outcome.followedBy]
      | go ts => exact List.forall_mem_append.mpr ⟨hp.places ht hsome, hrest⟩
    · obtain ⟨htapi, -⟩ := hp.threads
      simp only [htapi]
      exact hs.places
  · rcases next_cases h with ⟨f, -, -, -, rfl⟩ | ⟨_, t, rest, r, o, -, htapi, hp, rfl⟩ |
      ⟨_, t, rest, r, o, -, hwd, hp, rfl⟩
    · exact hs.log
    · obtain ⟨ht, -⟩ := List.forall_mem_cons.mp (htapi ▸ hs.places)
      have hlog := hs.sends ht (hs.keeps.takes t rest htapi).2 hp
      exact hlog
    · obtain ⟨ht, -⟩ := List.forall_mem_cons.mp (hs.keeps.watch _ hwd)
      have hplaces : ¬ t.Places := by
        cases t <;> first | exact id | exact absurd ht id
      have htakes : ¬ t.Takes := by
        cases t <;> first | exact id | exact absurd ht id
      have hlog := hs.sends hplaces (fun h => absurd h htakes) hp
      exact hlog

/-- **A call is kept until it is closed.** A line that has a call keeps it, in every run in which
TAPI does not close it, whatever messages come and whatever calls TAPI places meanwhile: it
announces no other call, sends no call to the service, and every state that it reports is one of
that call.

**Proof sketch.** Run lemma of `HasCall`, with the condition as guard. -/
theorem call_kept (rpc : RpcServer) (dwDeviceID : UInt32) (hConn : Ptr)
    {tr₀ tr : List (Step LineState LineLabel)} {s s' : LineState} {x : HTapiCall}
    (hreach : Run (LineState.next g c self) (opened rpc dwDeviceID hConn) tr₀ s)
    (hidle : s.tapi = []) (hcall : s.line.htCall = some x)
    (h : Run (LineState.next g c self) s tr s')
    (hclose : ∀ t ∈ tr, t.pre.goes t.label ≠ some .closeCall) :
    s'.line.htCall = some x ∧ s'.line.bIncomingCall = s.line.bIncomingCall ∧
      ∃ es, s'.log = s.log ++ es ∧ ∀ e ∈ es, e.OnlyOf x := by
  have hkeeps := (hreach.forall_step (I := KeepsCall) (fun _ _ _ hI hn => hI.next hn)
    (KeepsCall.opened rpc dwDeviceID hConn)).2
  have hstart : s.HasCall x s.log :=
    ⟨hkeeps, hcall, by simp [hidle], [], by simp, by simp⟩
  have hend := (h.forall_post_of_guard
    (I := fun m => HasCall x s.log m ∧ m.line.bIncomingCall = s.line.bIncomingCall)
    (C := fun m e => m.goes e ≠ some .closeCall)
    (fun _ _ _ hI hC hn => ⟨(hI.1.next hC hn).1, (hI.1.next hC hn).2.trans hI.2⟩)
    ⟨hstart, rfl⟩ hclose).2
  exact ⟨hend.1.htCall, hend.2, hend.1.log⟩

/-- The line has a call that was placed, and TAPI places another one: it is refused.

**Proof sketch.** Both runs are computed; none of the steps closes the call. -/
theorem call_kept_placed :
    ∃ s tr s', Run (LineState.next ⟨0, 0⟩ 0 0) s tr s' ∧ s.line.htCall = some 1 ∧
      calls tr = [.lineMakeCall ⟨2, 2, [51, 48, 48], none⟩] ∧
      s'.log = s.log ++ [.completion 2 (some .callUnavail), .returned (.ok 2)] ∧
      (s'.line.htCall = some 1 ∧ s'.line.bIncomingCall = s.line.bIncomingCall ∧
        ∃ es, s'.log = s.log ++ es ∧ ∀ e ∈ es, e.OnlyOf 1) := by
  obtain ⟨r, hr, hidle, hcall, r', hr', hcalls, hlog, hgoes⟩ : ∃ r,
      exec (LineState.next ⟨0, 0⟩ 0 0) (opened .start 0 0) placed = some r ∧ r.2.tapi = [] ∧
        r.2.line.htCall = some 1 ∧ ∃ r', exec (LineState.next ⟨0, 0⟩ 0 0) r.2
          [.call (.lineMakeCall ⟨2, 2, [51, 48, 48], none⟩), .tapi .nothing, .tapi .nothing,
            .tapi .nothing] = some r' ∧
          calls r'.1 = [.lineMakeCall ⟨2, 2, [51, 48, 48], none⟩] ∧
          r'.2.log = r.2.log ++ [.completion 2 (some .callUnavail), .returned (.ok 2)] ∧
          r'.1.map (fun t => t.pre.goes t.label) = [none,
            some (.makeCall ⟨2, 2, [51, 48, 48], none⟩), some (.completion 2 (some .callUnavail)),
            some (.leave (.ok 2))] :=
    ⟨_, rfl, rfl, rfl, _, rfl, rfl, rfl, rfl⟩
  have hclose : ∀ t ∈ r'.1, t.pre.goes t.label ≠ some .closeCall := by
    intro t ht hclose
    have hmem := List.mem_map_of_mem (f := fun t => t.pre.goes t.label) ht
    rw [hgoes] at hmem
    simp [hclose] at hmem
  exact ⟨r.2, r'.1, r'.2, .of_exec hr', hcall, hcalls, hlog,
    call_kept .start 0 0 (.of_exec hr) hidle hcall (.of_exec hr') hclose⟩

end Kept

end LineState

end Nuacom
