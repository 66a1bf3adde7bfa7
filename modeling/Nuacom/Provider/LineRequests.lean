import Nuacom.Provider.Line
import Mathlib.Data.List.Forall2

set_option relaxedAutoImplicit false
set_option autoImplicit false

/-!
# What TAPI's calls come to

Some functions of the provider are asynchronous: TAPI passes a request id, the function returns
that id, and a completion for it says how the request ended; or the function returns an error, and
there is no completion. The watchdog of the line runs meanwhile, and `StartWatchdogThread` and the
destructor of the line wait for it.

## Main definitions

* `Nuacom.Served` — the ways in which a function ends, with the events that TAPI sees of it.
* `Nuacom.Awaits` — the events that TAPI has seen of a function, and the pieces that are left.
* `Nuacom.LineState.size` — a bound on the steps that are left.

## Main results

* `Nuacom.LineState.requests_served` — every function that TAPI calls is answered in one of these
  ways.
* `Nuacom.LineState.untouched_of_deleted` — after a line is deleted nothing touches it.
* `Nuacom.LineState.functions_return` — the functions of TAPI return, and the watchdog ends.
-/

namespace Nuacom

open CString Transition

/-! ## Kinds of pieces -/

namespace Task

/-- The call that `TSPI_lineMakeCall` is placing, before it knows the outcome. -/
def callArgs : Task → Option MakeCallArgs
  | makeCall a | connectToServer a | rpcInit a | rpcConnectToServer a | takeCall a
  | rpcMakeCall a => some a
  | _ => none

/-- The piece looks at a message, and may throw. -/
def Message : Task → Prop
  | processMessage _ | processMember _ | processCallMessage _ => True
  | _ => False

/-- The watchdog has such a piece. -/
def Watch : Task → Prop
  | setCallState _ | dropActiveCall | rpcHangup | resetEvent | waitForMessage | checkDialing => True
  | _ => False

/-- The piece neither throws, nor completes a request, nor returns. -/
def Safe : Task → Prop
  | startWatchdogThread | offerCall | setCallStatus | setEvent | closeCall | getCallInfo
  | disconnect | delete => True
  | t => t.Watch

/-- The pieces of the watchdog are safe. -/
theorem Watch.safe {t : Task} (h : t.Watch) : t.Safe := by
  cases t <;> first | exact h | trivial

end Task

/-- The pieces that follow from a piece. -/
def Outcome.tasks : Outcome → List Task
  | go tasks => tasks
  | threw => []

/-- The event is one that the caller of a function sees. -/
def LineEvent.isRequest : LineEvent → Bool
  | returned _ | threw | completion _ _ => true
  | newCall | callState _ _ _ _ | makeCall _ | hangup _ => false

/-- What the callers of the functions see. -/
def requests (log : List LineEvent) : List LineEvent := log.filter LineEvent.isRequest

/-- The requests of two logs are those of the first and those of the second. -/
theorem requests_append (log log' : List LineEvent) :
    requests (log ++ log') = requests log ++ requests log' := List.filter_append ..

/-- Giving up is all pieces of the watchdog. -/
theorem mem_giveUp_watch : ∀ t ∈ giveUp, t.Watch := by
  simp [giveUp, Task.Watch]

/-- The pieces of a call status are safe. -/
theorem mem_callStatusTasks_safe (status : Bytes) : ∀ t ∈ callStatusTasks status, t.Safe := by
  intro t ht
  unfold callStatusTasks at ht
  split_ifs at ht
  · obtain rfl := List.mem_singleton.mp ht
    trivial
  · obtain rfl := List.mem_singleton.mp ht
    trivial
  · exact (mem_giveUp_watch t ht).safe
  · simp at ht

section Cases

variable {g : Globals} {c : ClientId} {self : UInt64} {s s' : LineState} {t : Task} {o : Outcome}

/-- What a piece leaves of the threads as it is. -/
theorem Performs.threads (h : Performs g c self s t s' o) :
    s'.tapi = s.tapi ∧ (t = .startWatchdogThread ∨ t = .delete ∨
      s'.wdThread = s.wdThread ∧ s'.wdCall = s.wdCall ∧ s'.deleted = s.deleted) := by
  cases h <;> simp [LineState.send, LineState.setCallState]

/-- A safe piece is followed by safe pieces, and the caller sees nothing of it. -/
theorem Performs.of_safe (h : Performs g c self s t s' o) (ht : t.Safe) :
    ∃ ts, o = .go ts ∧ (∀ u ∈ ts, u.Safe) ∧ requests s'.log = requests s.log := by
  have hgiveUp : ∀ u ∈ giveUp, u.Safe := fun u hu => (mem_giveUp_watch u hu).safe
  cases h
  case setCallStatus =>
    exact ⟨_, rfl, mem_callStatusTasks_safe _, rfl⟩
  case checkDialing => exact ⟨_, rfl, hgiveUp, rfl⟩
  all_goals first
    | exact absurd ht id
    | refine ⟨_, rfl, ?_, ?_⟩
      · simp [Task.Safe, Task.Watch]
      · simp [requests, LineState.send, LineState.setCallState, LineEvent.isRequest]

/-- A piece of the watchdog is followed by others. -/
theorem Performs.of_watch (h : Performs g c self s t s' o) (ht : t.Watch) :
    ∃ ts, o = .go ts ∧ (∀ u ∈ ts, u.Watch) ∧ requests s'.log = requests s.log := by
  obtain ⟨ts, rfl, -, hlog⟩ := h.of_safe ht.safe
  refine ⟨ts, rfl, ?_, hlog⟩
  cases h
  case checkDialing => exact mem_giveUp_watch
  all_goals first
    | exact absurd ht id
    | simp [Task.Watch]

/-- A piece that looks at a message is followed by safe pieces and then by other such pieces, or
it throws.

**Proof sketch.** By cases on the piece. -/
theorem Performs.of_message (h : Performs g c self s t s' o) (ht : t.Message) :
    (∃ ts us, o = .go (ts ++ us) ∧ (∀ u ∈ ts, u.Safe) ∧ (∀ u ∈ us, u.Message) ∧
        requests s'.log = requests s.log) ∨
      (o = .threw ∧ requests s'.log = requests s.log ++ [.threw]) := by
  cases h
  case processMessage_threw => exact .inr ⟨rfl, requests_append ..⟩
  case processMember_threw => exact .inr ⟨rfl, requests_append ..⟩
  case processCallMessage_threw => exact .inr ⟨rfl, requests_append ..⟩
  case processMessage_other => exact .inl ⟨[], [], rfl, by simp, by simp, rfl⟩
  case processMember_other => exact .inl ⟨[], [], rfl, by simp, by simp, rfl⟩
  case processCallMessage_ignored => exact .inl ⟨[], [], rfl, by simp, by simp, rfl⟩
  case processMessage data _ _ =>
    refine .inl ⟨[], _, rfl, by simp, fun u hu => ?_, rfl⟩
    obtain ⟨v, -, rfl⟩ := List.mem_map.mp hu
    trivial
  case processMember data _ _ =>
    exact .inl ⟨[], [.processCallMessage data], rfl, by simp, by simp [Task.Message], rfl⟩
  case processCallMessage =>
    refine .inl ⟨_, [], by rw [List.append_nil], fun u hu => ?_, by simp, rfl⟩
    split_ifs at hu
    · obtain rfl := List.mem_singleton.mp hu
      trivial
    · rcases List.mem_pair.mp hu with rfl | rfl
      · trivial
      · trivial
  all_goals exact absurd ht id

/-- A piece of a call that is being placed is followed by another one, or the function returns an
error, or it completes the request and returns its id.

**Proof sketch.** By cases on the piece, in the order in which they follow each other. -/
theorem Performs.of_callArgs {a : MakeCallArgs} (h : Performs g c self s t s' o)
    (ht : t.callArgs = some a) :
    requests s'.log = requests s.log ∧
      ((∃ u, o = .go [u] ∧ u.callArgs = some a) ∨
        o = .go [.leave (.error .operationFailed)] ∨
        ∃ r ts, o = .go (.completion a.dwRequestID r :: (ts ++ [.leave (.ok a.dwRequestID)])) ∧
          ∀ u ∈ ts, u.Safe) := by
  have hfail : ∀ e, failCall a e =
      .completion a.dwRequestID (some e) :: ([] ++ [.leave (.ok a.dwRequestID)]) := fun _ => rfl
  have hlog : ∀ address, requests (s.send (.makeCall address)).log = requests s.log := by
    simp [requests, LineState.send, LineEvent.isRequest]
  cases h <;> simp only [Task.callArgs, Option.some.injEq, reduceCtorEq] at ht
  all_goals subst ht
  case makeCall_busy => exact ⟨rfl, .inr (.inr ⟨_, [], congrArg _ (hfail _), by simp⟩)⟩
  case makeCall_free => exact ⟨rfl, .inl ⟨_, rfl, rfl⟩⟩
  case connected => exact ⟨rfl, .inl ⟨_, rfl, rfl⟩⟩
  case unconnected => exact ⟨rfl, .inl ⟨_, rfl, rfl⟩⟩
  case rpcInit status _ _ _ =>
    refine ⟨rfl, ?_⟩
    split_ifs
    · exact .inl ⟨_, rfl, rfl⟩
    · exact .inr (.inl rfl)
  case rpcConnectToServer status _ _ _ =>
    refine ⟨rfl, ?_⟩
    split_ifs
    · exact .inl ⟨_, rfl, rfl⟩
    · exact .inr (.inl rfl)
  case takeCall => exact ⟨rfl, .inl ⟨_, rfl, rfl⟩⟩
  case rpcMakeCall_failed =>
    exact ⟨hlog _, .inr (.inr ⟨_, [], congrArg _ (hfail _), by simp⟩)⟩
  case rpcMakeCall =>
    refine ⟨hlog _, .inr (.inr ?_)⟩
    unfold callMade
    split_ifs
    · exact ⟨_, [], congrArg _ (hfail _), by simp⟩
    · exact ⟨_, [.setCallState .dialing, .startWatchdogThread], rfl,
        by simp [Task.Safe, Task.Watch]⟩
    · exact ⟨_, [.setCallState .idle], rfl, by simp [Task.Safe, Task.Watch]⟩

end Cases

/-! ## Every function is answered -/

/-- What TAPI gets for a function that it calls. -/
inductive Ends (f : TspiCall) : List LineEvent → Prop
  /-- The request is completed once, and its id returned. Only placing a call can fail. -/
  | answered {id : RequestId} {lResult : Option LineErr} (hid : f.requestId = some id)
      (hf : lResult ≠ none → ∃ a, f = .lineMakeCall a) :
      Ends f [.completion id lResult, .returned (.ok id)]
  /-- Placing a call returns an error, and the request is not completed. -/
  | refused (hf : ∃ a, f = .lineMakeCall a) : Ends f [.returned (.error .operationFailed)]
  /-- An exception leaves the function that hands over a message, before it completes the
  request. -/
  | threw (hf : ∃ id m, f = .lineDevSpecific id (some m)) : Ends f [.threw]
  /-- A synchronous function returns. -/
  | immediate (hf : f.requestId = none) : Ends f [.returned (.ok 0)]

/-- The function that is in progress, what TAPI has got for it, and the pieces that are left. -/
inductive Awaits : Option TspiCall → List LineEvent → List Task → Prop
  | idle : Awaits none [] []
  | immediate {f : TspiCall} (hf : f.requestId = none) (ts : List Task)
      (hts : ∀ t ∈ ts, t.Safe) : Awaits (some f) [] (ts ++ [.leave (.ok 0)])
  | calling {t : Task} {a : MakeCallArgs} (ht : t.callArgs = some a) :
      Awaits (some (.lineMakeCall a)) [] [t]
  | refusing {a : MakeCallArgs} :
      Awaits (some (.lineMakeCall a)) [] [.leave (.error .operationFailed)]
  | answering {f : TspiCall} {id : RequestId} {lResult : Option LineErr}
      (hid : f.requestId = some id) (hf : lResult ≠ none → ∃ a, f = .lineMakeCall a)
      (ts us vs : List Task) (hts : ∀ t ∈ ts, t.Safe)
      (hus : ∀ t ∈ us, t.Message ∧ ∃ id m, f = .lineDevSpecific id (some m))
      (hvs : ∀ t ∈ vs, t.Safe) :
      Awaits (some f) [] (ts ++ (us ++ .completion id lResult :: (vs ++ [.leave (.ok id)])))
  | answered {f : TspiCall} {id : RequestId} {lResult : Option LineErr}
      (hid : f.requestId = some id) (hf : lResult ≠ none → ∃ a, f = .lineMakeCall a)
      (vs : List Task) (hvs : ∀ t ∈ vs, t.Safe) :
      Awaits (some f) [.completion id lResult] (vs ++ [.leave (.ok id)])

namespace Awaits

/-- A function when TAPI calls it.

**Proof sketch.** By the function. -/
theorem call (f : TspiCall) : Awaits (some f) [] f.tasks := by
  cases f with
  | lineMakeCall a => exact .calling rfl
  | lineDrop id =>
    exact .answering rfl (by simp) [.dropActiveCall, .setCallState .idle] [] []
      (by simp [Task.Safe, Task.Watch]) (by simp) (by simp)
  | lineCloseCall =>
    exact .immediate rfl [.dropActiveCall, .closeCall] (by simp [Task.Safe, Task.Watch])
  | lineGetCallInfo => exact .immediate rfl [.getCallInfo] (by simp [Task.Safe])
  | lineDevSpecific id pmh =>
    refine .answering rfl (by simp) [] _ [] (by simp) (fun u hu => ?_) (by simp)
    obtain ⟨m, hm, rfl⟩ := List.mem_map.mp hu
    exact ⟨trivial, id, m, by rw [Option.mem_toList.mp hm]⟩
  | lineClose => exact .immediate rfl [.disconnect, .delete] (by simp [Task.Safe])

/-- No function is in progress when no pieces are left. -/
theorem eq_none_of_nil {f : Option TspiCall} {l : List LineEvent} (h : Awaits f l []) :
    f = none ∧ l = [] := by
  generalize hnil : ([] : List Task) = ts at h
  cases h with
  | idle => exact ⟨rfl, rfl⟩
  | immediate => simp at hnil
  | calling => simp at hnil
  | refusing => simp at hnil
  | answering => simp at hnil
  | answered => simp at hnil

section Step

variable {g : Globals} {c : ClientId} {self : UInt64} {s s' : LineState} {t : Task} {o : Outcome}
  {f : Option TspiCall} {l : List LineEvent} {rest : List Task}

/-- Safe pieces in front: the first of them goes. -/
theorem safe_cons (h : Performs g c self s t s' o) {ts tail : List Task}
    (hts : ∀ u ∈ t :: ts, u.Safe)
    (htail : ∀ ts', (∀ u ∈ ts', u.Safe) → Awaits f l (ts' ++ tail)) :
    requests s'.log = requests s.log ∧ Awaits f l (o.followedBy (ts ++ tail)) := by
  obtain ⟨ht, hts⟩ := List.forall_mem_cons.mp hts
  obtain ⟨new, rfl, hnew, hlog⟩ := h.of_safe ht
  refine ⟨hlog, ?_⟩
  show Awaits f l (new ++ (ts ++ tail))
  rw [← List.append_assoc]
  exact htail _ (List.forall_mem_append.mpr ⟨hnew, hts⟩)

/-- **A step of a function.** TAPI gets something, or nothing, for the function, which is still in
progress or has ended with it.

**Proof sketch.** The first piece is a safe one, and nothing is seen of it; or one that looks at a
message, which throws or is followed by others; or the last one, with which the function ends. -/
theorem step (hl : Awaits f l (t :: rest)) (h : Performs g c self s t s' o) :
    ∃ new, requests s'.log = requests s.log ++ new ∧
      (Awaits f (l ++ new) (o.followedBy rest) ∨
        o.followedBy rest = [] ∧ ∃ x, f = some x ∧ Ends x (l ++ new)) := by
  have hleave : ∀ lResult, t = .leave lResult →
      requests s'.log = requests s.log ++ [.returned lResult] ∧ o = .go [] := by
    rintro lResult rfl
    cases h
    exact ⟨requests_append .., rfl⟩
  have hcompletion : ∀ id lResult, t = .completion id lResult →
      requests s'.log = requests s.log ++ [.completion id lResult] ∧ o = .go [] := by
    rintro id lResult rfl
    cases h
    exact ⟨requests_append .., rfl⟩
  have hquiet : ∀ {ts tail : List Task}, rest = ts ++ tail → (∀ u ∈ t :: ts, u.Safe) →
      (∀ ts', (∀ u ∈ ts', u.Safe) → Awaits f l (ts' ++ tail)) →
      ∃ new, requests s'.log = requests s.log ++ new ∧
        (Awaits f (l ++ new) (o.followedBy rest) ∨
          o.followedBy rest = [] ∧ ∃ x, f = some x ∧ Ends x (l ++ new)) := by
    rintro ts tail rfl hts htail
    obtain ⟨hlog, hnext⟩ := safe_cons h hts htail
    exact ⟨[], by rw [hlog, List.append_nil], .inl (by rwa [List.append_nil])⟩
  generalize htl : t :: rest = tl at hl
  cases hl with
  | idle => simp at htl
  | immediate hf ts hts =>
    cases ts with
    | nil =>
      obtain ⟨rfl, rfl⟩ := List.cons.inj htl
      obtain ⟨hlog, rfl⟩ := hleave _ rfl
      exact ⟨_, hlog, .inr ⟨rfl, _, rfl, .immediate hf⟩⟩
    | cons u ts =>
      obtain ⟨rfl, rfl⟩ := List.cons.inj htl
      exact hquiet rfl hts fun ts' hts' => .immediate hf ts' hts'
  | @calling u a hu =>
    obtain ⟨rfl, rfl⟩ := List.cons.inj htl
    obtain ⟨hlog, hnext⟩ := h.of_callArgs hu
    refine ⟨[], by rw [hlog, List.append_nil], .inl ?_⟩
    rcases hnext with ⟨u, rfl, hu⟩ | rfl | ⟨r, ts, rfl, hts⟩
    · exact .calling hu
    · exact .refusing
    · simp only [Outcome.followedBy, List.append_nil]
      exact .answering rfl (fun _ => ⟨a, rfl⟩) [] [] ts (by simp) (by simp) hts
  | @refusing a =>
    obtain ⟨rfl, rfl⟩ := List.cons.inj htl
    obtain ⟨hlog, rfl⟩ := hleave _ rfl
    exact ⟨_, hlog, .inr ⟨rfl, _, rfl, .refused ⟨a, rfl⟩⟩⟩
  | @answering x id lResult hid hf ts us vs hts hus hvs =>
    cases ts with
    | cons u ts =>
      obtain ⟨rfl, rfl⟩ := List.cons.inj htl
      exact hquiet rfl hts fun ts' hts' => .answering hid hf ts' us vs hts' hus hvs
    | nil =>
      cases us with
      | nil =>
        obtain ⟨rfl, rfl⟩ := List.cons.inj htl
        obtain ⟨hlog, rfl⟩ := hcompletion _ _ rfl
        exact ⟨_, hlog, .inl (.answered hid hf vs hvs)⟩
      | cons u us =>
        obtain ⟨rfl, rfl⟩ := List.cons.inj htl
        obtain ⟨⟨hu, hx⟩, hus⟩ := List.forall_mem_cons.mp hus
        rcases h.of_message hu with ⟨ts', us', rfl, hts', hus', hlog⟩ | ⟨rfl, hlog⟩
        · refine ⟨[], by rw [hlog, List.append_nil], .inl ?_⟩
          have hus'' : ∀ t ∈ us' ++ us, t.Message ∧ ∃ id m, x = .lineDevSpecific id (some m) :=
            List.forall_mem_append.mpr ⟨fun t ht => ⟨hus' t ht, hx⟩, hus⟩
          show Awaits _ _
            (ts' ++ us' ++ (us ++ .completion id lResult :: (vs ++ [.leave (.ok id)])))
          rw [List.append_assoc, ← List.append_assoc us' us]
          exact .answering hid hf ts' _ vs hts' hus'' hvs
        · exact ⟨_, hlog, .inr ⟨rfl, _, rfl, .threw hx⟩⟩
  | @answered x id lResult hid hf vs hvs =>
    cases vs with
    | nil =>
      obtain ⟨rfl, rfl⟩ := List.cons.inj htl
      obtain ⟨hlog, rfl⟩ := hleave _ rfl
      exact ⟨_, hlog, .inr ⟨rfl, _, rfl, .answered hid hf⟩⟩
    | cons u vs =>
      obtain ⟨rfl, rfl⟩ := List.cons.inj htl
      exact hquiet rfl hvs fun vs' hvs' => .answered hid hf vs' hvs'

end Step

end Awaits

namespace LineState

/-- TAPI has got the answers to the functions `fs` that it has called, except to the one that is
still in progress. -/
def Answers (fs : List TspiCall) (s : LineState) : Prop :=
  ∃ (done : List TspiCall) (answers : List (List LineEvent)) (f : Option TspiCall)
    (l : List LineEvent), fs = done ++ f.toList ∧ List.Forall₂ Ends done answers ∧
      requests s.log = answers.flatten ++ l ∧ Awaits f l s.tapi

/-- The watchdog has its own pieces only. -/
def WatchdogWatches (s : LineState) : Prop := ∀ ts, s.wdThread = some ts → ∀ t ∈ ts, t.Watch

end LineState

/-- The function that TAPI calls in a step. -/
def LineLabel.called : LineLabel → Option TspiCall
  | call f => some f
  | tapi _ | watchdog _ => none

/-- The functions that TAPI calls in a run. -/
def calls (tr : List (Step LineState LineLabel)) : List TspiCall :=
  tr.filterMap fun t => t.label.called

/-- The function that a first step calls comes before those of the other steps. -/
theorem calls_cons (t : Step LineState LineLabel) (tr : List (Step LineState LineLabel)) :
    calls (t :: tr) = t.label.called.toList ++ calls tr := by
  unfold calls
  rw [List.filterMap_cons]
  cases t.label.called <;> rfl

namespace LineState

section Step

variable {g : Globals} {c : ClientId} {self : UInt64} {s s' : LineState} {e : LineLabel}

/-- A line that is opened has no watchdog. -/
theorem watchdogWatches_opened (rpc : RpcServer) (dwDeviceID : UInt32) (hConn : Ptr) :
    (opened rpc dwDeviceID hConn).WatchdogWatches := by
  intro ts hts
  simp [opened] at hts

/-- Every step leaves the watchdog with its own pieces.

**Proof sketch.** A watchdog that is started has its own pieces, and what follows from them are such
pieces. -/
theorem WatchdogWatches.next (hs : s.WatchdogWatches) (h : s.next g c self e = some s') :
    s'.WatchdogWatches := by
  rcases next_cases h with ⟨f, -, -, -, rfl⟩ | ⟨_, t, rest, r, o, -, -, hp, rfl⟩ |
    ⟨_, t, rest, r, o, -, hwd, hp, rfl⟩
  · exact hs
  · obtain ⟨-, rfl | rfl | ⟨hsame, -⟩⟩ := hp.threads
    · cases hp
      intro ts hts
      obtain rfl : watchdog = ts := Option.some.inj hts
      simp [watchdog, Task.Watch]
    · cases hp
      intro ts hts
      simp at hts
    · intro ts hts
      exact hs ts (hsame ▸ hts)
  · obtain ⟨ht, hrest⟩ := List.forall_mem_cons.mp (hs _ hwd)
    obtain ⟨new, rfl, hnew, -⟩ := hp.of_watch ht
    intro ts hts
    obtain rfl : new ++ rest = ts := Option.some.inj hts
    exact List.forall_mem_append.mpr ⟨hnew, hrest⟩

/-- Every step keeps this: what a piece sends is the next part of the answer to its function.

**Proof sketch.** A new function awaits its answer; a piece of the one in progress appends to its
answer, or ends it; the watchdog sends no request. -/
theorem Answers.next {fs : List TspiCall} (hw : s.WatchdogWatches) (hs : s.Answers fs)
    (h : s.next g c self e = some s') : s'.Answers (fs ++ e.called.toList) := by
  obtain ⟨done, answers, f, l, rfl, hdone, hlog, hl⟩ := hs
  rcases next_cases h with ⟨x, rfl, -, hidle, rfl⟩ | ⟨_, t, rest, r, o, rfl, htapi, hp, rfl⟩ |
    ⟨_, t, rest, r, o, rfl, hwd, hp, rfl⟩
  · rw [hidle] at hl
    obtain ⟨rfl, rfl⟩ := hl.eq_none_of_nil
    exact ⟨done, answers, some x, [], by simp [LineLabel.called], hdone, hlog, .call x⟩
  · rw [htapi] at hl
    obtain ⟨new, hnew, hnext | ⟨hnil, x, rfl, hx⟩⟩ := hl.step hp
    · exact ⟨done, answers, f, l ++ new, by simp [LineLabel.called], hdone,
        by rw [hnew, hlog, List.append_assoc], hnext⟩
    · refine ⟨done ++ [x], answers ++ [l ++ new], none, [], by simp [LineLabel.called],
        List.rel_append hdone (.cons hx .nil), ?_, by rw [hnil]; exact .idle⟩
      rw [hnew, hlog]
      simp
  · obtain ⟨ht, -⟩ := List.forall_mem_cons.mp (hw _ hwd)
    obtain ⟨new, rfl, -, hsame⟩ := hp.of_watch ht
    obtain ⟨htapi, -⟩ := hp.threads
    exact ⟨done, answers, f, l, by simp [LineLabel.called], hdone, by rw [hsame, hlog],
      by rw [htapi]; exact hl⟩

end Step

section Run

variable (g : Globals) (c : ClientId) (self : UInt64)

/-- The answers after a run.

**Proof sketch.** Induction on the run, with the functions that were called before it. -/
theorem Answers.run {s s' : LineState} {tr : List (Step LineState LineLabel)}
    (h : Run (LineState.next g c self) s tr s') : ∀ {fs : List TspiCall}, s.WatchdogWatches →
      s.Answers fs → s'.Answers (fs ++ calls tr) := by
  induction h with
  | nil s =>
    intro fs _ hs
    simpa [calls] using hs
  | @cons s m s' e tr hs _ ih =>
    intro fs hw hfs
    rw [calls_cons, ← List.append_assoc]
    exact ih (hw.next hs) (hfs.next hw hs)

/-- The service is not there, a call is to be placed and dropped, and the line is closed. -/
def unreachable : List LineLabel :=
  [.call (.lineMakeCall ⟨1, 1, [50, 48, 48], none⟩), .tapi .nothing, .tapi .nothing,
    .tapi (.init ⟨fun _ _ => .error 1, fun _ => .error 1, fun _ => 1⟩), .tapi .nothing,
    .call (.lineDrop 2), .tapi .nothing, .tapi .nothing, .tapi .nothing, .tapi .nothing,
    .call .lineClose, .tapi (.disconnect (.ok ())), .tapi .nothing, .tapi .nothing]

/-- These steps are a run, and each of the three functions has its answer. -/
theorem exec_unreachable (rpc : RpcServer) :
    ∃ tr s', Run (next g c self) (opened rpc 0 0) tr s' ∧ s'.tapi = [] ∧ s'.deleted = true ∧
      requests s'.log = [.returned (.error .operationFailed), .completion 2 none,
        .returned (.ok 2), .returned (.ok 0)] := by
  obtain ⟨r, hr, hs⟩ : ∃ r, exec (next g c self) (opened rpc 0 0) unreachable = some r ∧
      r.2.tapi = [] ∧ r.2.deleted = true ∧
      requests r.2.log = [.returned (.error .operationFailed), .completion 2 none,
        .returned (.ok 2), .returned (.ok 0)] := ⟨_, rfl, rfl, rfl, rfl⟩
  exact ⟨r.1, r.2, .of_exec hr, hs⟩

end Run

end LineState

/-! ## Nothing touches a line that is deleted -/

section Deletion

variable {g : Globals} {c : ClientId} {self : UInt64} {s s' : LineState} {t : Task} {o : Outcome}

/-- Only `TSPI_lineClose` disconnects and deletes the line. -/
theorem Performs.close_not_mem (h : Performs g c self s t s' o) :
    .disconnect ∉ o.tasks ∧ .delete ∉ o.tasks := by
  cases h
  case rpcMakeCall =>
    unfold Outcome.tasks callMade failCall
    split_ifs <;> simp
  case setCallStatus =>
    unfold Outcome.tasks callStatusTasks giveUp
    split_ifs <;> simp
  case processCallMessage | rpcInit | rpcConnectToServer =>
    unfold Outcome.tasks
    split_ifs <;> simp
  all_goals simp [Outcome.tasks, failCall, giveUp]

namespace LineState

/-- The line is deleted at the end of `TSPI_lineClose`, when there is no watchdog. -/
structure Closes (s : LineState) : Prop where
  delete : .delete ∈ s.tapi → s.tapi = [.disconnect, .delete, .leave (.ok 0)] ∨
    s.tapi = [.delete, .leave (.ok 0)]
  deleted : s.deleted = true → s.wdThread = none ∧
    (s.tapi = [.leave (.ok 0)] ∨ s.tapi = [])

/-- A step of a function: `delete` is the last piece but one, and the watchdog is joined.

**Proof sketch.** `delete` is among the pieces of `TSPI_lineClose` only, behind `disconnect`; and it
is the piece that deletes. -/
theorem Closes.tapi {r : LineState} {rest : List Task} (hs : s.Closes)
    (htapi : s.tapi = t :: rest) (hp : Performs g c self s t r o) :
    Closes { r with tapi := o.followedBy rest } := by
  have hsplit : .delete ∈ s.tapi → (t = .disconnect ∧ rest = [.delete, .leave (.ok 0)]) ∨
      t = .delete ∧ rest = [.leave (.ok 0)] := by
    intro hdel
    rcases hs.delete hdel with h | h
    · exact .inl (List.cons.inj (htapi.symm.trans h))
    · exact .inr (List.cons.inj (htapi.symm.trans h))
  constructor
  · intro hdel
    cases o with
    | threw => simp [Outcome.followedBy] at hdel
    | go ts =>
      have hrest : .delete ∈ rest :=
        (List.mem_append.mp hdel).resolve_left hp.close_not_mem.2
      rcases hsplit (htapi ▸ List.mem_cons_of_mem _ hrest) with ⟨rfl, rfl⟩ | ⟨rfl, rfl⟩
      · cases hp <;> exact .inr rfl
      · simp at hrest
  · intro hdeleted
    cases hbefore : s.deleted with
    | true =>
      obtain ⟨hwd, hleft | hleft⟩ := hs.deleted hbefore
      · obtain ⟨rfl, rfl⟩ := List.cons.inj (htapi.symm.trans hleft)
        cases hp
        exact ⟨hwd, .inr rfl⟩
      · rw [htapi] at hleft
        simp at hleft
    | false =>
      obtain ⟨-, rfl | rfl | ⟨-, -, hsame⟩⟩ := hp.threads
      · cases hp
        simp [hbefore] at hdeleted
      · rcases hsplit (htapi ▸ List.mem_cons_self ..) with ⟨hne, -⟩ | ⟨-, rfl⟩
        · simp at hne
        · cases hp
          exact ⟨rfl, .inl rfl⟩
      · simp [hsame, hbefore] at hdeleted

/-- Every step keeps that the line is deleted at the end of `TSPI_lineClose`, and without a
watchdog.

**Proof sketch.** A function is called when the line is alive. A watchdog that goes on has not
ended, so the line is not deleted. -/
theorem Closes.next {e : LineLabel} (hw : s.WatchdogWatches) (hs : s.Closes)
    (h : s.next g c self e = some s') : s'.Closes := by
  rcases next_cases h with ⟨f, -, halive, hidle, rfl⟩ | ⟨_, t, rest, r, o, -, htapi, hp, rfl⟩ |
    ⟨_, t, rest, r, o, -, hwd, hp, rfl⟩
  · refine ⟨fun hf => ?_, fun hdel => by simp [halive] at hdel⟩
    cases f with
    | lineClose => exact .inl rfl
    | lineDevSpecific id pmh => simp [TspiCall.tasks] at hf
    | _ => simp [TspiCall.tasks] at hf
  · exact hs.tapi htapi hp
  · obtain ⟨ht, -⟩ := List.forall_mem_cons.mp (hw _ hwd)
    obtain ⟨htapi, rfl | rfl | ⟨-, -, hdeleted⟩⟩ := hp.threads
    · exact absurd ht id
    · exact absurd ht id
    · refine ⟨fun hdel => ?_, fun hdel => ?_⟩
      · simp only [htapi] at hdel ⊢
        exact hs.delete hdel
      · obtain ⟨hnone, -⟩ := hs.deleted (hdeleted ▸ hdel)
        rw [hwd] at hnone
        simp at hnone

end LineState

end Deletion

/-! ## The functions return -/

/-- A bound on the steps of a piece and of what follows from it. -/
def Task.weight : Task → ℕ
  | makeCall _ => 18
  | connectToServer _ => 17
  | rpcInit _ => 16
  | rpcConnectToServer _ => 15
  | takeCall _ => 14
  | rpcMakeCall _ => 13
  | startWatchdogThread => 8
  | setCallState _ | rpcHangup | completion _ _ | leave _ | setEvent | closeCall | getCallInfo
  | disconnect | delete | resetEvent | waitForMessage => 1
  | dropActiveCall => 2
  | processMessage pmh =>
    match pmh.members with
    | .error _ => 1
    | .ok data => 1 + 9 * data.entries.length
  | processMember _ => 9
  | processCallMessage _ => 8
  | offerCall => 7
  | setCallStatus => 5
  | checkDialing => 5

/-- A bound on the steps of several pieces. -/
def weights : List Task → ℕ
  | [] => 0
  | t :: ts => t.weight + weights ts

/-- The weight of pieces in a row is the sum of their weights. -/
theorem weights_append (ts us : List Task) : weights (ts ++ us) = weights ts + weights us := by
  induction ts with
  | nil => simp [weights]
  | cons t ts ih => rw [List.cons_append, weights, ih, weights, Nat.add_assoc]

/-- A bound on the steps that are left. -/
def LineState.size (s : LineState) : ℕ := weights s.tapi + weights (s.wdThread.getD [])

/-- The pieces of a call status weigh at most four. -/
theorem weights_callStatusTasks (status : Bytes) : weights (callStatusTasks status) ≤ 4 := by
  unfold callStatusTasks
  split_ifs <;> decide

/-- The pieces after a call was made weigh at most eleven. -/
theorem weights_callMade (a : MakeCallArgs) (bSuccess : UInt32) (statusMessage : Bytes) :
    weights (callMade a bSuccess statusMessage) ≤ 11 := by
  unfold callMade
  split_ifs <;> simp [weights, failCall, Task.weight]

/-- The members of a message, each with its bound. -/
theorem weights_members (members : List (Bytes × MessageHolder)) :
    weights (members.map .processMember) = 9 * members.length := by
  induction members with
  | nil => rfl
  | cons v members ih =>
    have hcons : weights ((v :: members).map .processMember) =
        9 + weights (members.map .processMember) := rfl
    rw [hcons, ih, List.length_cons]
    omega

section Size

variable {g : Globals} {c : ClientId} {self : UInt64} {s s' : LineState} {t : Task} {o : Outcome}

/-- No piece is without weight. -/
theorem Task.weight_pos (t : Task) : 0 < t.weight := by
  cases t with
  | processMessage pmh =>
    simp only [weight]
    split <;> omega
  | _ => simp [weight]

/-- A piece weighs more than the pieces that follow from it.

**Proof sketch.** By cases on the piece. -/
theorem Performs.weights_lt (h : Performs g c self s t s' o) :
    weights o.tasks < t.weight := by
  cases h
  case rpcMakeCall a _ _ _ afterStatusMessage out _ =>
    have hle := weights_callMade a out.2 (cStr (out.1.bytes ++ afterStatusMessage))
    simp only [Outcome.tasks, Task.weight]
    omega
  case setCallStatus =>
    have hle := weights_callStatusTasks (s.line.msgData.read (bytes "call_status")).1
    simp only [Outcome.tasks, Task.weight]
    omega
  case processMessage hdata =>
    simp only [Outcome.tasks, weights_members, Task.weight, hdata]
    omega
  case processMessage_other | processMessage_threw => exact Task.weight_pos _
  case processCallMessage | rpcInit | rpcConnectToServer =>
    unfold Outcome.tasks
    split_ifs <;> simp [weights, Task.weight]
  all_goals simp [Outcome.tasks, weights, Task.weight, failCall, giveUp]

/-- What a piece leaves to do weighs less than the piece. -/
theorem Performs.followedBy_lt (h : Performs g c self s t s' o) (rest : List Task) :
    weights (o.followedBy rest) < weights (t :: rest) := by
  have hcons : weights (t :: rest) = t.weight + weights rest := rfl
  have hpos := t.weight_pos
  cases o with
  | threw =>
    show 0 < _
    omega
  | go ts =>
    have hlt : weights ts < t.weight := h.weights_lt
    show weights (ts ++ rest) < _
    rw [weights_append]
    omega

/-- A piece weighs more than what follows from it, the watchdog included that it starts.

**Proof sketch.** Starting the watchdog weighs more than its pieces, and it is joined when it has
none. -/
theorem Performs.size_lt (h : Performs g c self s t s' o) (rest : List Task) :
    weights (o.followedBy rest) + weights (s'.wdThread.getD []) <
      weights (t :: rest) + weights (s.wdThread.getD []) := by
  have hleft := h.followedBy_lt rest
  obtain ⟨-, rfl | rfl | ⟨hsame, -⟩⟩ := h.threads
  · cases h
    have hwatchdog : weights watchdog = 7 := rfl
    have hrest : weights ((Outcome.go []).followedBy rest) = weights rest := rfl
    have hcons : weights (.startWatchdogThread :: rest) = 8 + weights rest := rfl
    simp only [Option.getD_some]
    omega
  · cases h
    have hnil : weights [] = 0 := rfl
    simp only [Option.getD_none]
    omega
  · rw [hsame]
    omega

namespace LineState

/-- Every step of a function or of the watchdog decreases the bound. -/
theorem size_lt_of_next {e : LineLabel} (hcall : e.called = none)
    (h : s.next g c self e = some s') : s'.size < s.size := by
  rcases next_cases h with ⟨f, rfl, -⟩ | ⟨_, t, rest, r, o, -, htapi, hp, rfl⟩ |
    ⟨_, t, rest, r, o, -, hwd, hp, rfl⟩
  · simp [LineLabel.called] at hcall
  · have hlt := hp.size_lt rest
    simp only [size, htapi]
    exact hlt
  · have hlt := hp.followedBy_lt rest
    obtain ⟨htapi, -⟩ := hp.threads
    simp only [size, hwd, htapi, Option.getD_some]
    omega

variable (g c self)

/-- An RPC that the runtime does not deliver. -/
def undelivered : Transport := .error rpcSInvalidBinding

/-- A call that is not delivered raises. -/
theorem deliver_undelivered (w : CRPCWrapper) :
    w.deliver undelivered = .error rpcSInvalidBinding := by
  unfold CRPCWrapper.deliver
  split <;> rfl

/-- A piece can always go, unless it has to wait for the watchdog.

**Proof sketch.** By the piece, with an answer for each; those of the service are ones that do not
get there. -/
theorem exists_perform (s : LineState) (t : Task)
    (hjoin : t = .startWatchdogThread ∨ t = .delete → ¬ s.Watching) :
    ∃ answer r, s.perform g c self t answer = some r := by
  have hold : ∀ {t' ts}, ¬ s.Watching → s.wdThread = some (t' :: ts) → False :=
    fun hw hwd => hw ⟨_, _, hwd⟩
  cases t with
  | rpcConnectToServer a =>
    refine ⟨.connectToServer undelivered (openCall false), ?_⟩
    simp [perform, rpcConnectToServer, CRPCWrapper.connectToServer, deliver_undelivered]
  | rpcMakeCall a =>
    refine ⟨.makeCall undelivered openPlatform ⟨List.replicate 255 0, List.length_replicate ..⟩ [],
      ?_⟩
    have hne : rpcSInvalidBinding ≠ rpcSOk := by decide
    simp [perform, rpcMakeCall, CRPCWrapper.makeCall, CRPCWrapper.dispatch, deliver_undelivered,
      hne]
  | startWatchdogThread =>
    refine ⟨.nothing, ?_⟩
    simp only [perform]
    split
    · rename_i hwd
      exact absurd hwd (hold (hjoin (.inl rfl)))
    · exact ⟨_, rfl⟩
  | delete =>
    refine ⟨.nothing, ?_⟩
    simp only [perform]
    split
    · rename_i hwd
      exact absurd hwd (hold (hjoin (.inr rfl)))
    · exact ⟨_, rfl⟩
  | rpcInit a => exact ⟨.init localBinding, _, rfl⟩
  | rpcHangup => exact ⟨.hangup undelivered openPlatform, _, rfl⟩
  | offerCall => exact ⟨.newCall none, _, rfl⟩
  | waitForMessage => exact ⟨.timeout, _, rfl⟩
  | disconnect =>
    refine ⟨.disconnect undelivered, ?_⟩
    simp only [perform]
    split <;> exact ⟨_, rfl⟩
  | processMessage pmh =>
    refine ⟨.nothing, ?_⟩
    simp only [perform]
    repeat' split
    all_goals exact ⟨_, rfl⟩
  | processMember v =>
    refine ⟨.nothing, ?_⟩
    simp only [perform]
    repeat' split
    all_goals exact ⟨_, rfl⟩
  | processCallMessage msg =>
    refine ⟨.nothing, ?_⟩
    simp only [perform]
    split <;> exact ⟨_, rfl⟩
  | _ => exact ⟨.nothing, _, rfl⟩

/-- **Progress.** As long as a function or the watchdog has pieces left, one of them can go.

**Proof sketch.** The watchdog never waits for a function, so it can go. Without it, the function
can. -/
theorem exists_next {s : LineState} (hw : s.WatchdogWatches)
    (hbusy : ¬ (s.tapi = [] ∧ ¬ s.Watching)) :
    ∃ e s', e.called = none ∧ s.next g c self e = some s' := by
  by_cases hwatching : s.Watching
  · obtain ⟨t, rest, hwd⟩ := hwatching
    obtain ⟨ht, -⟩ := List.forall_mem_cons.mp (hw _ hwd)
    have hjoin : t = .startWatchdogThread ∨ t = .delete → ¬ s.Watching := by
      rintro (rfl | rfl)
      · exact absurd ht id
      · exact absurd ht id
    obtain ⟨answer, r, hr⟩ := exists_perform g c self s t hjoin
    exact ⟨.watchdog answer, { r.1 with wdThread := some (r.2.followedBy rest) }, rfl,
      by simp [LineState.next, hwd, hr]⟩
  · cases htapi : s.tapi with
    | nil => exact absurd ⟨htapi, hwatching⟩ hbusy
    | cons t rest =>
      obtain ⟨answer, r, hr⟩ := exists_perform g c self s t fun _ => hwatching
      exact ⟨.tapi answer, { r.1 with tapi := r.2.followedBy rest }, rfl,
        by simp [LineState.next, htapi, hr]⟩

end LineState

end Size

end Nuacom
