import Nuacom.Provider.LineRequests
import Nuacom.Server.SendString
import Nuacom.Message.Handover

set_option relaxedAutoImplicit false
set_option autoImplicit false

/-!
# Messages for a line

The service hands the messages of the websocket to `TSPI_lineDevSpecific`, each in a buffer with
the address of the line that it is for. The function rebuilds the message from its text and gives
it to the line. A message with a blob comes back with null pointers, which the line follows when it
looks there.

## Main definitions

* `Nuacom.devSpecific` — what `TSPI_lineDevSpecific` makes of its parameters.
* `Nuacom.SizedMessage` — the lengths that the line asks a message for are passed as they are.
* `Nuacom.BrokenMessage` — a message with a null pointer where the line looks.
* `Nuacom.LineState.Judged` — an exception ends exactly the functions that hand over such a message.

## Main results

* `Nuacom.devSpecific_eq_iff` — the messages that arrive as they were sent.
* `Nuacom.LineState.requests_judged` — in every run of a line, an exception ends exactly the
  functions that hand over a broken message.
-/

namespace Nuacom

open CString CMemory Rapidjson Transition

/-! ## The parameters of `TSPI_lineDevSpecific` -/

section DevSpecific

variable (S : Ssio) (P : Parser) (w : PtrWidth)

/-- The line that a message is for, and the holder of the message, if the parameters are a
`SEND_STRING`. -/
def readMessage (lpParams : Memory) : Option (ℕ × MessageHolder) :=
  if readDword lpParams RPCHeader.dwCommand = sendStringCommand then
    let sd := RPCHeader.data
    let dwDataSize := readDword lpParams (sd + StringData.dwDataSize w)
    let doc := parse P .null (lpParams.read (sd + StringData.data w) dwDataSize)
    some (ofLeBytes (lpParams.read (sd + StringData.callback w) w.bytes),
      .new (S.fromJson doc []))
  else none

/-- `TSPI_lineDevSpecific`, as a function that is called on the line at the address `self`. -/
def devSpecific (self : UInt64) (dwRequestID : RequestId) (lpParams : Memory) : TspiCall :=
  .lineDevSpecific dwRequestID (((readMessage S P w lpParams).filter fun r =>
    r.1 = self.toNat).map Prod.snd)

variable {S P w}

/-- What `SendString` of the service puts into the buffer is read from it. -/
theorem readMessage_filled {hCallback : UInt64} {msg : Bytes} (h : BufferFits w hCallback msg)
    (m : Memory) : readMessage S P w (filled w hCallback msg m) =
      some (hCallback.toNat, .new (S.fromJson (parse P .null msg) [])) := by
  have hbuffer := (fillBuffer_wellFormed_iff w hCallback msg m).mpr h
  simp only [readMessage, hbuffer.command, if_true, hbuffer.callback, hbuffer.length,
    hbuffer.text]

/-- **Messages for a line.** A message without doubles that the service sends to a line arrives
there as it was sent exactly when it is plain. Here the buffer fits, and the text that is written
for the message parses to the document it was written from.

**Proof sketch.** The buffer is read as it was filled, with the address of the line and the text of
the message; from its document the message is rebuilt without buffers. -/
theorem devSpecific_eq_iff (hS : S.Documented) {dtoa : UInt64 → Bytes}
    (hdtoa : ∀ bits, NulFree (dtoa bits)) {self : UInt64} {m : Message}
    (hm : m.Tree fun _ => False)
    (hP : P (write dtoa (S.acceptMessage m []).1) = some (S.acceptMessage m []).1)
    (hfits : BufferFits w self (ConnectionContext.processMessage S dtoa m))
    (dwRequestID : RequestId) (mem : Memory) :
    devSpecific S P w self dwRequestID
        (filled w self (ConnectionContext.processMessage S dtoa m) mem) =
      .lineDevSpecific dwRequestID (some (.new (some m))) ↔ m.Plain S := by
  have htext : ConnectionContext.processMessage S dtoa m = write dtoa (S.acceptMessage m []).1 :=
    cStr_of_nulFree (nulFree_write hdtoa _)
  rw [devSpecific, readMessage_filled hfits, htext]
  simp only [parse, hP, Option.getD_some, Option.filter, decide_true, if_true, Option.map_some,
    TspiCall.lineDevSpecific.injEq, true_and, Option.some.injEq, MessageHolder.new,
    MessageHolder.mk.injEq, and_true]
  rw [hS.accept m hm, hS.fromJson_toJson_iff hm]

end DevSpecific

/-- A call that rings. -/
def ringing : Message :=
  .object ([(bytes "7", .object ([(bytes "call_status", .string (bytes "ringing"))].map
    fun e => (e.1, some e.2)))].map fun e => (e.1, some e.2))

/-- It arrives as it was sent.

**Proof sketch.** The message is a plain tree, so it arrives as it was sent. -/
theorem devSpecific_ringing :
    devSpecific Ssio.socketIo
        (parserOf (fun _ => []) (Ssio.socketIo.acceptMessage ringing []).1) .x64 5 1
        (filled .x64 5 (ConnectionContext.processMessage Ssio.socketIo (fun _ => []) ringing)
          fun _ => 0) =
      .lineDevSpecific 1 (some (.new (some ringing))) := by
  have htree : ringing.Tree fun _ => False := by
    refine .object (List.pairwise_singleton ..) (List.forall_mem_singleton.mpr ?_)
    exact .object (List.pairwise_singleton ..) (List.forall_mem_singleton.mpr (.string _))
  have hplain : ringing.Plain Ssio.socketIo := by
    refine Message.plain_object_iff.mpr ⟨List.forall_mem_singleton.mpr ?_, rfl⟩
    exact Message.plain_object_iff.mpr ⟨List.forall_mem_singleton.mpr (.string _), rfl⟩
  exact (devSpecific_eq_iff Ssio.documented_socketIo (fun _ => List.not_mem_nil) htree (if_pos rfl)
    (by decide) 1 _).mpr hplain

/-! ## Null pointers in a message -/

/-- One of the members is a null pointer. -/
def NullMember (members : List (Bytes × Option Message)) : Prop := ∃ e ∈ members, e.2 = none

/-- The line follows a null pointer when it looks at this member of a message. -/
def BrokenMember (v : Option Message) : Prop := ∀ m, v = some m → NullMember m.getMap

/-- The line follows a null pointer when it looks at this message. -/
def BrokenMessage (v : Option Message) : Prop :=
  ∀ m, v = some m → ∃ e ∈ m.getMap, BrokenMember e.2

/-- The lengths that the line asks a member of a message for are passed as they are. -/
structure SizedMember (m : Message) : Prop where
  sorted : StdMap.Sorted m.getMap
  names : NamesFit m.getMap
  texts : TextsFit m.getMap

/-- So are those that it asks a message for. -/
structure SizedMessage (m : Message) : Prop where
  sorted : StdMap.Sorted m.getMap
  names : NamesFit m.getMap
  members : ∀ e ∈ m.getMap, ∀ m', e.2 = some m' → SizedMember m'

/-- A message as the websocket delivers it has no null pointers.

**Proof sketch.** In a tree every member of an object is there. -/
theorem not_brokenMessage_of_tree {doubles : UInt64 → Prop} {m : Message} (hm : m.Tree doubles) :
    ¬ BrokenMessage (some m) := by
  intro h
  obtain ⟨e, he, hbroken⟩ := h m rfl
  cases m with
  | object members =>
    obtain ⟨m', hm', htree⟩ := hm.members.2 e he
    obtain ⟨e', he', hnone⟩ := hbroken m' hm'
    cases m' with
    | object call =>
      obtain ⟨m'', hm'', -⟩ := htree.members.2 e' he'
      rw [hm''] at hnone
      simp at hnone
    | _ => simp [Message.getMap] at he'
  | _ => simp [Message.getMap] at he

namespace Task

/-- The piece looks at a message in which no length is cut. -/
def Sized : Task → Prop
  | processMessage pmh => ∃ v, pmh = .new v ∧ ∀ m, v = some m → SizedMessage m
  | processMember e => ∃ v, e.2 = .new v ∧ ∀ m, v = some m → SizedMember m
  | processCallMessage msg =>
    ∃ call hsorted, msg = MessageHolder.holders call hsorted ∧ TextsFit call
  | _ => True

/-- The piece leads to a null pointer. -/
def Broken : Task → Prop
  | processMessage pmh => BrokenMessage pmh.m
  | processMember e => BrokenMember e.2.m
  | processCallMessage msg => ∃ e ∈ msg.entries, e.2.m = none
  | _ => False

/-- Only the pieces of a message can be broken. -/
theorem not_broken_of_not_message {t : Task} (h : ¬ t.Message) : ¬ t.Broken := by
  cases t <;> first | exact id | exact absurd trivial h

end Task

/-- `TSPI_lineDevSpecific` hands over a message in which no length is cut. -/
def TspiCall.Sized (f : TspiCall) : Prop := ∀ u ∈ f.tasks, u.Sized

/-- `TSPI_lineDevSpecific` hands over a message in which the line follows a null pointer. -/
def TspiCall.Broken (f : TspiCall) : Prop := ∃ u ∈ f.tasks, u.Broken

/-! ## The loop over the members of a call -/

namespace DrvLine

/-- The loop of `ProcessCallMessage` ends at a null pointer, and nowhere else.

**Proof sketch.** Induction on the members that are still to come. A member that is a null pointer
ends the loop; others do not, because their texts are passed whole. -/
theorem keepStrings_fault_iff : ∀ (call : List (Bytes × Option Message)) (msgData : MsgData),
    TextsFit call →
    ((keepStrings msgData (call.map fun e => (e.1, MessageHolder.new e.2))).2 ≠ none ↔
      NullMember call) := by
  intro call
  induction call with
  | nil => simp [keepStrings, NullMember]
  | cons e call ih =>
    intro msgData hfit
    obtain ⟨hfit_e, hfit⟩ := List.forall_mem_cons.mp hfit
    rw [List.map_cons, keepStrings]
    cases hm : e.2 with
    | none =>
      have hfault : Callbacks.keepString msgData (e.1, .new none) = .error .nullPointer := rfl
      rw [hfault]
      simp [NullMember, hm]
    | some m =>
      have hkeep := Callbacks.keepString_eq msgData hm hfit_e
      rw [hm] at hkeep
      rw [hkeep]
      refine (ih _ hfit).trans ?_
      simp [NullMember, hm]

end DrvLine

section Cases

variable {g : Globals} {c : ClientId} {self : UInt64} {s s' : LineState} {t : Task} {o : Outcome}

/-- A message that is not an object has no members. -/
theorem Message.getMap_of_flag {m : Message} (h : m.getFlag ≠ .object) : m.getMap = [] := by
  cases m <;> first | rfl | exact absurd rfl h

/-- What the line gets from the holder of a message. -/
theorem getFlag_cases {v : Option Message} (hnames : ∀ m, v = some m →
      StdMap.Sorted m.getMap ∧ NamesFit m.getMap) :
    (v = none ∧ (MessageHolder.new v).getFlag = .error .nullPointer) ∨
      ∃ m, v = some m ∧ (MessageHolder.new v).getFlag = .ok m.getFlag ∧
        ∃ hsorted,
          (MessageHolder.new v).members = .ok (MessageHolder.holders m.getMap hsorted) := by
  cases v with
  | none => exact .inl ⟨rfl, rfl⟩
  | some m =>
    obtain ⟨hsorted, hfit⟩ := hnames m rfl
    exact .inr ⟨m, rfl, rfl, hsorted, MessageHolder.members_eq hsorted hfit⟩

/-- The pieces that do not look at a message are not followed by one that does.

**Proof sketch.** By cases on the piece. -/
theorem Performs.not_message (h : Performs g c self s t s' o) (ht : ¬ t.Message) :
    ∀ u ∈ o.tasks, ¬ u.Message := by
  cases h
  case rpcMakeCall =>
    unfold Outcome.tasks callMade failCall
    split_ifs <;> simp [Task.Message]
  case setCallStatus =>
    unfold Outcome.tasks callStatusTasks giveUp
    split_ifs <;> simp [Task.Message]
  case rpcInit | rpcConnectToServer =>
    unfold Outcome.tasks
    split_ifs <;> simp [Task.Message]
  all_goals first
    | exact absurd trivial ht
    | simp [Outcome.tasks, Task.Message, failCall, giveUp]

/-- A piece that looks at no message.

**Proof sketch.** Such a piece does not throw, and nothing that follows from it looks at a message.
-/
theorem Performs.broken_iff_of_not_message (h : Performs g c self s t s' o) (ht : ¬ t.Message) :
    (∀ ts, o = .go ts → ∀ u ∈ ts, u.Sized) ∧
      (t.Broken ↔ o = .threw ∨ ∃ ts, o = .go ts ∧ ∃ u ∈ ts, u.Broken) := by
  have hgo : o ≠ .threw := by
    rintro rfl
    cases h <;> exact ht trivial
  constructor
  · rintro ts rfl u hu
    have := h.not_message ht u hu
    cases u <;> first | trivial | exact absurd trivial this
  · refine iff_of_false (Task.not_broken_of_not_message ht) ?_
    rintro (hthrew | ⟨ts, rfl, u, hu, hbroken⟩)
    · exact hgo hthrew
    · exact Task.not_broken_of_not_message (h.not_message ht u hu) hbroken

/-- **A piece that looks at a message.** It leads to a null pointer exactly when it follows one, or
a piece that follows from it leads to one.

**Proof sketch.** The holder of a null pointer has no flag. One of a message has the flag of the
message, and its members are those of the message. -/
theorem Performs.broken_iff (h : Performs g c self s t s' o) (ht : t.Sized) :
    (∀ ts, o = .go ts → ∀ u ∈ ts, u.Sized) ∧
      (t.Broken ↔ o = .threw ∨ ∃ ts, o = .go ts ∧ ∃ u ∈ ts, u.Broken) := by
  cases t with
  | processMessage pmh =>
    obtain ⟨v, rfl, hv⟩ := ht
    rcases getFlag_cases fun m hm => ⟨(hv m hm).sorted, (hv m hm).names⟩ with
      ⟨rfl, hflag⟩ | ⟨m, rfl, hflag, hsorted, hmembers⟩
    · have hbroken : (Task.processMessage (.new none)).Broken := by
        intro m hm
        simp [MessageHolder.new] at hm
      cases h
      case processMessage_threw => exact ⟨by simp, iff_of_true hbroken (.inl rfl)⟩
      case processMessage_other _ hok =>
        rw [hflag] at hok
        simp at hok
      case processMessage hok _ =>
        rw [hflag] at hok
        simp at hok
    · cases h
      case processMessage_threw herror =>
        rw [hflag, hmembers] at herror
        simp at herror
      case processMessage_other hother hok =>
        obtain rfl : m.getFlag = _ := Except.ok.inj (hflag.symm.trans hok)
        have hempty := m.getMap_of_flag hother
        refine ⟨by simp, iff_of_false (fun hbroken => ?_) (by simp)⟩
        obtain ⟨e, he, -⟩ := hbroken m rfl
        rw [hempty] at he
        simp at he
      case processMessage data hok hdata =>
        obtain rfl := Except.ok.inj (hmembers.symm.trans hdata)
        constructor
        · rintro _ ⟨rfl⟩ u hu
          obtain ⟨_, he', rfl⟩ := List.mem_map.mp hu
          obtain ⟨e, he, rfl⟩ := List.mem_map.mp he'
          exact ⟨e.2, rfl, (hv m rfl).members e he⟩
        · constructor
          · intro hbroken
            obtain ⟨e, he, hmember⟩ := hbroken m rfl
            exact .inr ⟨_, rfl, _, List.mem_map_of_mem (List.mem_map_of_mem he), hmember⟩
          · rintro (hthrew | ⟨_, ⟨rfl⟩, u, hu, hbroken⟩) m' hm'
            · simp at hthrew
            · obtain rfl : m = m' := Option.some.inj hm'
              obtain ⟨_, he', rfl⟩ := List.mem_map.mp hu
              obtain ⟨e, he, rfl⟩ := List.mem_map.mp he'
              exact ⟨e, he, hbroken⟩
  | processMember e =>
    obtain ⟨k, pmh⟩ := e
    obtain ⟨v, hholder, hv⟩ := ht
    obtain rfl : pmh = .new v := hholder
    rcases getFlag_cases fun m hm => ⟨(hv m hm).sorted, (hv m hm).names⟩ with
      ⟨rfl, hflag⟩ | ⟨m, rfl, hflag, hsorted, hmembers⟩
    · have hbroken : (Task.processMember (k, .new none)).Broken := by
        intro m hm
        simp [MessageHolder.new] at hm
      cases h
      case processMember_threw => exact ⟨by simp, iff_of_true hbroken (.inl rfl)⟩
      case processMember_other _ hok =>
        rw [hflag] at hok
        simp at hok
      case processMember hok _ =>
        rw [hflag] at hok
        simp at hok
    · cases h
      case processMember_threw herror =>
        rw [hflag, hmembers] at herror
        simp at herror
      case processMember_other hother hok =>
        obtain rfl : m.getFlag = _ := Except.ok.inj (hflag.symm.trans hok)
        have hempty := m.getMap_of_flag hother
        refine ⟨by simp, iff_of_false (fun hbroken => ?_) (by simp)⟩
        obtain ⟨e, he, -⟩ := hbroken m rfl
        rw [hempty] at he
        simp at he
      case processMember data hok hdata =>
        obtain rfl := Except.ok.inj (hmembers.symm.trans hdata)
        constructor
        · rintro _ ⟨rfl⟩ u hu
          obtain rfl := List.mem_singleton.mp hu
          exact ⟨m.getMap, hsorted, rfl, (hv m rfl).texts⟩
        · constructor
          · intro hbroken
            obtain ⟨e, he, hnone⟩ := hbroken m rfl
            exact .inr ⟨_, rfl, _, List.mem_singleton_self _, _, List.mem_map_of_mem he, hnone⟩
          · rintro (hthrew | ⟨_, ⟨rfl⟩, u, hu, hbroken⟩) m' hm'
            · simp at hthrew
            · obtain rfl : m = m' := Option.some.inj hm'
              obtain rfl := List.mem_singleton.mp hu
              obtain ⟨_, he', hnone⟩ := hbroken
              obtain ⟨e, he, rfl⟩ := List.mem_map.mp he'
              exact ⟨e, he, hnone⟩
  | processCallMessage msg =>
    obtain ⟨call, hsorted, rfl, htexts⟩ := ht
    have hfault := DrvLine.keepStrings_fault_iff call .empty htexts
    have hbroken : (Task.processCallMessage (MessageHolder.holders call hsorted)).Broken ↔
        NullMember call := by
      constructor
      · rintro ⟨_, he', hnone⟩
        obtain ⟨e, he, rfl⟩ := List.mem_map.mp he'
        exact ⟨e, he, hnone⟩
      · rintro ⟨e, he, hnone⟩
        exact ⟨_, List.mem_map_of_mem he, hnone⟩
    cases h
    case processCallMessage_threw hkeep =>
      change DrvLine.keepStrings .empty (call.map _) = _ at hkeep
      rw [hkeep] at hfault
      exact ⟨by simp, iff_of_true (hbroken.mpr (hfault.mp (by simp))) (.inl rfl)⟩
    case processCallMessage_ignored _ hkeep =>
      change DrvLine.keepStrings .empty (call.map _) = _ at hkeep
      rw [hkeep] at hfault
      refine ⟨by simp, iff_of_false (fun h => absurd rfl (hfault.mpr (hbroken.mp h))) (by simp)⟩
    case processCallMessage _ hkeep =>
      change DrvLine.keepStrings .empty (call.map _) = _ at hkeep
      rw [hkeep] at hfault
      refine ⟨?_, iff_of_false (fun h => absurd rfl (hfault.mpr (hbroken.mp h))) ?_⟩
      · rintro _ ⟨rfl⟩
        split_ifs <;> simp [Task.Sized]
      · split_ifs <;> simp [Task.Broken]
  | _ => exact h.broken_iff_of_not_message id

/-- What the caller of a function sees of a piece: an exception exactly when the piece throws. -/
theorem Performs.requests_threw (h : Performs g c self s t s' o) :
    ∃ new, requests s'.log = requests s.log ++ new ∧ (.threw ∈ new ↔ o = .threw) := by
  cases h
  case completion => exact ⟨_, requests_append .., by simp [requests, LineEvent.isRequest]⟩
  case leave | processMessage_threw | processMember_threw | processCallMessage_threw =>
    exact ⟨_, requests_append .., by simp [requests, LineEvent.isRequest]⟩
  all_goals exact ⟨[], by simp [requests, LineState.send, LineState.setCallState,
    LineEvent.isRequest], by simp⟩

end Cases

/-! ## Exceptions in a run -/

/-- The answer to a function: an exception exactly when it hands over a broken message. -/
def JustlyEnds (f : TspiCall) (answer : List LineEvent) : Prop :=
  Ends f answer ∧ (.threw ∈ answer ↔ f.Broken)

namespace LineState

/-- The functions that are done are answered so, and the one in progress is going to be. -/
structure JudgedBy (fs : List TspiCall) (s : LineState) (done : List TspiCall)
    (answers : List (List LineEvent)) (f : Option TspiCall) (l : List LineEvent) : Prop where
  calls : fs = done ++ f.toList
  ended : List.Forall₂ JustlyEnds done answers
  log : requests s.log = answers.flatten ++ l
  awaits : Awaits f l s.tapi
  not_threw : .threw ∉ l
  broken : ∀ x, f = some x → (x.Broken ↔ ∃ u ∈ s.tapi, u.Broken)
  sized : ∀ u ∈ s.tapi, u.Sized

/-- An exception ends exactly the functions that hand over a broken message. -/
def Judged (fs : List TspiCall) (s : LineState) : Prop :=
  ∃ done answers f l, JudgedBy fs s done answers f l

section Run

variable {g : Globals} {c : ClientId} {self : UInt64}

/-- A piece of the function in progress.

**Proof sketch.** When it throws, the function ends with the exception, and it was going to. When it
does not, what is left leads to a null pointer as before; where nothing is left, there was none. -/
theorem JudgedBy.step {fs done : List TspiCall} {answers : List (List LineEvent)}
    {f : Option TspiCall} {l : List LineEvent} {s r : LineState} {t : Task} {rest : List Task}
    {o : Outcome} (hs : JudgedBy fs s done answers f l) (htapi : s.tapi = t :: rest)
    (hp : Performs g c self s t r o) : Judged fs { r with tapi := o.followedBy rest } := by
  obtain ⟨new, hnew, hthrew⟩ := hp.requests_threw
  have hsized : ∀ u ∈ t :: rest, u.Sized := fun u hu => hs.sized u (htapi ▸ hu)
  obtain ⟨hnext, hbroken⟩ := hp.broken_iff (hsized t (List.mem_cons_self ..))
  obtain ⟨new', hnew', hstep⟩ := Awaits.step (htapi ▸ hs.awaits) hp
  obtain rfl : new = new' := List.append_cancel_left (hnew.symm.trans hnew')
  have hleft : ∀ x, f = some x → (x.Broken ↔ o = .threw ∨ ∃ u ∈ o.followedBy rest, u.Broken) := by
    intro x hx
    rw [hs.broken x hx, htapi]
    cases o with
    | threw => simpa using .inl (hbroken.mpr (.inl rfl))
    | go ts =>
      have ht : t.Broken ↔ ∃ u ∈ ts, u.Broken := by simpa using hbroken
      simp only [List.mem_cons, or_and_right, exists_or, exists_eq_left, ht, Outcome.followedBy,
        List.mem_append, reduceCtorEq, false_or]
  rcases hstep with hawaits | ⟨hnil, x, rfl, hends⟩
  · have hgo : o ≠ .threw := by
      rintro rfl
      obtain ⟨-, hl⟩ := hawaits.eq_none_of_nil
      have hmem : LineEvent.threw ∈ l ++ new := List.mem_append_right _ (hthrew.mpr rfl)
      rw [hl] at hmem
      simp at hmem
    refine ⟨done, answers, f, l ++ new, hs.calls, hs.ended, ?_, hawaits, ?_, fun x hx => ?_, ?_⟩
    · rw [hnew, hs.log, List.append_assoc]
    · rw [List.mem_append, hthrew]
      exact not_or.mpr ⟨hs.not_threw, hgo⟩
    · exact (hleft x hx).trans (or_iff_right hgo)
    · cases o with
      | threw => exact absurd rfl hgo
      | go ts =>
        exact List.forall_mem_append.mpr
          ⟨hnext ts rfl, fun u hu => hsized u (List.mem_cons_of_mem _ hu)⟩
  · have hx : .threw ∈ l ++ new ↔ x.Broken := by
      rw [hleft x rfl, hnil, List.mem_append, hthrew]
      simp [hs.not_threw]
    refine ⟨done ++ [x], answers ++ [l ++ new], none, [], ?_,
      List.rel_append hs.ended (.cons ⟨hends, hx⟩ .nil), ?_, ?_, by simp, by simp, ?_⟩
    · rw [hs.calls]
      simp
    · rw [hnew, hs.log]
      simp
    · rw [hnil]
      exact .idle
    · rw [hnil]
      simp

/-- Every step keeps this, when the messages that are handed over have lengths that fit.

**Proof sketch.** A function that is called is judged by its message; its steps keep that, and the
watchdog does not look at messages. -/
theorem Judged.next {fs : List TspiCall} {s s' : LineState} {e : LineLabel}
    (hw : s.WatchdogWatches) (hs : Judged fs s) (hsized : ∀ f, e.called = some f → f.Sized)
    (h : s.next g c self e = some s') : Judged (fs ++ e.called.toList) s' := by
  obtain ⟨done, answers, f, l, hs⟩ := hs
  rcases next_cases h with ⟨x, rfl, -, hidle, rfl⟩ | ⟨_, t, rest, r, o, rfl, htapi, hp, rfl⟩ |
    ⟨_, t, rest, r, o, rfl, hwd, hp, rfl⟩
  · obtain ⟨rfl, rfl⟩ := (hidle ▸ hs.awaits).eq_none_of_nil
    refine ⟨done, answers, some x, [], ?_, hs.ended, hs.log, .call x, by simp, ?_,
      hsized x rfl⟩
    · rw [hs.calls]
      simp [LineLabel.called]
    · rintro _ ⟨⟩
      exact Iff.rfl
  · simpa [LineLabel.called] using hs.step htapi hp
  · obtain ⟨ht, -⟩ := List.forall_mem_cons.mp (hw _ hwd)
    obtain ⟨new, rfl, -, hsame⟩ := hp.of_watch ht
    obtain ⟨htapi, -⟩ := hp.threads
    refine ⟨done, answers, f, l, ?_, hs.ended, ?_, ?_, hs.not_threw, ?_, ?_⟩
    · simpa [LineLabel.called] using hs.calls
    · rw [hsame, hs.log]
    · simp only [htapi]
      exact hs.awaits
    · simp only [htapi]
      exact hs.broken
    · simp only [htapi]
      exact hs.sized

/-- The answers after a run.

**Proof sketch.** Induction on the run, with the functions that were called before it. -/
theorem Judged.run {s s' : LineState} {tr : List (Step LineState LineLabel)}
    (h : Run (LineState.next g c self) s tr s') : ∀ {fs : List TspiCall}, s.WatchdogWatches →
      Judged fs s → (∀ f ∈ calls tr, f.Sized) → Judged (fs ++ calls tr) s' := by
  induction h with
  | nil s =>
    intro fs _ hs _
    simpa [calls] using hs
  | @cons s m s' e tr hs _ ih =>
    intro fs hw hfs hsized
    rw [calls_cons] at hsized ⊢
    obtain ⟨hsized_e, hsized⟩ := List.forall_mem_append.mp hsized
    rw [← List.append_assoc]
    exact ih (hw.next hs) (hfs.next hw (fun f hf => hsized_e f (by simp [hf])) hs) hsized

variable (g c self)

/-- A message with a null pointer in the place of a member is handed over. -/
def broken : List LineLabel :=
  [.call (.lineDevSpecific 1 (some (.new (some (.object [(bytes "7", none)]))))), .tapi .nothing,
    .tapi .nothing]

end Run

end LineState

end Nuacom
