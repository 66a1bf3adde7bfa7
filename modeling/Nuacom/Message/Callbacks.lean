import Nuacom.Message.Ssio
import Nuacom.Server.Connection

set_option relaxedAutoImplicit false
set_option autoImplicit false

/-!
# The channel to hang up

The test client looks through every message for calls, keeps the text behind `SIP/` of the last
channel that a call announces, and hangs up that channel. It reads a message through
`IMessageHolder`, which enumerates the members of an object by an index, from a copy that it makes
when it is first asked for one, and passes lengths as `int`.

## Main definitions

* `Nuacom.MessageHolder` — a holder, with `getFlag`, `getString`, `getObjectLength`, `getKey` and
  `getData`.
* `Nuacom.MessageHolder.members` — the loop over the members of an object.
* `Nuacom.Callbacks`, with `processMessage`, `processObjectMessage`, `processCallMessage` — the
  client.
* `Nuacom.announcedBy` — the channels that a message announces.
* `Nuacom.TargetsLast` — the client keeps, and hangs up, the last channel announced.

## Main results

* `Nuacom.MessageHolder.members_eq` — the loop collects the members of an object.
* `Nuacom.processMessages_targetsLast` — the client targets the last channel, for messages whose
  lengths an `int` can hold.

## Implementation notes

A holder is passed by value: the functions below never look at the copy in a holder again after
the loop over its members. Lengths are converted to `int` by wrapping around, as the compilers of
the repository do it. An exception that leaves `ProcessMessage`, and an access that is undefined,
is a fault.
-/

namespace Nuacom

open CString

/-! ## Holders -/

/-- How a holder is left without a result. -/
inductive HolderFault
  /-- A null pointer is followed. -/
  | nullPointer
  /-- `std::length_error` -/
  | lengthError
  /-- An index behind the end of a vector. -/
  | outOfRange
  deriving DecidableEq, Repr

/-- A `size_t` converted to `int`. -/
def toInt (n : ℕ) : ℤ := (n : ℤ).bmod (2 ^ 32)

/-- `std::string s(ptr, length)`, for a pointer to `data`. -/
def stdString (data : Bytes) (length : ℤ) : Except HolderFault Bytes :=
  if length < 0 then .error .lengthError else .ok (data.take length.toNat)

/-- `get_string`; other kinds of messages have no text. -/
def Message.getString : Message → Bytes
  | .string s => s
  | _ => []

/-- `MessageHolder` -/
structure MessageHolder where
  /-- `_m` -/
  m : Option Message
  keys : List Bytes
  /-- The messages of the holders in `values`. -/
  values : List (Option Message)
  keysRetrieved : Bool

namespace MessageHolder

/-- The constructor. -/
def new (m : Option Message) : MessageHolder := ⟨m, [], [], false⟩

variable (h : MessageHolder)

/-- `_m->` -/
def message : Except HolderFault Message :=
  match h.m with
  | none => .error .nullPointer
  | some m => .ok m

/-- `get_flag` -/
def getFlag : Except HolderFault Flag := do
  return (← h.message).getFlag

/-- `get_string`: the pointer and the length. -/
def getString : Except HolderFault (Bytes × ℤ) := do
  let s := (← h.message).getString
  return (s, toInt s.length)

/-- `get_object_length` -/
def getObjectLength : Except HolderFault ℤ := do
  return toInt (← h.message).getMap.length

/-- The copy of the members, made when it is first needed. -/
def retrieve : Except HolderFault MessageHolder := do
  if h.keysRetrieved then return h
  let v := (← h.message).getMap
  return { h with
    keys := h.keys ++ v.map Prod.fst
    values := h.values ++ v.map Prod.snd
    keysRetrieved := true }

/-- `get_key`: the pointer and the length, and the holder afterwards. -/
def getKey (index : ℕ) : Except HolderFault ((Bytes × ℤ) × MessageHolder) := do
  let h ← h.retrieve
  match h.keys[index]? with
  | none => .error .outOfRange
  | some s => return ((s, toInt s.length), h)

/-- `get_data`: the holder of the member, and the holder afterwards. -/
def getData (index : ℕ) : Except HolderFault (MessageHolder × MessageHolder) := do
  let h ← h.retrieve
  match h.values[index]? with
  | none => .error .outOfRange
  | some v => return (new v, h)

/-- The loop over the members of an object, with `n` members from the index `j` on to come. -/
def collect : ℕ → ℕ → MessageHolder → StdMap Bytes MessageHolder →
    Except HolderFault (StdMap Bytes MessageHolder)
  | 0, _, _, data => return data
  | n + 1, j, h, data => do
    let ((ptr, length), h) ← h.getKey j
    let s ← stdString ptr length
    let (obj, h) ← h.getData j
    collect n (j + 1) h (data.assign s obj)

/-- The members of an object, as the two functions of the client that need them collect them. -/
def members : Except HolderFault (StdMap Bytes MessageHolder) := do
  let l ← h.getObjectLength
  collect l.toNat 0 h .empty

end MessageHolder

/-! ## The client -/

/-- `Callbacks` -/
structure Callbacks where
  localChannel : Bytes
  msgData : StdMap Bytes Bytes

namespace Callbacks

/-- The client when it starts. -/
def start : Callbacks := ⟨[], .empty⟩

/-- The loop of `ProcessCallMessage`: keep the members that are strings. -/
def keepString (msgData : StdMap Bytes Bytes) (v : Bytes × MessageHolder) :
    Except HolderFault (StdMap Bytes Bytes) := do
  if (← v.2.getFlag) = .string then
    let (ptr, length) ← v.2.getString
    let s ← stdString ptr length
    return msgData.assign v.1 s
  else return msgData

/-- `ProcessCallMessage`; the name of the call is not used. -/
def processCallMessage (c : Callbacks) (_msgId : Bytes) (msg : StdMap Bytes MessageHolder) :
    Except HolderFault Callbacks := do
  let msgData ← msg.entries.foldlM keepString .empty
  let (channel, msgData) := msgData.get (bytes "local_channel")
  let localChannel :=
    if 4 < channel.length then
      if channel.take 4 = bytes "SIP/" then channel.drop 4 else c.localChannel
    else c.localChannel
  return ⟨localChannel, msgData⟩

/-- The loop of `ProcessObjectMessage`: look into the members that are objects. -/
def processMember (c : Callbacks) (v : Bytes × MessageHolder) : Except HolderFault Callbacks := do
  if (← v.2.getFlag) ≠ .object then return c
  let data ← v.2.members
  c.processCallMessage v.1 data

/-- `ProcessObjectMessage` -/
def processObjectMessage (c : Callbacks) (msg : StdMap Bytes MessageHolder) :
    Except HolderFault Callbacks :=
  msg.entries.foldlM processMember c

/-- `ProcessMessage` -/
def processMessage (c : Callbacks) (pmh : MessageHolder) : Except HolderFault Callbacks := do
  if (← pmh.getFlag) ≠ .object then return c
  let data ← pmh.members
  c.processObjectMessage data

end Callbacks

/-- The client after the messages, in the order in which they arrive. -/
def processMessages (msgs : List SsioMessage) : Except HolderFault Callbacks :=
  msgs.foldlM (fun c m => c.processMessage (.new (some m.val))) .start

/-! ## Lengths that an `int` can hold -/

/-- A length below 2^31 is passed as it is. -/
theorem toInt_of_lt {n : ℕ} (h : n < 2 ^ 31) : toInt n = n := by
  unfold toInt
  rw [Int.bmod_def]
  omega

/-- A string whose length is passed as it is, is read whole. -/
theorem stdString_of_lt {s : Bytes} (h : s.length < 2 ^ 31) :
    stdString s (toInt s.length) = .ok s := by
  rw [toInt_of_lt h, stdString, if_neg (by omega), Int.toNat_natCast, List.take_length]

/-- The number of the members, and the lengths of their names, are passed as they are. -/
structure NamesFit (members : List (Bytes × Option Message)) : Prop where
  number : members.length < 2 ^ 31
  names : ∀ e ∈ members, e.1.length < 2 ^ 31

/-- The lengths of the texts among the members are passed as they are. -/
def TextsFit (members : List (Bytes × Option Message)) : Prop :=
  ∀ e ∈ members, ∀ s, e.2 = some (.string s) → s.length < 2 ^ 31

/-- The lengths that the client asks a message for are passed as they are. -/
structure Message.Fits (m : Message) : Prop where
  members : NamesFit m.getMap
  calls : ∀ e ∈ m.getMap, ∀ v, e.2 = some v → NamesFit v.getMap ∧ TextsFit v.getMap

/-! ## The loop over the members -/

namespace MessageHolder

/-- A holder that has made its copy. -/
def copied (m : Message) : MessageHolder :=
  ⟨some m, m.getMap.map Prod.fst, m.getMap.map Prod.snd, true⟩

/-- The copy is made once: with or without it, the holder has it afterwards. -/
theorem retrieve_new (m : Message) : (new (some m)).retrieve = .ok (copied m) := rfl

/-- A second `retrieve` leaves the copy as it is. -/
theorem retrieve_copied (m : Message) : (copied m).retrieve = .ok (copied m) := rfl

/-- One turn of the loop. -/
theorem collect_succ {h h₁ h₂ obj : MessageHolder} {n j : ℕ} {data : StdMap Bytes MessageHolder}
    {ptr s : Bytes} {length : ℤ} (hkey : h.getKey j = .ok ((ptr, length), h₁))
    (hs : stdString ptr length = .ok s) (hdata : h₁.getData j = .ok (obj, h₂)) :
    collect (n + 1) j h data = collect n (j + 1) h₂ (data.assign s obj) := by
  simp only [collect, hkey, hs, hdata, bind, Except.bind]

/-- The loop runs as often as the length says. -/
theorem members_of_length {h : MessageHolder} {l : ℤ} (hl : h.getObjectLength = .ok l) :
    h.members = collect l.toNat 0 h .empty := by
  simp only [members, hl, bind, Except.bind]

/-- The loop assigns the members that are still to come, one after another.

**Proof sketch.** Induction on these members. The first of them stands at the index, in the keys
and in the values of the copy, and the rest begins at the next index. -/
theorem collect_eq {m : Message} (hnames : ∀ e ∈ m.getMap, e.1.length < 2 ^ 31) :
    ∀ (rest done : List (Bytes × Option Message)) (h : MessageHolder)
      (data : StdMap Bytes MessageHolder), m.getMap = done ++ rest →
      h.retrieve = .ok (copied m) →
      collect rest.length done.length h data =
        .ok (rest.foldl (fun d e => d.assign e.1 (new e.2)) data) := by
  intro rest
  induction rest with
  | nil => intro _ _ _ _ _; rfl
  | cons e rest ih =>
    intro done h data hsplit hretrieve
    have hkey : (copied m).keys[done.length]? = some e.1 := by
      simp [copied, hsplit]
    have hvalue : (copied m).values[done.length]? = some e.2 := by
      simp [copied, hsplit]
    have hmem : e ∈ m.getMap := by
      rw [hsplit]
      simp
    have hname := stdString_of_lt (hnames e hmem)
    have hgetKey : h.getKey done.length = .ok ((e.1, toInt e.1.length), copied m) := by
      simp only [getKey, hretrieve, bind, Except.bind, hkey]
      rfl
    have hgetData : (copied m).getData done.length = .ok (new e.2, copied m) := by
      simp only [getData, retrieve_copied, bind, Except.bind, hvalue]
      rfl
    have hnext := ih (done ++ [e]) (copied m) (data.assign e.1 (new e.2))
      (by rw [hsplit, List.append_assoc]; rfl) (retrieve_copied m)
    rw [List.length_append, List.length_singleton] at hnext
    rw [List.length_cons, collect_succ hgetKey hname hgetData, hnext, List.foldl_cons]

/-- The members of an object, each with a holder of its own. -/
def holders (members : List (Bytes × Option Message)) (hsorted : StdMap.Sorted members) :
    StdMap Bytes MessageHolder :=
  ⟨members.map fun e : Bytes × Option Message => (e.1, new e.2), hsorted.map new⟩

/-- **The members of an object.** The loop collects the members of an object, each with a holder of
its own, in the order of their names. -/
theorem members_eq {m : Message} (hsorted : StdMap.Sorted m.getMap) (hfit : NamesFit m.getMap) :
    (new (some m)).members = .ok (holders m.getMap hsorted) := by
  have hlength : (new (some m)).getObjectLength = .ok (toInt m.getMap.length) := rfl
  have hloop := collect_eq hfit.names m.getMap [] (new (some m)) .empty rfl (retrieve_new m)
  rw [List.length_nil] at hloop
  rw [toInt_of_lt hfit.number] at hlength
  rw [members_of_length hlength, Int.toNat_natCast, hloop]
  refine congrArg Except.ok (StdMap.ext ?_)
  have hentries := StdMap.entries_foldl_assign
    (m.getMap.map fun e : Bytes × Option Message => (e.1, new e.2)) .empty (hsorted.map new)
  rw [List.foldl_map] at hentries
  exact hentries

end MessageHolder

/-! ## The channels announced -/

/-- The text of a member that is a string. -/
def textOf : Option Message → Option Bytes
  | some (.string s) => some s
  | _ => none

/-- Only strings have a text. -/
theorem textOf_eq_some_iff (v : Option Message) (s : Bytes) :
    textOf v = some s ↔ v = some (.string s) := by
  rcases v with _ | m
  · simp [textOf]
  · cases m <;> simp [textOf]

/-- The texts among the members, with their names. -/
def textsOf (call : List (Bytes × Option Message)) : List (Bytes × Bytes) :=
  call.filterMap fun e => (textOf e.2).map fun s => (e.1, s)

/-- The texts of the members, one member after the other. -/
theorem textsOf_cons (e : Bytes × Option Message) (call : List (Bytes × Option Message)) :
    textsOf (e :: call) = match textOf e.2 with
      | none => textsOf call
      | some s => (e.1, s) :: textsOf call := by
  unfold textsOf
  rw [List.filterMap_cons]
  cases textOf e.2 <;> rfl

/-- The channel that a member of a message announces: its own string member `local_channel`, when
it is longer than four characters and starts with `SIP/`. -/
def announced : Option Message → Option Bytes
  | some (.object call) =>
    match StdMap.findEntry (bytes "local_channel") call with
    | some (some (.string s)) => if 4 < s.length ∧ bytes "SIP/" <+: s then some s else none
    | _ => none
  | _ => none

/-- What is announced begins with the prefix. -/
theorem sip_of_announced {v : Option Message} {channel : Bytes}
    (h : announced v = some channel) : bytes "SIP/" <+: channel := by
  unfold announced at h
  split at h
  · split at h
    · rename_i s _
      by_cases hs : 4 < s.length ∧ bytes "SIP/" <+: s
      · rw [if_pos hs] at h
        rw [← Option.some.inj h]
        exact hs.2
      · simp [hs] at h
    · simp at h
  · simp at h

/-- The channels that a message announces, in the order of its members. -/
def announcedBy (m : Message) : List Bytes := m.getMap.filterMap fun e => announced e.2

/-- The channels that messages announce, in the order of the messages. -/
def announcedIn (msgs : List SsioMessage) : List Bytes := msgs.flatMap fun m => announcedBy m.val

/-- The text behind `SIP/` of the last of the channels, or the text from before. -/
def lastChannel (localChannel : Bytes) (channels : List Bytes) : Bytes :=
  match channels.getLast? with
  | none => localChannel
  | some channel => channel.drop 4

/-- Channels that are announced later replace those from before. -/
theorem lastChannel_append (localChannel : Bytes) (cs ds : List Bytes) :
    lastChannel localChannel (cs ++ ds) = lastChannel (lastChannel localChannel cs) ds := by
  unfold lastChannel
  rw [List.getLast?_append]
  cases ds.getLast? <;> rfl

/-! ## What the client keeps of a message -/

namespace Callbacks

/-- A member that is a string is kept. -/
theorem keepString_of_text {msgData : StdMap Bytes Bytes} {k ptr s : Bytes} {h : MessageHolder}
    {length : ℤ} (hflag : h.getFlag = .ok .string) (hget : h.getString = .ok (ptr, length))
    (hs : stdString ptr length = .ok s) :
    keepString msgData (k, h) = .ok (msgData.assign k s) := by
  simp only [keepString, hflag, hget, hs, bind, Except.bind, if_true]
  rfl

/-- A member whose text cannot be read ends the loop. -/
theorem keepString_of_error {msgData : StdMap Bytes Bytes} {k ptr : Bytes} {h : MessageHolder}
    {length : ℤ} {f : HolderFault} (hflag : h.getFlag = .ok .string)
    (hget : h.getString = .ok (ptr, length)) (hs : stdString ptr length = .error f) :
    keepString msgData (k, h) = .error f := by
  simp only [keepString, hflag, hget, hs, bind, Except.bind, if_true]

/-- A loop that does not end leaves nothing to be read. -/
theorem processCallMessage_of_error {c : Callbacks} {msgId : Bytes}
    {msg : StdMap Bytes MessageHolder} {f : HolderFault}
    (h : msg.entries.foldlM keepString .empty = .error f) :
    c.processCallMessage msgId msg = .error f := by
  simp only [processCallMessage, h, bind, Except.bind]

/-- A turn of the loop over the members of a call. -/
theorem keepString_eq (msgData : StdMap Bytes Bytes) {e : Bytes × Option Message} {m : Message}
    (hm : e.2 = some m) (hfit : ∀ s, e.2 = some (.string s) → s.length < 2 ^ 31) :
    keepString msgData (e.1, .new e.2) = .ok (match textOf e.2 with
      | none => msgData
      | some s => msgData.assign e.1 s) := by
  rw [hm]
  cases m with
  | string s =>
    have hs := stdString_of_lt (hfit s hm)
    have hget : (MessageHolder.new (some (.string s))).getString = .ok (s, toInt s.length) := rfl
    exact keepString_of_text rfl hget hs
  | _ => rfl

/-- The loop over the members of a call keeps their texts, in the order of the names.

**Proof sketch.** Induction on the members that are still to come. A member that is not a string
changes nothing, and the texts are assigned in the order of their names. -/
theorem keepStrings_eq : ∀ (call : List (Bytes × Option Message)) (msgData : StdMap Bytes Bytes),
    (∀ e ∈ call, ∃ m, e.2 = some m) → TextsFit call →
    (call.map fun e => (e.1, MessageHolder.new e.2)).foldlM keepString msgData =
      .ok ((textsOf call).foldl (fun d e => d.assign e.1 e.2) msgData) := by
  intro call
  induction call with
  | nil => intro _ _ _; rfl
  | cons e call ih =>
    intro msgData hsome hfit
    obtain ⟨⟨m, hm⟩, hsome⟩ := List.forall_mem_cons.mp hsome
    obtain ⟨hfit_e, hfit⟩ := List.forall_mem_cons.mp hfit
    rw [List.map_cons, List.foldlM_cons, keepString_eq msgData hm hfit_e]
    show List.foldlM keepString _ _ = _
    rw [ih _ hsome hfit, textsOf_cons]
    cases textOf e.2 <;> rfl

variable {doubles : UInt64 → Prop}

/-- The texts that are kept of a call: their `local_channel` is that of the call.

**Proof sketch.** The entries that are kept are those with a text, and each keeps its key. -/
theorem find?_texts {call : List (Bytes × Option Message)} (hcall : StdMap.Sorted call)
    {msgData : StdMap Bytes Bytes}
    (hentries : msgData.entries = textsOf call) (k s : Bytes) :
    msgData.find? k = some s ↔ StdMap.findEntry k call = some (some (.string s)) := by
  have hfind := StdMap.find?_eq_some_iff ⟨call, hcall⟩ k (some (Message.string s))
  rw [StdMap.find?_eq_some_iff, hentries]
  refine Iff.trans ?_ hfind.symm
  unfold textsOf
  rw [List.mem_filterMap]
  constructor
  · intro h
    obtain ⟨⟨k', v⟩, he, htext⟩ := h
    obtain ⟨s', hs', hpair⟩ := Option.map_eq_some_iff.mp htext
    obtain ⟨rfl, rfl⟩ := Prod.mk.inj hpair
    rw [← (textOf_eq_some_iff v s').mp hs']
    exact he
  · intro h
    exact ⟨_, h, rfl⟩

/-- The channel of a call, from its text `local_channel` or from the empty text that stands for a
missing one.

**Proof sketch.** The client tests the length and the first four characters; together they are what
makes a text announce a channel. -/
theorem lastChannel_announced {call : List (Bytes × Option Message)} {text : Option Bytes}
    (hfind : ∀ s, text = some s ↔
      StdMap.findEntry (bytes "local_channel") call = some (some (.string s)))
    (localChannel : Bytes) :
    lastChannel localChannel (announced (some (.object call))).toList =
      if 4 < (text.getD []).length then
        if (text.getD []).take 4 = bytes "SIP/" then (text.getD []).drop 4 else localChannel
      else localChannel := by
  have hprefix : ∀ s : Bytes, bytes "SIP/" <+: s ↔ s.take 4 = bytes "SIP/" := by
    intro s
    rw [List.prefix_iff_eq_take, eq_comm]
    rfl
  cases text with
  | none =>
    have hnone : announced (some (.object call)) = none := by
      show (match StdMap.findEntry (bytes "local_channel") call with
        | some (some (.string s)) => if 4 < s.length ∧ bytes "SIP/" <+: s then some s else none
        | _ => none) = none
      split
      · rename_i s hs
        exact absurd ((hfind s).mpr hs) (by simp)
      · rfl
    rw [hnone]
    rfl
  | some s =>
    have hs := (hfind s).mp rfl
    simp only [announced, hs, hprefix, Option.getD_some]
    by_cases hlong : 4 < s.length
    · by_cases hsip : s.take 4 = bytes "SIP/"
      · simp [hlong, hsip, lastChannel]
      · simp [hlong, hsip, lastChannel]
    · simp [hlong, lastChannel]

/-- **A call.** The client keeps the channel that a call announces, and the one from before when
the call announces none.

**Proof sketch.** The loop keeps the texts of the members, and what it reads afterwards is the text
`local_channel` or the empty one. -/
theorem processCallMessage_eq (c : Callbacks) (msgId : Bytes) {call : List (Bytes × Option Message)}
    (hcall : StdMap.Sorted call) (hsome : ∀ e ∈ call, ∃ m, e.2 = some m) (hfit : TextsFit call) :
    ∃ c', c.processCallMessage msgId (MessageHolder.holders call hcall) = .ok c' ∧
      c'.localChannel = lastChannel c.localChannel (announced (some (.object call))).toList := by
  have hsorted : StdMap.Sorted (textsOf call) := hcall.filterMap fun e => textOf e.2
  have hloop := keepStrings_eq call .empty hsome hfit
  have hentries := StdMap.entries_foldl_assign (textsOf call) .empty hsorted
  set msgData := (textsOf call).foldl (fun d e => d.assign e.1 e.2)
    (StdMap.empty : StdMap Bytes Bytes)
  have hfind := find?_texts hcall hentries (bytes "local_channel")
  have hprocess : c.processCallMessage msgId (MessageHolder.holders call hcall) = .ok
      ⟨if 4 < (msgData.get (bytes "local_channel")).1.length then
          if (msgData.get (bytes "local_channel")).1.take 4 = bytes "SIP/" then
            (msgData.get (bytes "local_channel")).1.drop 4
          else c.localChannel
        else c.localChannel,
        (msgData.get (bytes "local_channel")).2⟩ := by
    show (List.foldlM keepString .empty
      (call.map fun e => (e.1, MessageHolder.new e.2))).bind _ = _
    rw [hloop]
    rfl
  refine ⟨_, hprocess, ?_⟩
  rw [lastChannel_announced hfind, StdMap.get_fst]
  rfl

/-- A member that is an object is processed as a call. -/
theorem processMember_of_object {c : Callbacks} {k : Bytes} {h : MessageHolder}
    {data : StdMap Bytes MessageHolder} (hflag : h.getFlag = .ok .object)
    (hdata : h.members = .ok data) : c.processMember (k, h) = c.processCallMessage k data := by
  simp [processMember, hflag, hdata, bind, Except.bind]

/-- A message that is an object is processed member by member. -/
theorem processMessage_of_object {c : Callbacks} {h : MessageHolder}
    {data : StdMap Bytes MessageHolder} (hflag : h.getFlag = .ok .object)
    (hdata : h.members = .ok data) : c.processMessage h = c.processObjectMessage data := by
  simp [processMessage, hflag, hdata, bind, Except.bind]

/-- A member of a message: nothing happens unless it is an object, and then it is a call.

**Proof sketch.** Only an object is processed, and its members are collected in the order of their
names. -/
theorem processMember_eq (c : Callbacks) {doubles : UInt64 → Prop} {e : Bytes × Option Message}
    {m : Message} (hm : e.2 = some m) (htree : m.Tree doubles) (hnames : NamesFit m.getMap)
    (htexts : TextsFit m.getMap) :
    ∃ c', c.processMember (e.1, .new e.2) = .ok c' ∧
      c'.localChannel = lastChannel c.localChannel (announced e.2).toList := by
  rw [hm]
  cases m with
  | object call =>
    obtain ⟨hsorted, hsub⟩ := htree.members
    obtain ⟨c', hc', hlocal⟩ := c.processCallMessage_eq e.1 hsorted
      (fun e he => (hsub e he).imp fun _ h => h.1) htexts
    refine ⟨c', ?_, hlocal⟩
    have hmembers := MessageHolder.members_eq (m := .object call) hsorted hnames
    rw [processMember_of_object rfl hmembers]
    exact hc'
  | _ => exact ⟨c, rfl, rfl⟩

/-- The members of a message, one after another.

**Proof sketch.** Induction on the members that are still to come; each takes the channel to the
last one of its own. -/
theorem processMembers_eq {doubles : UInt64 → Prop} : ∀ (members : List (Bytes × Option Message))
    (c : Callbacks), (∀ e ∈ members, ∃ m, e.2 = some m ∧ m.Tree doubles) →
    (∀ e ∈ members, ∀ m, e.2 = some m → NamesFit m.getMap ∧ TextsFit m.getMap) →
    ∃ c', (members.map fun e => (e.1, MessageHolder.new e.2)).foldlM processMember c = .ok c' ∧
      c'.localChannel = lastChannel c.localChannel (members.filterMap fun e => announced e.2) := by
  intro members
  induction members with
  | nil => exact fun c _ _ => ⟨c, rfl, rfl⟩
  | cons e members ih =>
    intro c htree hfit
    obtain ⟨⟨m, hm, htree_m⟩, htree⟩ := List.forall_mem_cons.mp htree
    obtain ⟨hfit_e, hfit⟩ := List.forall_mem_cons.mp hfit
    obtain ⟨c₁, hc₁, hlocal₁⟩ := c.processMember_eq hm htree_m (hfit_e m hm).1 (hfit_e m hm).2
    obtain ⟨c₂, hc₂, hlocal₂⟩ := ih c₁ htree hfit
    refine ⟨c₂, ?_, ?_⟩
    · rw [List.map_cons, List.foldlM_cons, hc₁]
      exact hc₂
    · rw [hlocal₂, hlocal₁, ← lastChannel_append]
      congr 1
      rw [List.filterMap_cons]
      cases announced e.2 <;> rfl

/-- **A message.** The client keeps the last channel that a message announces, and the one from
before when it announces none. -/
theorem processMessage_eq (c : Callbacks) (m : SsioMessage) (hfit : m.val.Fits) :
    ∃ c', c.processMessage (.new (some m.val)) = .ok c' ∧
      c'.localChannel = lastChannel c.localChannel (announcedBy m.val) := by
  obtain ⟨m, htree⟩ := m
  cases m with
  | object members =>
    obtain ⟨hsorted, hsub⟩ := htree.members
    obtain ⟨c', hc', hlocal⟩ := processMembers_eq members c hsub hfit.calls
    refine ⟨c', ?_, hlocal⟩
    have hmembers := MessageHolder.members_eq (m := .object members) hsorted hfit.members
    rw [processMessage_of_object rfl hmembers]
    exact hc'
  | _ => exact ⟨c, rfl, rfl⟩

end Callbacks

/-- **Messages.** After any messages the client has the last channel that one of them announces.

**Proof sketch.** Induction on the messages that are still to come. -/
theorem processMessages_eq : ∀ (msgs : List SsioMessage) (c : Callbacks),
    (∀ m ∈ msgs, m.val.Fits) →
    ∃ c', msgs.foldlM (fun c m => c.processMessage (.new (some m.val))) c = .ok c' ∧
      c'.localChannel = lastChannel c.localChannel (announcedIn msgs) := by
  intro msgs
  induction msgs with
  | nil => exact fun c _ => ⟨c, rfl, rfl⟩
  | cons m msgs ih =>
    intro c hfit
    obtain ⟨hfit_m, hfit⟩ := List.forall_mem_cons.mp hfit
    obtain ⟨c₁, hc₁, hlocal₁⟩ := c.processMessage_eq m hfit_m
    obtain ⟨c₂, hc₂, hlocal₂⟩ := ih c₁ hfit
    refine ⟨c₂, ?_, ?_⟩
    · rw [List.foldlM_cons, hc₁]
      exact hc₂
    · rw [hlocal₂, hlocal₁, ← lastChannel_append]
      rfl

/-! ## Hanging up -/

/-- The part of the URL of `EndCall` in front of the text that a call announces. -/
def terminateUrl : Bytes := bytes "https://call-events.nuacom.ie/call/terminate/"

/-- `Hangup`, called with the local channel of the client, ends the call of the channel announced:
the URL of its request is that of the announced text.

**Proof sketch.** The client cuts `SIP/` off and the base of the URL ends with it; without a zero
byte nothing is lost in between. -/
theorem hangup_url {channel : Bytes} (hsip : bytes "SIP/" <+: channel) (hnul : NulFree channel)
    (s : Service) (w : Platform) {hConn : Ptr} {pcc : ConnectionContext}
    (hpcc : s.heap hConn = some pcc) :
    ∃ channelId, s.hangup w hConn (channel.drop 4 ++ [0]) =
        some (endCall w.http pcc.sessionToken channelId) ∧
      (endCallRequest pcc.sessionToken channelId).url = terminateUrl ++ channel := by
  obtain ⟨rest, rfl⟩ := hsip
  have hdrop : (bytes "SIP/" ++ rest).drop 4 = rest := List.drop_left' rfl
  have hrest : NulFree rest := fun h => hnul (List.mem_append_right _ h)
  refine ⟨rest, ?_, ?_⟩
  · simp only [Service.hangup, hpcc, Option.map_some, hdrop, cStr_append_zero hrest]
  · have hbase : terminateBaseUrl = terminateUrl ++ bytes "SIP/" := by decide
    have hfree : NulFree (endCallUrl rest) := (by decide : NulFree terminateBaseUrl).append hrest
    show cStr (endCallUrl rest) = _
    rw [cStr_of_nulFree hfree, endCallUrl, hbase, List.append_assoc]

/-- The client has the text behind `SIP/` of the last channel announced, or none; and where that
channel has no zero byte, hanging up ends its call. -/
structure TargetsLast (msgs : List SsioMessage) (c : Callbacks) : Prop where
  localChannel : c.localChannel = lastChannel [] (announcedIn msgs)
  hangup : ∀ channel, (announcedIn msgs).getLast? = some channel → NulFree channel →
    ∀ (s : Service) (w : Platform) (hConn : Ptr) (pcc : ConnectionContext),
      s.heap hConn = some pcc →
      ∃ channelId, s.hangup w hConn (c.localChannel ++ [0]) =
          some (endCall w.http pcc.sessionToken channelId) ∧
        (endCallRequest pcc.sessionToken channelId).url = terminateUrl ++ channel

/-- **Hanging up the last channel.** For every sequence of messages whose lengths an `int` can hold,
the client ends with the text behind `SIP/` of the last channel announced, in the order of the
messages and then of their members, and hanging up ends the call of that channel.

**Proof sketch.** The client keeps the last channel by induction on the messages. The last channel
begins with `SIP/`, so that the cut text is the rest of it. -/
theorem processMessages_targetsLast (msgs : List SsioMessage) (hfit : ∀ m ∈ msgs, m.val.Fits) :
    ∃ c, processMessages msgs = .ok c ∧ TargetsLast msgs c := by
  obtain ⟨c, hc, hlocal⟩ := processMessages_eq msgs .start hfit
  replace hlocal : c.localChannel = lastChannel [] (announcedIn msgs) := hlocal
  refine ⟨c, hc, hlocal, ?_⟩
  intro channel hlast hnul s w hConn pcc hpcc
  have hsip : bytes "SIP/" <+: channel := by
    obtain ⟨m, -, hm⟩ := List.mem_flatMap.mp (List.mem_of_getLast? hlast)
    obtain ⟨e, -, he⟩ := List.mem_filterMap.mp hm
    exact sip_of_announced he
  have hdrop : c.localChannel = channel.drop 4 := by
    rw [hlocal, lastChannel, hlast]
  rw [hdrop]
  exact hangup_url hsip hnul s w hpcc

/-- A message with one call, and its channel. -/
def callMessage (msgId channel : Bytes) : SsioMessage where
  val := .object [(msgId, some (.object [(bytes "local_channel", some (.string channel))]))]
  property := by
    have hcall : (Message.object [(bytes "local_channel", some (.string channel))]).Tree
        fun _ => True := by
      show Message.Tree _ (.object ([(bytes "local_channel", Message.string channel)].map
        fun e => (e.1, some e.2)))
      exact .object (List.pairwise_singleton ..) (by simpa using .string channel)
    show Message.Tree _ (.object ([(msgId,
      Message.object [(bytes "local_channel", some (.string channel))])].map
        fun e => (e.1, some e.2)))
    exact .object (List.pairwise_singleton ..) (by simpa using hcall)

/-- What is asked of a message with one call. -/
theorem fits_callMessage {msgId channel : Bytes} (hid : msgId.length < 2 ^ 31)
    (hchannel : channel.length < 2 ^ 31) : (callMessage msgId channel).val.Fits := by
  have hlocal : (bytes "local_channel").length < 2 ^ 31 := by decide
  have hone : 1 < 2 ^ 31 := by decide
  refine ⟨⟨hone, ?_⟩, ?_⟩
  · intro e he
    obtain rfl := List.mem_singleton.mp he
    exact hid
  · intro e he v hv
    obtain rfl := List.mem_singleton.mp he
    obtain rfl := Option.some.inj hv
    refine ⟨⟨hone, fun e he => ?_⟩, fun e he s hs => ?_⟩
    · obtain rfl := List.mem_singleton.mp he
      exact hlocal
    · obtain rfl := List.mem_singleton.mp he
      obtain rfl := Message.string.inj (Option.some.inj hs)
      exact hchannel

/-- Two calls: the second one is hung up. -/
theorem processMessages_two_calls :
    ∃ c, processMessages [callMessage (bytes "1") (bytes "SIP/200"),
        callMessage (bytes "2") (bytes "SIP/300")] = .ok c ∧
      TargetsLast [callMessage (bytes "1") (bytes "SIP/200"),
        callMessage (bytes "2") (bytes "SIP/300")] c ∧
      c.localChannel = bytes "300" := by
  obtain ⟨c, hc, hlast⟩ := processMessages_targetsLast
    [callMessage (bytes "1") (bytes "SIP/200"), callMessage (bytes "2") (bytes "SIP/300")] (by
      simp only [List.forall_mem_cons, List.not_mem_nil, false_implies, implies_true, and_true]
      exact ⟨fits_callMessage (by decide) (by decide), fits_callMessage (by decide) (by decide)⟩)
  refine ⟨c, hc, hlast, ?_⟩
  rw [hlast.localChannel]
  decide

/-- A text whose length becomes negative as an `int`, as the only channel: the exception of
`std::string` leaves `ProcessMessage`.

**Proof sketch.** From the inside out: the string cannot be constructed, so the loop over the
members throws, and with it the call, the member and the message. -/
theorem processMessages_of_long {msgId channel : Bytes} (hid : msgId.length < 2 ^ 31)
    (hlong : toInt channel.length < 0) :
    processMessages [callMessage msgId channel] = .error .lengthError := by
  set call := Message.object [(bytes "local_channel", some (.string channel))] with hcall
  have hone : 1 < 2 ^ 31 := by decide
  have hlocal : (bytes "local_channel").length < 2 ^ 31 := by decide
  have hmessage := MessageHolder.members_eq (m := (callMessage msgId channel).val)
    (List.pairwise_singleton ..) ⟨hone, fun e he => by rw [List.mem_singleton.mp he]; exact hid⟩
  have hmembers := MessageHolder.members_eq (m := call)
    (List.pairwise_singleton ..) ⟨hone, fun e he => by rw [List.mem_singleton.mp he]; exact hlocal⟩
  have htext : (MessageHolder.new (some (.string channel))).getString =
      .ok (channel, toInt channel.length) := rfl
  have hstring : stdString channel (toInt channel.length) = .error .lengthError := if_pos hlong
  have hkeep : Callbacks.keepString .empty
      (bytes "local_channel", .new (some (.string channel))) = .error .lengthError :=
    Callbacks.keepString_of_error rfl htext hstring
  have hloop : (MessageHolder.holders call.getMap (List.pairwise_singleton ..)).entries.foldlM
      Callbacks.keepString .empty = .error .lengthError := by
    show List.foldlM Callbacks.keepString .empty
      [(bytes "local_channel", MessageHolder.new (some (.string channel)))] = _
    rw [List.foldlM_cons, hkeep]
    rfl
  have hmember : Callbacks.start.processMember (msgId, .new (some call)) =
      .error .lengthError := by
    rw [Callbacks.processMember_of_object rfl hmembers]
    exact Callbacks.processCallMessage_of_error hloop
  have hprocess : Callbacks.start.processMessage (.new (some (callMessage msgId channel).val)) =
      .error .lengthError := by
    rw [Callbacks.processMessage_of_object rfl hmessage]
    show List.foldlM Callbacks.processMember Callbacks.start
      [(msgId, MessageHolder.new (some call))] = _
    rw [List.foldlM_cons, hmember]
    rfl
  show List.foldlM _ Callbacks.start [callMessage msgId channel] = _
  rw [List.foldlM_cons, hprocess]
  rfl

/-- A channel of 2^31 + 4 characters: the client does not get to keep it.

**Proof sketch.** The length of the text is negative as an `int`. -/
theorem long_channel_not_kept :
    processMessages [callMessage (bytes "1") (bytes "SIP/" ++ List.replicate (2 ^ 31) 49)] =
      .error .lengthError ∧
    ¬ ∃ c, processMessages
        [callMessage (bytes "1") (bytes "SIP/" ++ List.replicate (2 ^ 31) 49)] = .ok c ∧
      TargetsLast [callMessage (bytes "1") (bytes "SIP/" ++ List.replicate (2 ^ 31) 49)] c := by
  have hlong : toInt (bytes "SIP/" ++ List.replicate (2 ^ 31) 49).length < 0 := by
    rw [List.length_append, List.length_replicate]
    decide
  have herror := processMessages_of_long (show (bytes "1").length < 2 ^ 31 by decide) hlong
  refine ⟨herror, ?_⟩
  rw [herror]
  rintro ⟨c, hc, -⟩
  simp at hc

end Nuacom
