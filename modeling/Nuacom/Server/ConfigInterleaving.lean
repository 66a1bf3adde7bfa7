import Nuacom.Server.Config
import Nuacom.Support.Transition

set_option relaxedAutoImplicit false
set_option autoImplicit false

/-!
# Configuration requests on several threads

The RPC server runs its calls on several threads, and a configuration request is a sequence of
registry operations without a lock around them. Here any number of calls of `SetConfigInfo` and
`GetConfigInfo` run at the same time; a step is one registry operation of one of them, and all
of them succeed. Beside each value the state keeps which call wrote it, and each call keeps what
it has read.

## Main definitions

* `Nuacom.Call`, `Nuacom.configWrites`, `Nuacom.configReads` — the calls and their operations.
* `Nuacom.ConfigState`, `Nuacom.nextOperation` — the state and its steps.
* `Nuacom.AsIfSerial` — the values that are left, and the strings that a call logs in with, all
  come from one call of `SetConfigInfo`.
* `Nuacom.StaysSerial` — the condition on a step.

## Main results

* `Nuacom.setConfigInfo_eq_writes` — the writes are those of `SetConfigInfo`.
* `Nuacom.Tracked.run` — in every run, what is stored and what is read is what the recorded call
  wrote.
* `Nuacom.serialState_step` — steps that meet the condition keep what `Nuacom.SerialState` says.
* `Nuacom.SerialState.asIfSerial` — such states are as if the calls were served one at a time.
-/

namespace Nuacom

open CString Registry Transition

/-! ## The operations of a call -/

/-- The writes of `SetConfigInfo` before the encryption, in their order. -/
def plainWrites (a : Settings) : List (String × Registry.Value) :=
  [(szIncomingLocalFlag, ⟨.dword, dwordBytes a.bIncomingLocal⟩),
    (szIncomingFlag, ⟨.dword, dwordBytes a.bHandleIncoming⟩),
    (szName, ⟨.sz, stringData a.name⟩)]

/-- The writes of `SetConfigInfo`, in their order. -/
def configWrites (w : Platform) (a : Settings) : List (String × Registry.Value) :=
  match encryptData w a.password with
  | .error _ => plainWrites a
  | .ok passwordEncrypted => plainWrites a ++ [(szPassword, ⟨.binary, passwordEncrypted⟩)]

/-- The key after some writes. -/
def writeAll (k : Key) (writes : List (String × Registry.Value)) : Key :=
  writes.foldl (fun k x => Function.update k x.1 (some x.2)) k

/-- A `SetConfigInfo` whose registry calls succeed makes its writes and no others.

**Proof sketch.** Before the encryption the writes are the three plain ones, and behind it the last
one; the login changes nothing in the registry. -/
theorem setConfigInfo_eq_writes {n : ℕ} (w : Platform) (a : Settings) (extension : Buffer n)
    (r : Option Key) : (setConfigInfo w allWritesSucceed a extension r).1 =
      some (writeAll (r.getD fun _ => none) (configWrites w a)) := by
  have hplain : setPlainValues allWritesSucceed a (createKey allWritesSucceed r) =
      some (writeAll (r.getD fun _ => none) (plainWrites a)) := by
    rfl
  unfold setConfigInfo
  rw [hplain]
  cases henc : encryptData w a.password with
  | error f => simp only [configWrites, henc]
  | ok passwordEncrypted =>
    have hwrite : ∀ k : Key, (setValueEx allWritesSucceed.isOpen allWritesSucceed.password
        szPassword ⟨.binary, passwordEncrypted⟩ (some k)).1 =
          some (writeAll k [(szPassword, ⟨.binary, passwordEncrypted⟩)]) := fun k => rfl
    have happ : writeAll (r.getD fun _ => none) (configWrites w a) =
        writeAll (writeAll (r.getD fun _ => none) (plainWrites a))
          [(szPassword, ⟨.binary, passwordEncrypted⟩)] := by
      simp [writeAll, configWrites, henc]
    rw [happ]
    simp only [hwrite]
    split
    · rfl
    · split_ifs <;> rfl

/-- The reads of `GetConfigInfo`, in their order. -/
def configReads : List ConfigRead :=
  [.incomingFlag, .incomingLocalFlag, .name, .passwordSize, .password]

/-- The value that a read is about. -/
def ConfigRead.valueName : ConfigRead → String
  | .incomingFlag => szIncomingFlag
  | .incomingLocalFlag => szIncomingLocalFlag
  | .name => szName
  | .passwordSize => szPassword
  | .password => szPassword

/-- What `GetConfigInfo` reads of the strings depends on the values it reads, each at the moment
of its read, and on nothing else.

**Proof sketch.** Each of the three queries looks at its own value. -/
theorem readStrings_congr {nameSize passwordSize extensionSize : ℕ} (w : Platform)
    {k k' : ConfigRead → Key} (args : ConfigBuffers nameSize passwordSize extensionSize)
    (h : ∀ q ∈ [ConfigRead.name, .passwordSize, .password], k q q.valueName = k' q q.valueName) :
    readStrings w k args = readStrings w k' args := by
  have hquery : ∀ q ∈ [ConfigRead.name, .passwordSize, .password], ∀ wantData size,
      queryValueEx (k q) q.valueName wantData size =
        queryValueEx (k' q) q.valueName wantData size := by
    intro q hq wantData size
    unfold queryValueEx
    rw [h q hq]
  have hname := hquery .name (by simp)
  have hsize := hquery .passwordSize (by simp)
  have hpassword := hquery .password (by simp)
  simp only [ConfigRead.valueName] at hname hsize hpassword
  simp only [readStrings, hname, hsize, hpassword]

/-! ## Calls that run at the same time -/

/-- The call of a client. A call of `SetConfigInfo` comes with what it writes; what a call of
`GetConfigInfo` reads does not depend on its arguments. -/
inductive Call
  | set (w : Platform) (a : Settings)
  | get

abbrev CallId := ℕ

/-- Which call wrote a value; `none` for those that were there before all calls. -/
abbrev Source := Option CallId

/-- How many registry operations a call makes. -/
def Call.length : Call → ℕ
  | .set w a => (configWrites w a).length
  | .get => configReads.length

/-- The registry key, and how far every call has come. -/
structure ConfigState where
  key : Key
  /-- Which call wrote each value. -/
  source : String → Source
  /-- How many of its operations each call has made. -/
  done : CallId → ℕ
  /-- The key at each read of each call. -/
  seen : CallId → ConfigRead → Key
  /-- Which call had written the value, at each read of each call. -/
  seenSource : CallId → ConfigRead → Source

/-- Before all calls. -/
def ConfigState.start (init : Key) : ConfigState where
  key := init
  source _ := none
  done _ := 0
  seen _ _ := init
  seenSource _ _ := none

/-- Call `c` writes the value `v`. -/
def ConfigState.write (s : ConfigState) (c : CallId) (name : String) (v : Registry.Value) :
    ConfigState :=
  { s with
    key := Function.update s.key name (some v)
    source := Function.update s.source name (some c)
    done := Function.update s.done c (s.done c + 1) }

/-- Call `c` makes the read `q`. -/
def ConfigState.read (s : ConfigState) (c : CallId) (q : ConfigRead) : ConfigState :=
  { s with
    done := Function.update s.done c (s.done c + 1)
    seen := Function.update s.seen c (Function.update (s.seen c) q s.key)
    seenSource := Function.update s.seenSource c
      (Function.update (s.seenSource c) q (s.source q.valueName)) }

namespace ConfigState

variable (s : ConfigState) (c : CallId)

/-- A write is one more operation of its call. -/
@[simp]
theorem write_done_self (name : String) (v : Registry.Value) :
    (s.write c name v).done c = s.done c + 1 := Function.update_self ..

/-- A write is an operation of no other call. -/
theorem write_done_of_ne {d : CallId} (hd : d ≠ c) (name : String) (v : Registry.Value) :
    (s.write c name v).done d = s.done d := Function.update_of_ne hd ..

/-- A write is to no other value. -/
theorem write_source_of_ne {n name : String} (hn : n ≠ name) (v : Registry.Value) :
    (s.write c name v).source n = s.source n := Function.update_of_ne hn ..

/-- So is a read. -/
@[simp]
theorem read_done_self (q : ConfigRead) : (s.read c q).done c = s.done c + 1 :=
  Function.update_self ..

/-- Nor is a read. -/
theorem read_done_of_ne {d : CallId} (hd : d ≠ c) (q : ConfigRead) :
    (s.read c q).done d = s.done d := Function.update_of_ne hd ..

/-- A read sees who wrote its value. -/
@[simp]
theorem read_seenSource_self (q : ConfigRead) :
    (s.read c q).seenSource c q = s.source q.valueName := by
  simp [ConfigState.read]

/-- A read leaves alone what other calls have seen. -/
theorem read_seenSource_of_ne {d : CallId} (hd : d ≠ c) (q : ConfigRead) :
    (s.read c q).seenSource d = s.seenSource d := Function.update_of_ne hd ..

/-- A read leaves alone what the call has seen of other reads. -/
theorem read_seenSource_other {q q' : ConfigRead} (hq : q' ≠ q) :
    (s.read c q).seenSource c q' = s.seenSource c q' := by
  simp [ConfigState.read, hq]

end ConfigState

variable (calls : CallId → Call)

/-- The next registry operation of call `c`. -/
def nextOperation (s : ConfigState) (c : CallId) : Option ConfigState :=
  match calls c with
  | .set w a => (configWrites w a)[s.done c]?.map fun x => s.write c x.1 x.2
  | .get => configReads[s.done c]?.map fun q => s.read c q

/-- What the key holds when the values of one call are in it. -/
def keyOf (init : Key) : Source → Key
  | none => init
  | some c =>
    match calls c with
    | .set w a => writeAll init (configWrites w a)
    | .get => init

/-- A call of `SetConfigInfo` has made some of its writes, but not all. -/
def Writing (s : ConfigState) (c : CallId) : Prop :=
  ∃ w a, calls c = .set w a ∧ 0 < s.done c ∧ s.done c < (configWrites w a).length

/-- What is stored and what is read looks as if the calls were served one at a time: when no
call is under way, the four values are those of one `SetConfigInfo`, or the initial ones if
there was none; and the user name and the password that a `GetConfigInfo` has read, to log in
with, are those of one `SetConfigInfo`, or the initial ones. -/
structure AsIfSerial (init : Key) (s : ConfigState) : Prop where
  stored : (∀ c, s.done c = 0 ∨ s.done c = (calls c).length) →
    ∃ src : Source, (∀ name ∈ [szIncomingFlag, szIncomingLocalFlag, szName, szPassword],
      s.source name = src ∧ s.key name = keyOf calls init src name) ∧
      (src = none ↔ ∀ c w a, calls c = .set w a → s.done c = 0)
  login : ∀ c, calls c = .get → s.done c = configReads.length →
    ∃ src : Source, (∀ q ∈ [ConfigRead.name, .passwordSize, .password],
      s.seenSource c q = src) ∧
      ∀ (nameSize passwordSize extensionSize : ℕ) (w : Platform)
        (args : ConfigBuffers nameSize passwordSize extensionSize),
        readStrings w (s.seen c) args = readStrings w (fun _ => keyOf calls init src) args

/-- The condition on a step of call `c`: a `SetConfigInfo` makes its first write when no other
one is between its first and its last write, and it can encrypt its password; it writes the
password when no `GetConfigInfo` is between its reads of the user name and of the password; and
a `GetConfigInfo` reads the user name when no `SetConfigInfo` is between its writes of the user
name and of the password. -/
def StaysSerial (s : ConfigState) (c : CallId) : Prop :=
  match calls c with
  | .set w a =>
    (s.done c = 0 → (∀ d, ¬ Writing calls s d) ∧ ∃ e, encryptData w a.password = .ok e) ∧
      (s.done c = 3 → ∀ g, calls g = .get → s.done g ≠ 3 ∧ s.done g ≠ 4)
  | .get => s.done c = 2 → ∀ d w a, calls d = .set w a → s.done d ≠ 3

/-! ## What holds in every run -/

variable {calls}

/-- A step is a write of a `SetConfigInfo` or a read of a `GetConfigInfo`.

**Proof sketch.** By the kind of the call. -/
theorem nextOperation_cases {s s' : ConfigState} {c : CallId}
    (h : nextOperation calls s c = some s') :
    (∃ w a name v, calls c = .set w a ∧ (configWrites w a)[s.done c]? = some (name, v) ∧
      s' = s.write c name v) ∨
    (∃ q, calls c = .get ∧ configReads[s.done c]? = some q ∧ s' = s.read c q) := by
  unfold nextOperation at h
  cases hc : calls c with
  | set w a =>
    rw [hc] at h
    obtain ⟨⟨name, v⟩, hx, rfl⟩ := Option.map_eq_some_iff.mp h
    exact .inl ⟨w, a, name, v, rfl, hx, rfl⟩
  | get =>
    rw [hc] at h
    obtain ⟨q, hq, rfl⟩ := Option.map_eq_some_iff.mp h
    exact .inr ⟨q, rfl, hq, rfl⟩

/-- The names that `SetConfigInfo` writes, in their order. -/
def writeNames : List String := [szIncomingLocalFlag, szIncomingFlag, szName, szPassword]

/-- The writes of a call are to different values, in the order of `writeNames`.

**Proof sketch.** There are three or four writes, which are looked at one by one. -/
theorem configWrites_get {w : Platform} {a : Settings} {d : ℕ} {name : String}
    {v : Registry.Value} (h : (configWrites w a)[d]? = some (name, v)) :
    writeNames[d]? = some name ∧ ∀ k, writeAll k (configWrites w a) name = some v := by
  unfold configWrites at h ⊢
  cases henc : encryptData w a.password with
  | error f =>
    simp only [henc] at h ⊢
    match d, h with
    | 0, h | 1, h | 2, h =>
      obtain ⟨rfl, rfl⟩ : _ = name ∧ _ = v := by simpa [plainWrites] using h
      exact ⟨rfl, fun k => rfl⟩
    | d + 3, h => simp [plainWrites] at h
  | ok e =>
    simp only [henc] at h ⊢
    match d, h with
    | 0, h | 1, h | 2, h | 3, h =>
      obtain ⟨rfl, rfl⟩ : _ = name ∧ _ = v := by simpa [plainWrites] using h
      exact ⟨rfl, fun k => rfl⟩
    | d + 4, h => simp [plainWrites] at h

/-- A call that can encrypt its password makes four writes. -/
theorem length_configWrites {w : Platform} {a : Settings} {e : Bytes}
    (h : encryptData w a.password = .ok e) : (configWrites w a).length = 4 := by
  simp [configWrites, h, plainWrites]

/-- The four values have different names. -/
theorem writeNames_inj {i j : ℕ} {name : String} (hi : writeNames[i]? = some name)
    (hj : writeNames[j]? = some name) : i = j := by
  have hlt : i < writeNames.length := (List.getElem?_eq_some_iff.mp hi).1
  exact (List.getElem?_inj hlt (by decide)).mp (hi.trans hj.symm)

/-- What is recorded of the values and of the reads is true: the values are those that the
recorded call wrote, and a read saw what the recorded call had written. -/
structure Tracked (calls : CallId → Call) (init : Key) (s : ConfigState) : Prop where
  key : ∀ name, s.key name = keyOf calls init (s.source name) name
  seen : ∀ c q, s.seen c q q.valueName = keyOf calls init (s.seenSource c q) q.valueName

/-- Before all calls the records are true. -/
theorem Tracked.start (init : Key) : Tracked calls init (.start init) :=
  ⟨fun _ => rfl, fun _ _ => rfl⟩

/-- A step keeps the records true.

**Proof sketch.** A write records its call, and is that of the recorded call; a read copies the
record of the value that it sees. -/
theorem Tracked.step {init : Key} {s s' : ConfigState} {c : CallId} (hs : Tracked calls init s)
    (h : nextOperation calls s c = some s') : Tracked calls init s' := by
  rcases nextOperation_cases h with ⟨w, a, name, v, hc, hx, rfl⟩ | ⟨q, hc, hq, rfl⟩
  · refine ⟨fun name' => ?_, hs.seen⟩
    simp only [ConfigState.write]
    by_cases hn : name' = name
    · subst hn
      rw [Function.update_self, Function.update_self]
      simp only [keyOf, hc]
      exact ((configWrites_get hx).2 init).symm
    · rw [Function.update_of_ne hn, Function.update_of_ne hn]
      exact hs.key name'
  · refine ⟨hs.key, fun c' q' => ?_⟩
    simp only [ConfigState.read]
    by_cases hcc : c' = c
    · subst hcc
      rw [Function.update_self, Function.update_self]
      by_cases hqq : q' = q
      · subst hqq
        rw [Function.update_self, Function.update_self]
        exact hs.key _
      · rw [Function.update_of_ne hqq, Function.update_of_ne hqq]
        exact hs.seen c' q'
    · rw [Function.update_of_ne hcc, Function.update_of_ne hcc]
      exact hs.seen c' q'

/-- In every run the records are true. -/
theorem Tracked.run {init : Key} {tr : List (Step ConfigState CallId)} {s' : ConfigState}
    (h : Run (nextOperation calls) (.start init) tr s') :
    (∀ t ∈ tr, Tracked calls init t.post) ∧ Tracked calls init s' := by
  obtain ⟨hall, hlast⟩ := h.forall_step (fun _ _ _ hs hn => hs.step hn) (Tracked.start init)
  exact ⟨fun t ht => (hall t ht).2, hlast⟩

/-! ## What holds in runs that meet the condition -/

/-- The state of a run that has met the condition. No two calls of `SetConfigInfo` are between
their first and their last write; `last` is the one that was so last, and the values that the
one under way has not written yet are those of `last`. A `GetConfigInfo` between its reads of
the user name and of the password has read the user name that belongs to the password in the
registry. -/
structure SerialState (calls : CallId → Call) (s : ConfigState) (last : Source) : Prop where
  encrypts : ∀ c w a, calls c = .set w a → 0 < s.done c → (configWrites w a).length = 4
  unique : ∀ c d, Writing calls s c → Writing calls s d → c = d
  last_eq_none : last = none ↔ ∀ c w a, calls c = .set w a → s.done c < 4
  idle : (∀ c, ¬ Writing calls s c) → ∀ (i : ℕ) name, writeNames[i]? = some name →
    s.source name = last
  busy : ∀ c, Writing calls s c → ∀ (i : ℕ) name, writeNames[i]? = some name →
    s.source name = if i < s.done c then some c else last
  pending : ∀ c, calls c = .get → s.done c = 3 ∨ s.done c = 4 →
    s.seenSource c .name = s.source szPassword
  size : ∀ c, calls c = .get → 4 ≤ s.done c → s.seenSource c .passwordSize = s.seenSource c .name
  password : ∀ c, calls c = .get → 5 ≤ s.done c → s.seenSource c .password = s.seenSource c .name

/-- Before all calls the values are those that were there. -/
theorem SerialState.start (init : Key) : SerialState calls (.start init) none where
  encrypts _ _ _ _ h := absurd h (by simp [ConfigState.start])
  unique _ _ h _ := by
    obtain ⟨_, _, _, hpos, _⟩ := h
    simp [ConfigState.start] at hpos
  last_eq_none := by simp [ConfigState.start]
  idle _ _ _ _ := rfl
  busy _ h := by
    obtain ⟨_, _, _, hpos, _⟩ := h
    simp [ConfigState.start] at hpos
  pending _ _ h := absurd h (by simp [ConfigState.start])
  size _ _ h := absurd h (by simp [ConfigState.start])
  password _ _ h := absurd h (by simp [ConfigState.start])

/-- A call that writes is none that reads. -/
theorem ne_of_get_of_set {c g : CallId} {w : Platform} {a : Settings} (hg : calls g = .get)
    (hc : calls c = .set w a) : g ≠ c := by
  rintro rfl
  rw [hc] at hg
  cases hg

/-- No call is between its writes but `c`, which has written the first of the values; the others
are those of `last`. -/
structure OnlyWriter (calls : CallId → Call) (s : ConfigState) (last : Source) (c : CallId)
    (w : Platform) (a : Settings) : Prop where
  isSet : calls c = .set w a
  length : (configWrites w a).length = 4
  only : ∀ d, Writing calls s d → d = c
  source : ∀ (i : ℕ) n, writeNames[i]? = some n →
    s.source n = if i < s.done c then some c else last

/-- A call that makes its next write, and meets the condition with its first one, is the only one
that writes. -/
theorem SerialState.onlyWriter {s : ConfigState} {last : Source} (hs : SerialState calls s last)
    {c : CallId} {w : Platform} {a : Settings} (hc : calls c = .set w a)
    (hlt : s.done c < (configWrites w a).length)
    (hfirst : s.done c = 0 → (∀ d, ¬ Writing calls s d) ∧ ∃ e, encryptData w a.password = .ok e) :
    OnlyWriter calls s last c w a := by
  rcases Nat.eq_zero_or_pos (s.done c) with h0 | hpos
  · obtain ⟨hno, e, he⟩ := hfirst h0
    refine ⟨hc, length_configWrites he, fun d hd => absurd hd (hno d), fun i n hi => ?_⟩
    rw [hs.idle hno i n hi, h0]
    simp
  · have hw : Writing calls s c := ⟨w, a, hc, hpos, hlt⟩
    exact ⟨hc, hs.encrypts c w a hc hpos, fun d hd => hs.unique d c hd hw, hs.busy c hw⟩

/-- It stays the only one with its write, and the value is now its own.

**Proof sketch.** A write counts for its own call only, and is to the value whose turn it is. -/
theorem OnlyWriter.write {s : ConfigState} {last : Source} {c : CallId} {w : Platform}
    {a : Settings} (h : OnlyWriter calls s last c w a) {name : String}
    (hname : writeNames[s.done c]? = some name) (v : Registry.Value) :
    OnlyWriter calls (s.write c name v) last c w a := by
  refine ⟨h.isSet, h.length, ?_, ?_⟩
  · rintro d ⟨w', a', hd, hpos, hlt⟩
    by_contra hdc
    rw [s.write_done_of_ne c hdc] at hpos hlt
    exact hdc (h.only d ⟨w', a', hd, hpos, hlt⟩)
  · intro i n hi
    rw [s.write_done_self c]
    by_cases hn : n = name
    · subst hn
      obtain rfl : i = s.done c := writeNames_inj hi hname
      simp [ConfigState.write]
    · have hne : i ≠ s.done c := by
        rintro rfl
        rw [hname] at hi
        exact hn (Option.some.inj hi).symm
      rw [s.write_source_of_ne c hn, h.source i n hi]
      split_ifs <;> first | rfl | omega

/-- A `GetConfigInfo` that waits for the password keeps the source of its user name: the password
is not written meanwhile.

**Proof sketch.** The call does not write the password, by the guard, and all other values are not
the password. -/
theorem SerialState.pending_write {s : ConfigState} {last : Source}
    (hs : SerialState calls s last) {c g : CallId} {name : String} {v : Registry.Value}
    (hname : writeNames[s.done c]? = some name)
    (hpw : s.done c = 3 → ∀ g, calls g = .get → s.done g ≠ 3 ∧ s.done g ≠ 4)
    (hg : calls g = .get) (hd : s.done g = 3 ∨ s.done g = 4) :
    s.seenSource g .name = (s.write c name v).source szPassword := by
  have hd3 : s.done c ≠ 3 := by
    intro h3
    have := hpw h3 g hg
    omega
  have hne : szPassword ≠ name := by
    rintro rfl
    exact hd3 (writeNames_inj hname (show writeNames[3]? = some szPassword from rfl))
  rw [hs.pending g hg hd, s.write_source_of_ne c hne]

/-- **A write** that meets the condition.

**Proof sketch.** The call is the only one that is writing, before and after. The values it has
written so far are its own, now also this one; after its fourth write all are, and it is the
last one. A password is not written while a `GetConfigInfo` waits for it, so what is pending
stays so. -/
theorem SerialState.write {s : ConfigState} {last : Source} (hs : SerialState calls s last)
    {c : CallId} {w : Platform} {a : Settings} {name : String} {v : Registry.Value}
    (hc : calls c = .set w a) (hx : (configWrites w a)[s.done c]? = some (name, v))
    (hguard : StaysSerial calls s c) :
    ∃ last', SerialState calls (s.write c name v) last' := by
  simp only [StaysSerial, hc] at hguard
  obtain ⟨hfirst, hpw⟩ := hguard
  obtain ⟨hname, -⟩ := configWrites_get hx
  have hwriter := hs.onlyWriter hc (List.getElem?_eq_some_iff.mp hx).1 hfirst
  have hafter := hwriter.write hname v
  have hdone := s.write_done_self c name v
  have hset : ∀ d w' a', calls d = .set w' a' → (d = c ∧ w' = w ∧ a' = a) ∨
      (s.write c name v).done d = s.done d := by
    intro d w' a' hd
    by_cases hdc : d = c
    · subst hdc
      rw [hc] at hd
      obtain ⟨rfl, rfl⟩ := Call.set.inj hd
      exact .inl ⟨rfl, rfl, rfl⟩
    · exact .inr (s.write_done_of_ne c hdc name v)
  have hget : ∀ g, calls g = .get → (s.write c name v).done g = s.done g := fun g hg =>
    s.write_done_of_ne c (ne_of_get_of_set hg hc) name v
  -- what does not depend on which call is the last one
  have hfields : ∀ last', (last' = none ↔ ∀ d w a, calls d = .set w a →
      (s.write c name v).done d < 4) →
      ((∀ d, ¬ Writing calls (s.write c name v) d) → ∀ (i : ℕ) n, writeNames[i]? = some n →
        (s.write c name v).source n = last') →
      (∀ d, Writing calls (s.write c name v) d → ∀ (i : ℕ) n, writeNames[i]? = some n →
        (s.write c name v).source n = if i < (s.write c name v).done d then some d else last') →
      SerialState calls (s.write c name v) last' := by
    intro last' hlast hidle hbusy
    refine ⟨?_, fun d d' hd hd' => (hafter.only d hd).trans (hafter.only d' hd').symm, hlast,
      hidle, hbusy, ?_, ?_, ?_⟩
    · intro d w' a' hd hpos
      rcases hset d w' a' hd with ⟨rfl, rfl, rfl⟩ | hsame
      · exact hafter.length
      · rw [hsame] at hpos
        exact hs.encrypts d w' a' hd hpos
    · intro g hg hd
      rw [hget g hg] at hd
      exact hs.pending_write hname hpw hg hd
    · intro g hg hd
      rw [hget g hg] at hd
      exact hs.size g hg hd
    · intro g hg hd
      rw [hget g hg] at hd
      exact hs.password g hg hd
  rcases Nat.lt_or_ge (s.done c + 1) 4 with h4 | h4
  · refine ⟨last, hfields last ?_ ?_ ?_⟩
    · rw [hs.last_eq_none]
      refine forall_congr' fun d => forall_congr' fun w' => forall_congr' fun a' =>
        imp_congr_right fun hd => ?_
      rcases hset d w' a' hd with ⟨rfl, -, -⟩ | hsame
      · rw [hdone]
        omega
      · rw [hsame]
    · intro hno
      refine absurd ?_ (hno c)
      exact ⟨w, a, hc, by rw [hdone]; omega, by rw [hdone, hafter.length]; exact h4⟩
    · intro d hd i n hi
      obtain rfl := hafter.only d hd
      exact hafter.source i n hi
  · refine ⟨some c, hfields (some c) ?_ ?_ ?_⟩
    · constructor
      · simp
      · intro hall
        have := hall c w a hc
        rw [hdone] at this
        omega
    · intro _ i n hi
      have hi4 : i < 4 := (List.getElem?_eq_some_iff.mp hi).1
      rw [hafter.source i n hi, hdone, if_pos (by omega)]
    · intro d hd
      -- the last write is made, so that the call is not writing any more
      obtain rfl := hafter.only d hd
      obtain ⟨w', a', hd', -, hlt⟩ := hd
      obtain ⟨rfl, rfl⟩ := Call.set.inj (hc.symm.trans hd')
      rw [hdone, hafter.length] at hlt
      omega

/-- The user name and the password in the registry belong together when no call is between writing
the one and the other. -/
theorem SerialState.source_name_eq {s : ConfigState} {last : Source}
    (hs : SerialState calls s last) (h : ∀ d w a, calls d = .set w a → s.done d ≠ 3) :
    s.source szName = s.source szPassword := by
  by_cases hex : ∃ d, Writing calls s d
  · obtain ⟨d, hd⟩ := hex
    obtain ⟨w, a, hd', hpos, hlt⟩ := id hd
    have hlen := hs.encrypts d w a hd' hpos
    have h3 := h d w a hd'
    rw [hs.busy d hd 2 szName rfl, hs.busy d hd 3 szPassword rfl, if_neg (by omega),
      if_neg (by omega)]
  · have hno : ∀ d, ¬ Writing calls s d := fun d hd => hex ⟨d, hd⟩
    rw [hs.idle hno 2 szName rfl, hs.idle hno 3 szPassword rfl]

/-- **A read** that meets the condition.

**Proof sketch.** Only the reading call changes. When it reads the user name, no call is between
its writes of the user name and of the password, so both values have the same source; and while
it waits for the password, what is pending says that the password still has that source. -/
theorem SerialState.read {s : ConfigState} {last : Source} (hs : SerialState calls s last)
    {c : CallId} {q : ConfigRead} (hc : calls c = .get) (hq : configReads[s.done c]? = some q)
    (hguard : StaysSerial calls s c) : SerialState calls (s.read c q) last := by
  simp only [StaysSerial, hc] at hguard
  have hdone := s.read_done_self c q
  have hset : ∀ d w a, calls d = .set w a → (s.read c q).done d = s.done d := fun d w a hd =>
    s.read_done_of_ne c (ne_of_get_of_set hc hd).symm q
  have hwriting : ∀ d, Writing calls (s.read c q) d ↔ Writing calls s d := by
    intro d
    unfold Writing
    refine exists_congr fun w => exists_congr fun a => and_congr_right fun hd => ?_
    rw [hset d w a hd]
  have hread : ∀ d q', configReads[d]? = some q' → s.done c = d → q = q' := by
    rintro d q' hq' rfl
    rw [hq] at hq'
    exact Option.some.inj hq'
  have hlt : s.done c < 5 := (List.getElem?_eq_some_iff.mp hq).1
  refine ⟨?_, ?_, ?_, ?_, ?_, ?_, ?_, ?_⟩
  · intro d w a hd hpos
    rw [hset d w a hd] at hpos
    exact hs.encrypts d w a hd hpos
  · intro d d' hd hd'
    exact hs.unique d d' ((hwriting d).mp hd) ((hwriting d').mp hd')
  · rw [hs.last_eq_none]
    refine forall_congr' fun d => forall_congr' fun w' => forall_congr' fun a' =>
      imp_congr_right fun hd => ?_
    rw [hset d w' a' hd]
  · intro hno
    exact hs.idle fun d hd => hno d ((hwriting d).mpr hd)
  · intro d hd i n hi
    obtain ⟨w, a, hd', -⟩ := id hd
    rw [hset d w a hd']
    exact hs.busy d ((hwriting d).mp hd) i n hi
  · intro g hg hd
    by_cases hgc : g = c
    · subst hgc
      rw [hdone] at hd
      rcases hd with hd | hd
      · obtain rfl := hread 2 .name rfl (by omega)
        rw [s.read_seenSource_self]
        exact hs.source_name_eq (hguard (by omega))
      · obtain rfl := hread 3 .passwordSize rfl (by omega)
        rw [s.read_seenSource_other g (by decide : ConfigRead.name ≠ .passwordSize)]
        exact hs.pending g hg (.inl (by omega))
    · rw [s.read_done_of_ne c hgc] at hd
      rw [s.read_seenSource_of_ne c hgc]
      exact hs.pending g hg hd
  · intro g hg hd
    by_cases hgc : g = c
    · subst hgc
      rw [hdone] at hd
      rcases Nat.lt_or_ge (s.done g) 4 with h4 | h4
      · obtain rfl := hread 3 .passwordSize rfl (by omega)
        rw [s.read_seenSource_self,
          s.read_seenSource_other g (by decide : ConfigRead.name ≠ .passwordSize)]
        exact (hs.pending g hg (.inl (by omega))).symm
      · obtain rfl := hread 4 .password rfl (by omega)
        rw [s.read_seenSource_other g (by decide : ConfigRead.passwordSize ≠ .password),
          s.read_seenSource_other g (by decide : ConfigRead.name ≠ .password)]
        exact hs.size g hg h4
    · rw [s.read_done_of_ne c hgc] at hd
      rw [s.read_seenSource_of_ne c hgc]
      exact hs.size g hg hd
  · intro g hg hd
    by_cases hgc : g = c
    · subst hgc
      rw [hdone] at hd
      obtain rfl := hread 4 .password rfl (by omega)
      rw [s.read_seenSource_self,
        s.read_seenSource_other g (by decide : ConfigRead.name ≠ .password)]
      exact (hs.pending g hg (.inr (by omega))).symm
    · rw [s.read_done_of_ne c hgc] at hd
      rw [s.read_seenSource_of_ne c hgc]
      exact hs.password g hg hd

/-- Steps that meet the condition lead from such states to such states. -/
theorem serialState_step {s s' : ConfigState} {c : CallId}
    (hs : ∃ last, SerialState calls s last) (hguard : StaysSerial calls s c)
    (h : nextOperation calls s c = some s') : ∃ last, SerialState calls s' last := by
  obtain ⟨last, hs⟩ := hs
  rcases nextOperation_cases h with ⟨w, a, name, v, hc, hx, rfl⟩ | ⟨q, hc, hq, rfl⟩
  · exact hs.write hc hx hguard
  · exact ⟨last, hs.read hc hq hguard⟩

/-- In such a state everything looks as if the calls were served one at a time.

**Proof sketch.** When no call is under way all four values are of the last call. A `GetConfigInfo`
that is done has seen one call for the name, the size and the password. -/
theorem SerialState.asIfSerial {init : Key} {s : ConfigState} {last : Source}
    (hs : SerialState calls s last) (ht : Tracked calls init s) : AsIfSerial calls init s := by
  constructor
  · intro hquiet
    have hno : ∀ c, ¬ Writing calls s c := by
      rintro c ⟨w, a, hc, hpos, hlt⟩
      have := hquiet c
      simp only [hc, Call.length] at this
      omega
    refine ⟨last, ?_, ?_⟩
    · have hsource : ∀ name ∈ [szIncomingFlag, szIncomingLocalFlag, szName, szPassword],
          s.source name = last := by
        simp only [List.forall_mem_cons, List.not_mem_nil, false_implies, implies_true, and_true]
        exact ⟨hs.idle hno 1 _ rfl, hs.idle hno 0 _ rfl, hs.idle hno 2 _ rfl, hs.idle hno 3 _ rfl⟩
      intro name hname
      refine ⟨hsource name hname, ?_⟩
      rw [ht.key name, hsource name hname]
    · rw [hs.last_eq_none]
      refine forall_congr' fun c => forall_congr' fun w => forall_congr' fun a =>
        imp_congr_right fun hc => ?_
      have hlen := hs.encrypts c w a hc
      have := hquiet c
      simp only [hc, Call.length] at this
      omega
  · intro c hc hdone
    have hdone5 : s.done c = 5 := hdone
    refine ⟨s.seenSource c .name, ?_, ?_⟩
    · simp only [List.forall_mem_cons, List.not_mem_nil, false_implies, implies_true, and_true,
        true_and]
      exact ⟨hs.size c hc (by omega), hs.password c hc (by omega)⟩
    · intro nameSize passwordSize extensionSize w args
      apply readStrings_congr
      have hsize := ht.seen c .passwordSize
      have hpassword := ht.seen c .password
      rw [hs.size c hc (by omega)] at hsize
      rw [hs.password c hc (by omega)] at hpassword
      simp only [List.forall_mem_cons, List.not_mem_nil, false_implies, implies_true, and_true]
      exact ⟨ht.seen c .name, hsize, hpassword⟩

end Nuacom
