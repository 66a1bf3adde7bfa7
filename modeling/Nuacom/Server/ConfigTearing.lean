import Nuacom.Server.ConfigInterleaving

set_option relaxedAutoImplicit false
set_option autoImplicit false

/-!
# Configuration requests that get in each other's way

Runs whose steps all meet `StaysSerial` are as if the calls were served one at a time. A step that
does not meet it need not do harm at once, but the calls under way can then go on in an order that
does: either the registry is left with values of two calls, or a `GetConfigInfo` logs in with the
user name of one and the password of another. So the condition on a step is the exact one for
these runs.

## Main definitions

* `Nuacom.Progress` — what is known of the calls in every run, whatever the order of their steps.

## Main results

* `Nuacom.exists_finish`, `Nuacom.exists_quiet` — the calls under way can be finished, one after
  the other.
* `Nuacom.SerialState.exists_not_asIfSerial` — after a step that does not meet the condition the
  calls can go on so that the values are mixed.
* `Nuacom.run_asIfSerial` — runs whose steps all meet the condition are as if the calls were
  served one at a time, and a step that does not meet it can be the first one of harm.

## Implementation notes

In these runs a `GetConfigInfo` makes all its reads, also after a read of a value that is missing,
where the source raises and ends the call. The calls that do end there are so left out, and a run
in which every value is there when it is read is one of the source. The steps that
`Nuacom.SerialState.exists_not_asIfSerial` appends can be among those that read a missing value,
when the initial registry has none: that the condition is exact is said of the runs of this model.
-/

namespace Nuacom

open CString Registry Transition

variable {calls : CallId → Call} {s s' : ConfigState}

/-! ## One step -/

/-- A call that is not done has a next operation.

**Proof sketch.** By the kind of the call. -/
theorem exists_nextOperation {c : CallId} (h : s.done c < (calls c).length) :
    ∃ s', nextOperation calls s c = some s' := by
  unfold nextOperation
  cases hc : calls c with
  | set w a =>
    rw [hc] at h
    have hx : (configWrites w a)[s.done c]? = some (configWrites w a)[s.done c] :=
      List.getElem?_eq_getElem h
    exact ⟨_, congrArg (Option.map _) hx⟩
  | get =>
    rw [hc] at h
    have hq : configReads[s.done c]? = some configReads[s.done c] :=
      List.getElem?_eq_getElem h
    exact ⟨_, congrArg (Option.map _) hq⟩

/-- A step counts one more operation of its call, which was not done. -/
theorem done_nextOperation {c : CallId} (h : nextOperation calls s c = some s') :
    s.done c < (calls c).length ∧ s'.done = Function.update s.done c (s.done c + 1) := by
  rcases nextOperation_cases h with ⟨w, a, name, v, hc, hx, rfl⟩ | ⟨q, hc, hq, rfl⟩
  · rw [hc]
    exact ⟨(List.getElem?_eq_some_iff.mp hx).1, rfl⟩
  · rw [hc]
    exact ⟨(List.getElem?_eq_some_iff.mp hq).1, rfl⟩

/-- A read leaves the values. -/
theorem source_nextOperation_get {c : CallId} (hc : calls c = .get)
    (h : nextOperation calls s c = some s') : s'.source = s.source := by
  rcases nextOperation_cases h with ⟨w, a, name, v, hc', -, -⟩ | ⟨q, -, -, rfl⟩
  · rw [hc] at hc'
    simp at hc'
  · rfl

/-- A write is of the value whose turn it is.

**Proof sketch.** The names of the values are different, so each of them has one turn. -/
theorem source_nextOperation_set {c : CallId} {w : Platform} {a : Settings}
    (hc : calls c = .set w a) (h : nextOperation calls s c = some s') {i : ℕ} {name : String}
    (hi : writeNames[i]? = some name) :
    s'.source name = if i = s.done c then some c else s.source name := by
  rcases nextOperation_cases h with ⟨w', a', name', v, -, hx, rfl⟩ | ⟨q, hc', -, -⟩
  · have hname := (configWrites_get hx).1
    show Function.update s.source name' (some c) name = _
    by_cases hn : name = name'
    · subst hn
      rw [Function.update_self, if_pos (writeNames_inj hi hname)]
    · have hne : i ≠ s.done c := by
        intro heq
        rw [← heq, hi] at hname
        exact hn (Option.some.inj hname)
      rw [Function.update_of_ne hn, if_neg hne]
  · rw [hc] at hc'
    simp at hc'

/-! ## What is known of the calls in every run -/

/-- What holds in every run: a value that was written by a call is one of those the call has come
to, no call makes more operations than it has, and only finitely many have begun. -/
structure Progress (calls : CallId → Call) (s : ConfigState) : Prop where
  written : ∀ (i : ℕ) name c, writeNames[i]? = some name → s.source name = some c → i < s.done c
  done_le : ∀ c, s.done c ≤ (calls c).length
  begun : ∃ n : ℕ, ∀ c : ℕ, n ≤ c → s.done c = 0

/-- Before all calls nothing has begun. -/
theorem Progress.start (init : Key) : Progress calls (.start init) where
  written _ _ _ _ h := by simp [ConfigState.start] at h
  done_le _ := Nat.zero_le _
  begun := ⟨0, fun _ _ => rfl⟩

/-- A step counts one more operation of its call, and a value that it writes is the one whose turn
it was.

**Proof sketch.** Counts only grow. A call that has just written a value has come past it, and one
call more has begun. -/
theorem Progress.step {c : ℕ} (hs : Progress calls s)
    (h : nextOperation calls s c = some s') : Progress calls s' := by
  obtain ⟨hlt, hdone⟩ := done_nextOperation h
  have hmono : ∀ d, s.done d ≤ s'.done d := by
    intro d
    rw [hdone]
    by_cases hd : d = c
    · subst hd
      rw [Function.update_self]
      omega
    · rw [Function.update_of_ne hd]
  refine ⟨?_, ?_, ?_⟩
  · intro i name d hi hsrc
    cases hc : calls c with
    | set w a =>
      rw [source_nextOperation_set hc h hi] at hsrc
      split_ifs at hsrc with heq
      · obtain rfl := Option.some.inj hsrc
        rw [hdone, Function.update_self, heq]
        omega
      · exact lt_of_lt_of_le (hs.written i name d hi hsrc) (hmono d)
    | get =>
      rw [source_nextOperation_get hc h] at hsrc
      exact lt_of_lt_of_le (hs.written i name d hi hsrc) (hmono d)
  · intro d
    rw [hdone]
    by_cases hd : d = c
    · subst hd
      rw [Function.update_self]
      omega
    · rw [Function.update_of_ne hd]
      exact hs.done_le d
  · obtain ⟨n, hn⟩ := hs.begun
    refine ⟨max n (c + 1), fun d hd => ?_⟩
    have hne : d ≠ c := by omega
    rw [hdone, Function.update_of_ne hne]
    exact hn d (by omega)

/-- In every run, by induction on its steps. -/
theorem Progress.run {tr : List (Step ConfigState CallId)} (hs : Progress calls s)
    (h : Run (nextOperation calls) s tr s') : Progress calls s' :=
  (h.forall_step (fun _ _ _ hs hn => hs.step hn) hs).2

/-- A `SetConfigInfo` that is not between its writes has not begun or is done. -/
theorem Progress.idle_of_not_writing (hs : Progress calls s) {c : CallId} {w : Platform}
    {a : Settings} (hc : calls c = .set w a) (hno : ¬ Writing calls s c) :
    s.done c = 0 ∨ s.done c = (calls c).length := by
  have hle := hs.done_le c
  rw [hc] at hle ⊢
  by_contra hcon
  rw [not_or] at hcon
  exact hno ⟨w, a, hc, Nat.pos_of_ne_zero hcon.1, lt_of_le_of_ne hle hcon.2⟩

/-! ## Finishing the calls -/

/-- **A call can be finished.** The values it has come to since are then its own, if it is a
`SetConfigInfo`; all others, and all other calls, are where they were.

**Proof sketch.** Induction on the number of operations that are left. -/
theorem exists_finish (c : CallId) : ∀ (k : ℕ) (s : ConfigState),
    s.done c + k = (calls c).length → ∃ tr s', Run (nextOperation calls) s tr s' ∧
      s'.done = Function.update s.done c (calls c).length ∧
      (calls c = .get → s'.source = s.source) ∧
      ∀ w a, calls c = .set w a → ∀ (i : ℕ) name, writeNames[i]? = some name →
        s'.source name =
          if s.done c ≤ i ∧ i < (calls c).length then some c else s.source name := by
  intro k
  induction k with
  | zero =>
    intro s hk
    refine ⟨[], s, .nil s, ?_, fun _ => rfl, ?_⟩
    · rw [← hk, Nat.add_zero, Function.update_eq_self]
    · intro w a _ i name _
      rw [if_neg (by omega)]
  | succ k ih =>
    intro s hk
    have hlt : s.done c < (calls c).length := by omega
    obtain ⟨m, hm⟩ := exists_nextOperation hlt
    obtain ⟨-, hdone⟩ := done_nextOperation hm
    have hdonec : m.done c = s.done c + 1 := by rw [hdone, Function.update_self]
    obtain ⟨tr, s', hrun, hdone', hget, hset⟩ := ih m (by omega)
    refine ⟨_, s', .cons hm hrun, ?_, ?_, ?_⟩
    · rw [hdone', hdone, Function.update_idem]
    · intro hc
      rw [hget hc, source_nextOperation_get hc hm]
    · intro w a hc i name hi
      rw [hset w a hc i name hi, source_nextOperation_set hc hm hi, hdonec]
      split_ifs <;> first | rfl | omega

/-- When no `SetConfigInfo` is under way, the calls of `GetConfigInfo` that are can be finished,
and the values stay.

**Proof sketch.** Induction on a bound of the calls, finishing one call more each time. -/
theorem exists_quiet (hs : Progress calls s)
    (hset : ∀ c w a, calls c = .set w a → s.done c = 0 ∨ s.done c = (calls c).length) :
    ∃ tr s', Run (nextOperation calls) s tr s' ∧ s'.source = s.source ∧
      ∀ c, s'.done c = 0 ∨ s'.done c = (calls c).length := by
  obtain ⟨n, hn⟩ := hs.begun
  have hbelow : ∀ m : ℕ, ∃ tr s', Run (nextOperation calls) s tr s' ∧ s'.source = s.source ∧
      (∀ c : ℕ, c < m → s'.done c = 0 ∨ s'.done c = (calls c).length) ∧
      ∀ c : ℕ, m ≤ c → s'.done c = s.done c := by
    intro m
    induction m with
    | zero => exact ⟨[], s, .nil s, rfl, by simp, fun _ _ => rfl⟩
    | succ m ih =>
      obtain ⟨tr, s', hrun, hsource, hquiet, hrest⟩ := ih
      cases hm : calls m with
      | set w a =>
        refine ⟨tr, s', hrun, hsource, fun c hc => ?_, fun c hc => hrest c (by omega)⟩
        rcases Nat.lt_succ_iff_lt_or_eq.mp hc with hlt | rfl
        · exact hquiet c hlt
        · rw [hrest c le_rfl]
          exact hset c w a hm
      | get =>
        have hleft : s'.done m + ((calls m).length - s'.done m) = (calls m).length :=
          Nat.add_sub_cancel' ((hs.run hrun).done_le m)
        obtain ⟨tr', s'', hrun', hdone, hget, -⟩ := exists_finish m _ s' hleft
        refine ⟨tr ++ tr', s'', hrun.append hrun', (hget hm).trans hsource, ?_, ?_⟩
        · intro c hc
          rw [hdone]
          by_cases hcm : c = m
          · subst hcm
            exact .inr (Function.update_self ..)
          · rw [Function.update_of_ne hcm]
            exact hquiet c (by omega)
        · intro c hc
          have hcm : c ≠ m := by omega
          rw [hdone, Function.update_of_ne hcm]
          exact hrest c (by omega)
  obtain ⟨tr, s', hrun, hsource, hquiet, hrest⟩ := hbelow n
  refine ⟨tr, s', hrun, hsource, fun c => ?_⟩
  rcases Nat.lt_or_ge c n with hlt | hge
  · exact hquiet c hlt
  · rw [hrest c hge]
    exact .inl (hn c hge)

/-! ## Steps that do not meet the condition -/

section Harm

variable (init : Key)

/-- When no `SetConfigInfo` is under way and two of the values are of different calls, the registry
is left like that. -/
theorem exists_torn (hs : Progress calls s)
    (hset : ∀ c w a, calls c = .set w a → s.done c = 0 ∨ s.done c = (calls c).length)
    (hne : s.source szIncomingLocalFlag ≠ s.source szPassword) :
    ∃ tr u, Run (nextOperation calls) s tr u ∧ ¬ AsIfSerial calls init u := by
  obtain ⟨tr, u, hrun, hsource, hquiet⟩ := exists_quiet hs hset
  refine ⟨tr, u, hrun, fun hserial => hne ?_⟩
  obtain ⟨src, hsrc, -⟩ := hserial.stored hquiet
  rw [← hsource, (hsrc szIncomingLocalFlag (by simp)).1, (hsrc szPassword (by simp)).1]

/-- A `GetConfigInfo` that has read the user name of another call than the one whose password is
in the registry can go on to log in with both.

**Proof sketch.** It reads the size and then the password; a call that has logged in with both would
have to have them from the same call. -/
theorem exists_mixed {g : CallId} (hg : calls g = .get) (hd : s.done g = 3 ∨ s.done g = 4)
    (hne : s.seenSource g .name ≠ s.source szPassword) :
    ∃ tr u, Run (nextOperation calls) s tr u ∧ ¬ AsIfSerial calls init u := by
  have hlast : ∀ m : ConfigState, m.done g = 4 → m.seenSource g .name ≠ m.source szPassword →
      ∃ tr u, Run (nextOperation calls) m tr u ∧ ¬ AsIfSerial calls init u := by
    intro m hm hne'
    have hn : nextOperation calls m g = some (m.read g .password) := by
      simp [nextOperation, hg, hm, configReads]
    refine ⟨_, _, .cons hn (.nil _), fun hserial => hne' ?_⟩
    obtain ⟨src, hsrc, -⟩ := hserial.login g hg (by simp [ConfigState.read, hm, configReads])
    have hname : m.seenSource g .name = src := by
      simpa [ConfigState.read] using hsrc .name (by simp)
    have hpassword : m.source szPassword = src := by
      simpa [ConfigState.read, ConfigRead.valueName] using hsrc .password (by simp)
    rw [hname, hpassword]
  rcases hd with h3 | h4
  · have hn : nextOperation calls s g = some (s.read g .passwordSize) := by
      simp [nextOperation, hg, h3, configReads]
    have hdone : (s.read g .passwordSize).done g = 4 := by simp [ConfigState.read, h3]
    have hseen : (s.read g .passwordSize).seenSource g .name = s.seenSource g .name := by
      simp [ConfigState.read]
    obtain ⟨tr, u, hrun, hu⟩ := hlast _ hdone (by rw [hseen]; exact hne)
    exact ⟨_, u, .cons hn hrun, hu⟩
  · exact hlast s h4 hne

/-- A `SetConfigInfo` begins while another one is under way: it can overtake, and the other one
writes the rest.

**Proof sketch.** The one that begins makes all its writes, and then the other one makes those it
has left, which are the last of the four and not the first. -/
theorem SerialState.exists_torn_of_writing {last : Source} (hs : SerialState calls s last)
    (hp : Progress calls s) {c d : CallId} {w : Platform} {a : Settings} (hc : calls c = .set w a)
    (h0 : s.done c = 0) (hd : Writing calls s d) (h : nextOperation calls s c = some s') :
    ∃ tr u, Run (nextOperation calls) s' tr u ∧ ¬ AsIfSerial calls init u := by
  obtain ⟨wd, ad, hcd, hpos, hlt⟩ := id hd
  have hne : d ≠ c := by
    rintro rfl
    omega
  have hwrites := hs.encrypts d wd ad hcd hpos
  have hlen : (calls d).length = 4 := by
    rw [hcd]
    exact hwrites
  have hltd : s.done d < 4 := by omega
  obtain ⟨hltc, hdone⟩ := done_nextOperation h
  have hc1 : s'.done c = 1 := by rw [hdone, Function.update_self, h0]
  have hleft1 : s'.done c + ((calls c).length - 1) = (calls c).length := by omega
  obtain ⟨tr1, s1, hrun1, hdone1, -, hset1⟩ := exists_finish c _ s' hleft1
  have hd1 : s1.done d = s.done d := by
    rw [hdone1, Function.update_of_ne hne, hdone, Function.update_of_ne hne]
  have hleft2 : s1.done d + (4 - s.done d) = (calls d).length := by omega
  obtain ⟨tr2, s2, hrun2, hdone2, -, hset2⟩ := exists_finish d _ s1 hleft2
  have hfirst : s2.source szIncomingLocalFlag = some c := by
    rw [hset2 wd ad hcd 0 _ rfl, if_neg (by omega), hset1 w a hc 0 _ rfl, if_neg (by omega),
      source_nextOperation_set hc h (i := 0) rfl, if_pos h0.symm]
  have hlast : s2.source szPassword = some d := by
    rw [hset2 wd ad hcd 3 _ rfl, if_pos (by omega)]
  have hquiet : ∀ e w a, calls e = .set w a → s2.done e = 0 ∨ s2.done e = (calls e).length := by
    intro e we ae he
    rw [hdone2]
    by_cases hed : e = d
    · subst hed
      exact .inr (Function.update_self ..)
    rw [Function.update_of_ne hed, hdone1]
    by_cases hec : e = c
    · subst hec
      exact .inr (Function.update_self ..)
    rw [Function.update_of_ne hec, hdone, Function.update_of_ne hec]
    exact hp.idle_of_not_writing he fun hw => hed (hs.unique e d hw hd)
  have htorn : s2.source szIncomingLocalFlag ≠ s2.source szPassword := by
    rw [hfirst, hlast]
    simpa using hne.symm
  obtain ⟨tr3, u, hrun3, hu⟩ :=
    exists_torn init (((hp.step h).run hrun1).run hrun2) hquiet htorn
  exact ⟨_, u, (hrun1.append hrun2).append hrun3, hu⟩

/-- A `SetConfigInfo` that cannot encrypt its password writes the user name and the flags, and
leaves the password of another call.

**Proof sketch.** It makes its three writes; the password is still of another call, and nobody is
writing. -/
theorem Progress.exists_torn_of_error (hp : Progress calls s) {c : CallId} {w : Platform}
    {a : Settings} (hc : calls c = .set w a) (h0 : s.done c = 0)
    (hno : ∀ d, ¬ Writing calls s d) (henc : ¬ ∃ e, encryptData w a.password = .ok e)
    (h : nextOperation calls s c = some s') :
    ∃ tr u, Run (nextOperation calls) s' tr u ∧ ¬ AsIfSerial calls init u := by
  have hlen : (calls c).length = 3 := by
    rw [hc]
    cases hx : encryptData w a.password with
    | ok e => exact absurd ⟨e, hx⟩ henc
    | error f => simp [Call.length, configWrites, hx, plainWrites]
  obtain ⟨-, hdone⟩ := done_nextOperation h
  have hc1 : s'.done c = 1 := by rw [hdone, Function.update_self, h0]
  have hleft : s'.done c + 2 = (calls c).length := by omega
  obtain ⟨tr1, s1, hrun1, hdone1, -, hset1⟩ := exists_finish c _ s' hleft
  have hfirst : s1.source szIncomingLocalFlag = some c := by
    rw [hset1 w a hc 0 _ rfl, if_neg (by omega), source_nextOperation_set hc h (i := 0) rfl,
      if_pos h0.symm]
  have hlast : s1.source szPassword = s.source szPassword := by
    rw [hset1 w a hc 3 _ rfl, if_neg (by omega), source_nextOperation_set hc h (i := 3) rfl,
      if_neg (by omega)]
  have hne : s.source szPassword ≠ some c := by
    intro hsrc
    have := hp.written 3 szPassword c rfl hsrc
    omega
  have hquiet : ∀ e w a, calls e = .set w a → s1.done e = 0 ∨ s1.done e = (calls e).length := by
    intro e we ae he
    rw [hdone1]
    by_cases hec : e = c
    · subst hec
      exact .inr (Function.update_self ..)
    rw [Function.update_of_ne hec, hdone, Function.update_of_ne hec]
    exact hp.idle_of_not_writing he (hno e)
  have htorn : s1.source szIncomingLocalFlag ≠ s1.source szPassword := by
    rw [hfirst, hlast]
    exact hne.symm
  obtain ⟨tr2, u, hrun2, hu⟩ := exists_torn init ((hp.step h).run hrun1) hquiet htorn
  exact ⟨_, u, hrun1.append hrun2, hu⟩

/-- A password is written while a `GetConfigInfo` waits for it, which then reads it.

**Proof sketch.** The call that waits has seen the name of what was the last call, and that is not
the one that writes the password. -/
theorem SerialState.exists_mixed_of_write {last : Source} (hs : SerialState calls s last)
    (hp : Progress calls s) {c g : CallId} {w : Platform} {a : Settings}
    (hc : calls c = .set w a) (h3 : s.done c = 3) (hg : calls g = .get)
    (hd : s.done g = 3 ∨ s.done g = 4) (h : nextOperation calls s c = some s') :
    ∃ tr u, Run (nextOperation calls) s' tr u ∧ ¬ AsIfSerial calls init u := by
  have hne : g ≠ c := by
    rintro rfl
    rw [hc] at hg
    simp at hg
  obtain ⟨-, hdone⟩ := done_nextOperation h
  have hseen : s'.seenSource = s.seenSource := by
    rcases nextOperation_cases h with ⟨w', a', name, v, -, -, rfl⟩ | ⟨q, hc', -, -⟩
    · rfl
    · rw [hc] at hc'
      simp at hc'
  have hnew : s'.source szPassword = some c := by
    rw [source_nextOperation_set hc h (i := 3) rfl, if_pos h3.symm]
  apply exists_mixed init hg
  · rw [hdone, Function.update_of_ne hne]
    exact hd
  · rw [hseen, hs.pending g hg hd, hnew]
    intro hsrc
    have := hp.written 3 szPassword c rfl hsrc
    omega

/-- The user name is read between the writes of the user name and of the password, and the
password before it is written.

**Proof sketch.** It has seen the name of the call that is writing, whose password is not there yet.
-/
theorem SerialState.exists_mixed_of_read {last : Source} (hs : SerialState calls s last)
    (hp : Progress calls s) {c d : CallId} {w : Platform} {a : Settings} (hc : calls c = .get)
    (h2 : s.done c = 2) (hd : calls d = .set w a) (h3 : s.done d = 3)
    (h : nextOperation calls s c = some s') :
    ∃ tr u, Run (nextOperation calls) s' tr u ∧ ¬ AsIfSerial calls init u := by
  have hread : s' = s.read c .name := by
    have hn : nextOperation calls s c = some (s.read c .name) := by
      simp [nextOperation, hc, h2, configReads]
    rw [hn] at h
    exact (Option.some.inj h).symm
  subst hread
  have hlen := hs.encrypts d w a hd (by omega)
  have hname : s.source szName = some d := by
    rw [hs.busy d ⟨w, a, hd, by omega, by omega⟩ 2 szName rfl, if_pos (by omega)]
  apply exists_mixed init hc
  · left
    simp [ConfigState.read, h2]
  · have hseen : (s.read c .name).seenSource c .name = s.source szName := by
      simp [ConfigState.read, ConfigRead.valueName]
    have hsource : (s.read c .name).source = s.source := rfl
    rw [hseen, hsource, hname]
    intro hsrc
    have := hp.written 3 szPassword d rfl hsrc.symm
    omega

/-- **A step that does not meet the condition** can be followed by steps that leave the registry
with values of two calls, or let a `GetConfigInfo` log in with strings of two calls.

**Proof sketch.** By the part of the condition that is not met. -/
theorem SerialState.exists_not_asIfSerial {last : Source} (hs : SerialState calls s last)
    (hp : Progress calls s) {c : CallId} (h : nextOperation calls s c = some s')
    (hguard : ¬ StaysSerial calls s c) :
    ∃ tr u, Run (nextOperation calls) s' tr u ∧ ¬ AsIfSerial calls init u := by
  cases hc : calls c with
  | set w a =>
    simp only [StaysSerial, hc] at hguard
    by_cases hfirst : s.done c = 0 → (∀ d, ¬ Writing calls s d) ∧
      ∃ e, encryptData w a.password = .ok e
    · have hpw : ¬ (s.done c = 3 → ∀ g, calls g = .get → s.done g ≠ 3 ∧ s.done g ≠ 4) :=
        fun hpw => hguard ⟨hfirst, hpw⟩
      push Not at hpw
      obtain ⟨h3, g, hg, hd⟩ := hpw
      exact hs.exists_mixed_of_write init hp hc h3 hg (by omega) h
    · rw [Classical.not_imp] at hfirst
      obtain ⟨h0, hfirst⟩ := hfirst
      by_cases hno : ∀ d, ¬ Writing calls s d
      · exact hp.exists_torn_of_error init hc h0 hno (fun henc => hfirst ⟨hno, henc⟩) h
      · push Not at hno
        obtain ⟨d, hd⟩ := hno
        exact hs.exists_torn_of_writing init hp hc h0 hd h
  | get =>
    simp only [StaysSerial, hc] at hguard
    push Not at hguard
    obtain ⟨h2, d, w, a, hd, h3⟩ := hguard
    exact hs.exists_mixed_of_read init hp hc h2 hd h3 h

end Harm

/-- **Configuration requests one at a time.** For all calls and every initial registry, in every
run whose steps all meet `StaysSerial`, every state reached is as if the calls were served one
at a time. And a step that does not meet it, after whatever such run, can be followed by steps
that lead to a state that is not.

**Proof sketch.** Steps that meet the condition keep the state serial, and serial states look as if
the calls were served one at a time. -/
theorem run_asIfSerial (calls : CallId → Call) (init : Key)
    (tr : List (Step ConfigState CallId)) (s' : ConfigState)
    (h : Run (nextOperation calls) (.start init) tr s')
    (hguard : ∀ t ∈ tr, StaysSerial calls t.pre t.label) :
    (∀ t ∈ tr, AsIfSerial calls init t.post) ∧ AsIfSerial calls init s' ∧
    ∀ c s'', nextOperation calls s' c = some s'' → ¬ StaysSerial calls s' c →
      ∃ tr' u, Run (nextOperation calls) s'' tr' u ∧ ¬ AsIfSerial calls init u := by
  obtain ⟨htracked, htracked'⟩ := Tracked.run h
  obtain ⟨hserial, last, hlast⟩ := h.forall_post_of_guard
    (fun _ _ _ hs hg hn => serialState_step hs hg hn) ⟨none, SerialState.start init⟩ hguard
  refine ⟨fun t ht => ?_, hlast.asIfSerial htracked', fun c s'' hn hno => ?_⟩
  · obtain ⟨last', hlast'⟩ := (hserial t ht).2
    exact hlast'.asIfSerial (htracked t ht)
  · exact hlast.exists_not_asIfSerial init ((Progress.start init).run h) hn hno

/-- Two users call `SetConfigInfo`, and a client calls `GetConfigInfo`. -/
def setGetSet : CallId → Call
  | 0 => .set openPlatform ⟨bytes "alice", bytes "a", 1, 1⟩
  | 1 => .get
  | _ => .set openPlatform ⟨bytes "bob", bytes "b", 0, 0⟩

/-- While only these three calls have begun, the condition on a step of one of them is about how
far they have come.

**Proof sketch.** Each of the three calls has its own part of the condition, and no other call is
writing. -/
theorem staysSerial_setGetSet {c : ℕ} (hrest : ∀ d : ℕ, s.done (d + 3) = 0)
    (hfirst : c ≠ 1 → s.done c = 0 → (s.done 0 = 0 ∨ s.done 0 = 4) ∧ (s.done 2 = 0 ∨ s.done 2 = 4))
    (hlast : c ≠ 1 → s.done c = 3 → s.done 1 ≠ 3 ∧ s.done 1 ≠ 4)
    (hname : c = 1 → s.done 1 = 2 → s.done 0 ≠ 3 ∧ s.done 2 ≠ 3) : StaysSerial setGetSet s c := by
  have hquiet : c ≠ 1 → s.done c = 0 → ∀ d, ¬ Writing setGetSet s d := by
    intro hc h0 d hd
    obtain ⟨w, a, hset, hpos, hlt⟩ := hd
    obtain ⟨ha, hb⟩ := hfirst hc h0
    match d with
    | 0 | 2 =>
      obtain ⟨rfl, rfl⟩ := Call.set.inj hset
      have hfour : s.done _ < 4 := hlt
      omega
    | 1 => simp [setGetSet] at hset
    | d + 3 => exact hpos.ne' (hrest d)
  have hget : ∀ g, setGetSet g = .get → g = 1 := by
    intro g hg
    match g with
    | 1 => rfl
    | 0 | g + 2 => simp [setGetSet] at hg
  match c with
  | 1 =>
    intro h2 d w a hd h3
    obtain ⟨h03, h23⟩ := hname rfl h2
    match d with
    | 0 => exact h03 h3
    | 1 => simp [setGetSet] at hd
    | 2 => exact h23 h3
    | d + 3 => simp [hrest d] at h3
  | 0 =>
    refine ⟨fun h0 => ⟨hquiet (by decide) h0, _, rfl⟩, fun h3 g hg => ?_⟩
    rw [hget g hg]
    exact hlast (by decide) h3
  | c + 2 =>
    refine ⟨fun h0 => ⟨hquiet (by omega) h0, _, rfl⟩, fun h3 g hg => ?_⟩
    rw [hget g hg]
    exact hlast (by omega) h3

/-- The `GetConfigInfo` runs while the first user's call makes its writes, and reads the user name
after the last of them. The second user's call begins then, and the `GetConfigInfo` reads the
password before the last of its writes. -/
theorem run_asIfSerial_overlapping :
    ∃ tr s', Run (nextOperation setGetSet) (.start fun _ => none) tr s' ∧
      (∀ c < 3, s'.done c = (setGetSet c).length) ∧ AsIfSerial setGetSet (fun _ => none) s' := by
  obtain ⟨r, hr, hdone, hguard⟩ : ∃ r, exec (nextOperation setGetSet) (.start fun _ => none)
      [0, 1, 0, 0, 1, 0, 1, 2, 1, 2, 2, 1, 2] = some r ∧
      (∀ c < 3, r.2.done c = (setGetSet c).length) ∧
      ∀ t ∈ r.1, StaysSerial setGetSet t.pre t.label := by
    refine ⟨_, rfl, by decide, ?_⟩
    simp only [List.forall_mem_cons, List.not_mem_nil, false_implies, implies_true, and_true]
    refine ⟨?_, ?_, ?_, ?_, ?_, ?_, ?_, ?_, ?_, ?_, ?_, ?_, ?_⟩
    all_goals exact staysSerial_setGetSet (fun _ => rfl) (by decide) (by decide) (by decide)
  have hrun := Run.of_exec hr
  exact ⟨r.1, r.2, hrun, hdone, (run_asIfSerial setGetSet _ r.1 r.2 hrun hguard).2.1⟩

/-- Calls of `SetConfigInfo` by two users; all but the first are by the second user. -/
def twoUsers (c : CallId) : Call :=
  if c = 0 then .set openPlatform ⟨bytes "alice", bytes "a", 1, 1⟩
  else .set openPlatform ⟨bytes "bob", bytes "b", 0, 0⟩

/-- The second user's call runs between the third and the fourth write of the first user's: the
registry is left with the user name of the one and the password of the other.

**Proof sketch.** The run is computed. No call is under way at its end, and two of the values are of
different calls. -/
theorem run_torn :
    ∃ tr s', Run (nextOperation twoUsers) (.start fun _ => none) tr s' ∧
      s'.source szName = some 1 ∧ s'.source szPassword = some 0 ∧
      ¬ AsIfSerial twoUsers (fun _ => none) s' := by
  obtain ⟨r, hr, hname, hpassword, hdone⟩ : ∃ r, exec (nextOperation twoUsers)
      (.start fun _ => none) [0, 0, 0, 1, 1, 1, 1, 0] = some r ∧
      r.2.source szName = some 1 ∧ r.2.source szPassword = some 0 ∧
      ∀ c, r.2.done c = 0 ∨ r.2.done c = (twoUsers c).length := by
    refine ⟨_, rfl, rfl, rfl, fun c => ?_⟩
    match c with
    | 0 | 1 => exact .inr rfl
    | n + 2 => exact .inl rfl
  refine ⟨r.1, r.2, Run.of_exec hr, hname, hpassword, fun h => ?_⟩
  obtain ⟨src, hsrc, -⟩ := h.stored hdone
  have h1 := (hsrc szName (by simp)).1
  have h2 := (hsrc szPassword (by simp)).1
  rw [hname] at h1
  rw [hpassword, ← h1] at h2
  simp at h2

end Nuacom
