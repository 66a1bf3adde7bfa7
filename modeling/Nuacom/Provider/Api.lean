import Nuacom.Api.Response

set_option relaxedAutoImplicit false
set_option autoImplicit false

/-!
# The provider's API client, and what failing calls report

The provider has a copy of three functions of the service's API client. A call that returns false
has something else than an answer in its output string, and the code chooses between the error
text of curl and the body that was received.

## Main definitions

* `Nuacom.Provider.Build` — a build of the provider, with or without the assertions of rapidjson.
* `Nuacom.Provider.getSessionToken`, `Nuacom.Provider.makeCall`, `Nuacom.Provider.endCall` — the
  provider's copies.
* `Nuacom.ReportsReason` — a call that returns false reports why.

## Main results

* `Nuacom.Provider.makeCall_of_ascii` — the provider's `MakeCall` dials a number as the service
  does.
* `Nuacom.Provider.stringResponse_eq_iff` — when a copy behaves like the service's function.
* `Nuacom.reportsReason_iff` — the same for all of them, and when they report why they fail.

## Implementation notes

The service's project defines `NDEBUG` in none of its builds, so the service always has the
assertions. The provider's project defines it in its two Release builds and not in the two Debug
builds. Without the assertion `FindMember` takes the memory of any value for that of an object; what
it finds there is a parameter of the model.

The provider is built with 16-bit `wchar_t`, and `codecvt_utf8` then encodes every unit by
itself. The two copies of `md5` are the same text.
-/

namespace Nuacom

open CString Rapidjson

/-! ## The provider's copies -/

namespace Provider

/-- `codecvt_utf8` of one unit. -/
def utf8OfUnit (u : UInt16) : Bytes :=
  let c := u.toNat
  if c < 0x80 then [UInt8.ofNat c]
  else if c < 0x800 then [UInt8.ofNat (0xC0 + c / 0x40), UInt8.ofNat (0x80 + c % 0x40)]
  else [UInt8.ofNat (0xE0 + c / 0x1000), UInt8.ofNat (0x80 + c / 0x40 % 0x40),
    UInt8.ofNat (0x80 + c % 0x40)]

/-- `wstring_convert::to_bytes` -/
def toBytes (s : List UInt16) : Bytes := s.flatMap utf8OfUnit

/-- How a call ends that does not return. -/
inductive Stop
  | assertion (x : Assertion)
  /-- `EXCEPTION_ACCESS_VIOLATION` -/
  | accessViolation
  deriving DecidableEq, Repr

/-- What `FindMember` finds in values that are not objects, where no assertion stops it: a member or
none, or an access violation. -/
structure Misread where
  find : Value → Bytes → Option (Option Value)
  /-- The words that an object has its size and its members in are zero in these values. -/
  empty : ∀ name, find .null name = some none ∧ (∀ b, find (.bool b) name = some none) ∧
    find (.array []) name = some none

/-- The builds of the provider. -/
inductive Build
  /-- `NDEBUG` is not defined. -/
  | debug
  /-- `NDEBUG` is defined. -/
  | release (m : Misread)

namespace Build

variable (b : Build)

/-- The assertions are compiled in. -/
def Asserts : Build → Prop
  | debug => True
  | release _ => False

/-- `FindMember` -/
def findMember (v : Value) (name : Bytes) : Except Stop (Option Value) :=
  match b, v with
  | debug, v => (v.findMember name).mapError .assertion
  | release _, .object members => .ok (Value.firstMember members name)
  | release m, v =>
    match m.find v name with
    | some w => .ok w
    | none => .error .accessViolation

/-- `HasMember` -/
def hasMember (v : Value) (name : Bytes) : Except Stop Bool :=
  (b.findMember v name).map Option.isSome

/-- `operator[]`; what it returns behind its assertion is `null`. -/
def member (v : Value) (name : Bytes) : Except Stop Value := do
  match ← b.findMember v name, b with
  | some w, _ => .ok w
  | none, debug => .error (.assertion .memberFound)
  | none, release _ => .ok .null

end Build

/-- How `GetSessionToken` and `MakeCall` read a response. -/
def stringResponse (b : Build) (p : Parser) (key : Bytes) (ex : Exchange) : Except Stop Reply :=
  if ex.ret = curleOk then do
    let d := document p ex
    if ← b.hasMember d key then
      if (← b.member d key).isString then
        -- the value is a string, so that the assertion of `GetString` holds
        return (true, cStr (← (← b.member d key).getString.mapError .assertion))
      else return (false, ex.result)
    else return (false, cStr ex.errMsgBuf)
  else return (false, ex.result)

/-- `GetSessionToken` -/
def getSessionToken (b : Build) (p : Parser) (http : Network) (name pass : Bytes) :
    Except Stop Reply :=
  stringResponse b p (bytes "session_token") (http (getSessionTokenRequest name pass))

/-- `MakeCall`; the number to call is a wide string here. -/
def makeCall (b : Build) (p : Parser) (http : Network) (sessionToken srcNumber : Bytes)
    (dstNumber : List UInt16) : Except Stop Reply :=
  let dstString := toBytes dstNumber
  stringResponse b p (bytes "status") (http (makeCallRequest sessionToken srcNumber dstString))

/-- `EndCall` -/
def endCall (http : Network) (sessionToken channelId : Bytes) : Reply :=
  let ex := http (endCallRequest sessionToken channelId)
  if ex.ret = curleOk then (true, ex.result) else (false, cStr ex.errMsgBuf)

/-- Units below 128 are encoded as one byte each.

**Proof sketch.** Induction on the string; the first unit is in the first range of the
encoding. -/
theorem toBytes_of_ascii {s : List UInt16} (h : ∀ u ∈ s, u < 0x80) :
    toBytes s = s.map fun u => UInt8.ofNat u.toNat := by
  induction s with
  | nil => rfl
  | cons u s ih =>
    obtain ⟨hu, hs⟩ := List.forall_mem_cons.mp h
    have hlt : u.toNat < 0x80 := hu
    show utf8OfUnit u ++ toBytes s = _
    rw [ih hs, utf8OfUnit, if_pos hlt]
    rfl

/-! ### The copies and the originals -/

section Copies

variable {b : Build} {p : Parser} {key : Bytes} {ex : Exchange}

/-- On an object `FindMember` does the same in all builds. -/
@[simp] theorem Build.findMember_object (members : List (Bytes × Value)) (name : Bytes) :
    b.findMember (.object members) name = .ok (Value.firstMember members name) := by
  cases b <;> rfl

/-- `operator[]` on an object that has the member. -/
theorem Build.member_object {members : List (Bytes × Value)} {name : Bytes} {v : Value}
    (h : Value.firstMember members name = some v) : b.member (.object members) name = .ok v := by
  simp [member, h, bind, Except.bind]

/-- After a failed transfer the output string is the body. -/
theorem stringResponse_of_ret_ne (h : ex.ret ≠ curleOk) :
    stringResponse b p key ex = .ok (false, ex.result) := by
  simp [stringResponse, h, pure, Except.pure]

/-- Where `FindMember` finds nothing, the output string is the error text. -/
theorem stringResponse_of_missing (hr : ex.ret = curleOk)
    (hm : b.findMember (document p ex) key = .ok none) :
    stringResponse b p key ex = .ok (false, cStr ex.errMsgBuf) := by
  simp [stringResponse, hr, hm, Build.hasMember, Except.map, bind, Except.bind, pure, Except.pure]

/-- Where it finds a string, the output string is its text, and where it finds another value, the
body.

**Proof sketch.** `HasMember` and `operator[]` find the same, and its type decides. -/
theorem stringResponse_of_found {v : Value} (hr : ex.ret = curleOk)
    (hm : b.findMember (document p ex) key = .ok (some v)) :
    stringResponse b p key ex =
      .ok (if v.isString then (true, cStr (v.getString.toOption.getD [])) else
        (false, ex.result)) := by
  have hmember : b.member (document p ex) key = .ok v := by
    simp [Build.member, hm, bind, Except.bind]
  have hhas : b.hasMember (document p ex) key = .ok true := by
    simp [Build.hasMember, hm, Except.map]
  cases hv : v.isString with
  | false => simp [stringResponse, hr, hhas, hmember, hv, bind, Except.bind, pure, Except.pure]
  | true =>
    obtain ⟨s, rfl⟩ := v.isString_iff.mp hv
    simp [stringResponse, hr, hhas, hmember, Value.isString, Value.getString, Except.mapError,
      Except.toOption, bind, Except.bind, pure, Except.pure]

/-- Where it does not return, the call does not return either. -/
theorem stringResponse_of_error {x : Stop} (hr : ex.ret = curleOk)
    (hm : b.findMember (document p ex) key = .error x) :
    stringResponse b p key ex = .error x := by
  simp [stringResponse, hr, hm, Build.hasMember, Except.map, bind, Except.bind]

/-- **The copies of `GetSessionToken` and `MakeCall`.** A copy does what the service's function does
unless its assertions are compiled out and the body is JSON, but not an object.

**Proof sketch.** By the four kinds of responses. On an object `FindMember` is the same. On other
JSON the service's function ends in the failed assertion, with which no call of a Release build
ends. -/
theorem stringResponse_eq_iff :
    stringResponse b p key ex = (Nuacom.stringResponse p key ex).mapError .assertion ↔
      b.Asserts ∨ ¬ NonObjectBody p ex := by
  have hobject : ∀ members, ex.ret = curleOk → document p ex = .object members →
      stringResponse b p key ex = (Nuacom.stringResponse p key ex).mapError .assertion := by
    intro members hr hd
    cases hm : Value.firstMember members key with
    | none =>
      rw [stringResponse_of_missing hr (by rw [hd, Build.findMember_object, hm]),
        Nuacom.stringResponse_of_missing hr hd hm]
      rfl
    | some v =>
      rw [stringResponse_of_found hr (by rw [hd, Build.findMember_object, hm])]
      cases hv : v.isString with
      | false =>
        rw [Nuacom.stringResponse_of_not_string hr hd hm hv]
        rfl
      | true =>
        obtain ⟨s, rfl⟩ := v.isString_iff.mp hv
        rw [Nuacom.stringResponse_of_string hr hd hm]
        rfl
  rcases response_cases p ex with hr | ⟨hr, hp⟩ | ⟨hr, members, hp⟩ | hn
  · refine iff_of_true ?_ (.inr fun hn => hr hn.1)
    rw [stringResponse_of_ret_ne hr, Nuacom.stringResponse_of_ret_ne hr]
    rfl
  · refine iff_of_true (hobject [] hr (document_of_none hp)) (.inr fun hn => ?_)
    obtain ⟨-, v, hv, -⟩ := hn
    rw [hp] at hv
    simp at hv
  · refine iff_of_true (hobject members hr (document_of_some hp)) (.inr fun hn => ?_)
    obtain ⟨-, v, hv, hno⟩ := hn
    obtain rfl : Value.object members = v := Option.some.inj (hp.symm.trans hv)
    simp [Value.isObject] at hno
  · rw [Nuacom.stringResponse_of_nonObject hn]
    obtain ⟨hr, v, hp, hv⟩ := id hn
    have hd := document_of_some hp
    cases b with
    | debug =>
      refine iff_of_true (stringResponse_of_error hr ?_) (.inl trivial)
      rw [hd]
      cases v <;> first | rfl | simp [Value.isObject] at hv
    | release m =>
      refine iff_of_false ?_ (by simp [Build.Asserts, hn])
      have hfind : (Build.release m).findMember (document p ex) key =
          match m.find v key with
          | some w => .ok w
          | none => .error .accessViolation := by
        rw [hd]
        cases v <;> first | rfl | simp [Value.isObject] at hv
      cases hm : m.find v key with
      | none =>
        rw [hm] at hfind
        rw [stringResponse_of_error hr hfind]
        simp [Except.mapError]
      | some w =>
        rw [hm] at hfind
        cases w with
        | none =>
          rw [stringResponse_of_missing hr hfind]
          simp [Except.mapError]
        | some w =>
          rw [stringResponse_of_found hr hfind]
          simp [Except.mapError]

/-- An ASCII number is dialled as the service's `MakeCall` dials it. -/
theorem makeCall_of_ascii (b : Build) (p : Parser) (http : Network)
    (sessionToken srcNumber : Bytes) {dstNumber : List UInt16} (h : ∀ u ∈ dstNumber, u < 0x80)
    {dstString : Bytes} (hdst : dstString = dstNumber.map fun u => UInt8.ofNat u.toNat)
    (hbody : b.Asserts ∨
      ¬ NonObjectBody p (http (makeCallRequest sessionToken srcNumber dstString))) :
    makeCall b p http sessionToken srcNumber dstNumber =
      (Nuacom.makeCall p http sessionToken srcNumber dstString).mapError .assertion := by
  rw [← toBytes_of_ascii h] at hdst
  subst hdst
  exact stringResponse_eq_iff.mpr hbody

end Copies

end Provider

/-! ## What a failing call reports -/

/-- A call that returns false has curl's error text in its output string when the transfer failed,
and the body otherwise. -/
def ReportsReason {ε : Type} (r : Except ε Reply) (ex : Exchange) : Prop :=
  ∀ out, r = .ok (false, out) → out = if ex.ret = curleOk then ex.result else cStr ex.errMsgBuf

/-- A failed transfer, or an object without the member, comes with the same text in the error
buffer and in the body. -/
structure SameTexts (p : Parser) (ex : Exchange) (key : Bytes) : Prop where
  failed : ex.ret ≠ curleOk → ex.result = cStr ex.errMsgBuf
  missing : ex.ret = curleOk → ∀ members, document p ex = .object members →
    Value.firstMember members key = none → cStr ex.errMsgBuf = ex.result

/-- The same for a build of the provider, where a member can be missing in other values too. -/
structure Provider.SameTexts (b : Build) (p : Parser) (ex : Exchange) (key : Bytes) : Prop where
  failed : ex.ret ≠ curleOk → ex.result = cStr ex.errMsgBuf
  missing : ex.ret = curleOk → b.findMember (document p ex) key = .ok none →
    cStr ex.errMsgBuf = ex.result

/-- `GetSessionToken` and `MakeCall` have the two texts the other way round in two of their three
failing branches, which shows unless they are the same.

**Proof sketch.** By the four texts that a response can put into the output string. A failed
transfer puts the body there, a missing member the error text, and a member of another type the
body; the fourth comes with true. -/
theorem stringResponse_reportsReason_iff (p : Parser) (ex : Exchange) (key : Bytes) :
    ReportsReason (stringResponse p key ex) ex ↔ SameTexts p ex key := by
  constructor
  · intro h
    refine ⟨fun hr => ?_, fun hr members hd hm => ?_⟩
    · have := h _ (stringResponse_of_ret_ne hr)
      rwa [if_neg hr] at this
    · have := h _ (stringResponse_of_missing hr hd hm)
      rwa [if_pos hr] at this
  · intro h out hout
    cases replyText_iff.mpr ⟨false, hout⟩ with
    | failed hr =>
      rw [if_neg hr]
      exact h.failed hr
    | missing hr hd hm =>
      rw [if_pos hr]
      exact h.missing hr _ hd hm
    | notString hmember hv => rw [if_pos hmember.1]
    | string hs =>
      have htrue := stringResponse_true_iff.mpr ⟨_, hs, rfl⟩
      rw [hout] at htrue
      simp at htrue

/-- The copies have the two texts the other way round in the same branches.

**Proof sketch.** After a failed transfer the output string is the body. Otherwise `FindMember`
finds nothing, which puts the error text there; or a value, which comes with true or puts the body
there; or it does not return. -/
theorem Provider.stringResponse_reportsReason_iff (b : Build) (p : Parser) (ex : Exchange)
    (key : Bytes) :
    ReportsReason (stringResponse b p key ex) ex ↔ SameTexts b p ex key := by
  constructor
  · intro h
    refine ⟨fun hr => ?_, fun hr hm => ?_⟩
    · have := h _ (stringResponse_of_ret_ne hr)
      rwa [if_neg hr] at this
    · have := h _ (stringResponse_of_missing hr hm)
      rwa [if_pos hr] at this
  · intro h out hout
    by_cases hr : ex.ret = curleOk
    · rw [if_pos hr]
      cases hm : b.findMember (document p ex) key with
      | error x =>
        rw [stringResponse_of_error hr hm] at hout
        simp at hout
      | ok w =>
        cases w with
        | none =>
          rw [stringResponse_of_missing hr hm] at hout
          obtain ⟨-, rfl⟩ := Prod.mk.inj (Except.ok.inj hout)
          exact h.missing hr hm
        | some v =>
          rw [stringResponse_of_found hr hm] at hout
          split_ifs at hout
          · simp at hout
          · exact (Prod.mk.inj (Except.ok.inj hout)).2.symm
    · rw [if_neg hr]
      rw [stringResponse_of_ret_ne hr] at hout
      obtain ⟨-, rfl⟩ := Prod.mk.inj (Except.ok.inj hout)
      exact h.failed hr

/-- `EndCall` reports why it fails. -/
theorem endCall_reportsReason {ε : Type} (http : Network) (sessionToken channelId : Bytes) :
    ReportsReason (.ok (endCall http sessionToken channelId) : Except ε Reply)
      (http (endCallRequest sessionToken channelId)) := by
  intro out hout
  have hreply := Except.ok.inj hout
  unfold endCall at hreply
  by_cases hr : (http (endCallRequest sessionToken channelId)).ret = curleOk
  · simp [hr] at hreply
  · rw [if_neg hr]
    rw [if_neg hr] at hreply
    exact (Prod.mk.inj hreply).2.symm

/-- **What failing calls report.** For every network and all arguments: `EndCall` reports why it
fails; `GetSessionToken` and `MakeCall` do exactly when the error text and the body are the same
after a failed transfer and for a body without the member. The provider's `EndCall` is the
service's, and its other two functions do what the service's do, with the number to call encoded,
exactly when the assertions are compiled in or the body is not JSON of another type than object;
they report why they fail under the same condition on the texts, for every value in which the member
is not found.

**Proof sketch.** The four functions are one function of their request and their key, in a build;
`EndCall` is the same in both programs. -/
theorem reportsReason_iff (b : Provider.Build) (p : Parser) (http : Network)
    (name pass sessionToken srcNumber dstNumber channelId : Bytes) (wideNumber : List UInt16) :
    (ReportsReason (getSessionToken p http name pass) (http (getSessionTokenRequest name pass)) ↔
      SameTexts p (http (getSessionTokenRequest name pass)) (bytes "session_token")) ∧
    (ReportsReason (makeCall p http sessionToken srcNumber dstNumber)
        (http (makeCallRequest sessionToken srcNumber dstNumber)) ↔
      SameTexts p (http (makeCallRequest sessionToken srcNumber dstNumber)) (bytes "status")) ∧
    ReportsReason (.ok (endCall http sessionToken channelId) : Except Assertion Reply)
      (http (endCallRequest sessionToken channelId)) ∧
    (Provider.getSessionToken b p http name pass =
        (getSessionToken p http name pass).mapError .assertion ↔
      b.Asserts ∨ ¬ NonObjectBody p (http (getSessionTokenRequest name pass))) ∧
    (Provider.makeCall b p http sessionToken srcNumber wideNumber =
        (makeCall p http sessionToken srcNumber (Provider.toBytes wideNumber)).mapError
          .assertion ↔
      b.Asserts ∨ ¬ NonObjectBody p
        (http (makeCallRequest sessionToken srcNumber (Provider.toBytes wideNumber)))) ∧
    Provider.endCall http sessionToken channelId = endCall http sessionToken channelId ∧
    (ReportsReason (Provider.getSessionToken b p http name pass)
        (http (getSessionTokenRequest name pass)) ↔
      Provider.SameTexts b p (http (getSessionTokenRequest name pass))
        (bytes "session_token")) ∧
    (ReportsReason (Provider.makeCall b p http sessionToken srcNumber wideNumber)
        (http (makeCallRequest sessionToken srcNumber (Provider.toBytes wideNumber))) ↔
      Provider.SameTexts b p
        (http (makeCallRequest sessionToken srcNumber (Provider.toBytes wideNumber)))
        (bytes "status")) :=
  ⟨stringResponse_reportsReason_iff _ _ _, stringResponse_reportsReason_iff _ _ _,
    endCall_reportsReason _ _ _, Provider.stringResponse_eq_iff, Provider.stringResponse_eq_iff,
    rfl, Provider.stringResponse_reportsReason_iff _ _ _ _,
    Provider.stringResponse_reportsReason_iff _ _ _ _⟩

/-- A transfer that failed before anything was received. -/
def unresolvedHost : Exchange where
  ret := 6
  chunks := []
  errMsgBuf := bytes "Could not resolve host" ++ [0]

/-- A transfer whose body has no member that is looked for. -/
def loginRefused : Exchange where
  ret := curleOk
  chunks := [bytes "no such user"]
  errMsgBuf := [0]

/-- A memory in which no value that is not an object has members. -/
def noMembers : Provider.Misread := ⟨fun _ _ => some none, fun _ => ⟨rfl, fun _ => rfl, rfl⟩⟩

/-- A failed transfer and a refused login are both reported by an empty text; and for the body `[]`
the service's function ends in a failed assertion, where the provider's Release build returns false
with an empty text.

**Proof sketch.** The replies are computed: each text is empty, and the other one of the two is not.
-/
theorem reason_lost :
    getSessionToken (fun _ => none) (fun _ => unresolvedHost) (bytes "bob") (bytes "pw") =
      .ok (false, []) ∧
    ¬ ReportsReason (getSessionToken (fun _ => none) (fun _ => unresolvedHost) (bytes "bob")
      (bytes "pw")) unresolvedHost ∧
    getSessionToken (fun _ => none) (fun _ => loginRefused) (bytes "bob") (bytes "pw") =
      .ok (false, []) ∧
    ¬ ReportsReason (getSessionToken (fun _ => none) (fun _ => loginRefused) (bytes "bob")
      (bytes "pw")) loginRefused ∧
    getSessionToken emptyArrayParser (fun _ => emptyArrayExchange) (bytes "bob") (bytes "pw") =
      .error .isObject ∧
    Provider.getSessionToken (.release noMembers) emptyArrayParser (fun _ => emptyArrayExchange)
      (bytes "bob") (bytes "pw") = .ok (false, []) ∧
    ¬ ReportsReason (Provider.getSessionToken (.release noMembers) emptyArrayParser
      (fun _ => emptyArrayExchange) (bytes "bob") (bytes "pw")) emptyArrayExchange := by
  have hhost : getSessionToken (fun _ => none) (fun _ => unresolvedHost) (bytes "bob")
      (bytes "pw") = .ok (false, []) := stringResponse_of_ret_ne (by decide)
  have hlogin : getSessionToken (fun _ => none) (fun _ => loginRefused) (bytes "bob")
      (bytes "pw") = .ok (false, []) := stringResponse_of_missing rfl (document_of_none rfl) rfl
  have htext : cStr emptyArrayExchange.result = bytes "[]" := by decide
  have hbody : NonObjectBody emptyArrayParser emptyArrayExchange := by
    refine ⟨rfl, .array [], ?_, rfl⟩
    rw [htext]
    exact if_pos rfl
  have hrelease : Provider.getSessionToken (.release noMembers) emptyArrayParser
      (fun _ => emptyArrayExchange) (bytes "bob") (bytes "pw") = .ok (false, []) := by
    obtain ⟨hr, v, hp, hv⟩ := hbody
    refine Provider.stringResponse_of_missing hr ?_
    rw [document_of_some hp]
    cases v <;> first | rfl | simp [Value.isObject] at hv
  refine ⟨hhost, fun h => ?_, hlogin, fun h => ?_, stringResponse_of_nonObject hbody, hrelease,
    fun h => ?_⟩
  · have := h [] hhost
    revert this
    decide
  · have := h [] hlogin
    revert this
    decide
  · have := h [] hrelease
    revert this
    decide

end Nuacom
