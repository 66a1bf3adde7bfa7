import Nuacom.Api.Client

set_option relaxedAutoImplicit false
set_option autoImplicit false

/-!
# What the API client makes of a response

The document of a response starts as an empty object, so that a body that is not JSON has no
members. A body that is JSON replaces it by a value of any type, and on a value that is not an
object the search for a member fails its assertion.

## Main definitions

* `Nuacom.StringMember`, `Nuacom.IntMember` — the transfer succeeded and the body is an object
  whose first member of that name is a string, or a 32-bit integer.
* `Nuacom.NonObjectBody` — the transfer succeeded and the body is JSON, but not an object.
* `Nuacom.Answers` — a call ends normally, returns true exactly when the member is there, and
  then with its text.

## Main results

* `Nuacom.stringResponse_answers_iff`, `Nuacom.extensionResponse_answers_iff` — the code that
  reads a response answers in this way exactly on the responses that are not `NonObjectBody`.
* `Nuacom.api_answers_iff` — the same for the three functions of the API.
-/

namespace Nuacom

open CString Rapidjson

variable (p : Parser) (ex : Exchange) (key : Bytes)

/-- The transfer succeeded and the body, up to its first zero byte, is an object whose first
member named `key` is `v`. -/
def FirstMember (v : Value) : Prop :=
  ex.ret = curleOk ∧ ∃ members, p (cStr ex.result) = some (.object members) ∧
    Value.firstMember members key = some v

/-- The first member named `key` is the string `s`. -/
def StringMember (s : Bytes) : Prop := FirstMember p ex key (.string s)

/-- The first member named `key` is the 32-bit integer `i`. -/
def IntMember (i : ℤ) : Prop :=
  FirstMember p ex key (.int i) ∧ -(2 ^ 31) ≤ i ∧ i < 2 ^ 31

/-- The transfer succeeded and the body, up to its first zero byte, is JSON but not an
object. -/
def NonObjectBody : Prop :=
  ex.ret = curleOk ∧ ∃ v, p (cStr ex.result) = some v ∧ v.isObject = false

/-- A call ends normally; it returns true exactly when there is a `v` with `Member v`, and the
output string is then its text. -/
def Answers {α : Type} (r : Except Assertion Reply) (Member : α → Prop) (text : α → Bytes) :
    Prop :=
  ∃ reply, r = .ok reply ∧ (reply.1 = true ↔ ∃ v, Member v) ∧ ∀ v, Member v → reply.2 = text v

section Answers

variable {α : Type} {r : Except Assertion Reply} {Member : α → Prop} {text : α → Bytes}

/-- A call that returns false answers when there is no such member. -/
theorem answers_of_false {out : Bytes} (hr : r = .ok (false, out)) (hno : ∀ v, ¬ Member v) :
    Answers r Member text := by
  refine ⟨_, hr, ?_, fun v hv => absurd hv (hno v)⟩
  exact iff_of_false Bool.false_ne_true (fun ⟨v, hv⟩ => hno v hv)

/-- A call that returns true answers when its output is the text of the one such member. -/
theorem answers_of_true {v : α} (hr : r = .ok (true, text v)) (hv : Member v)
    (hone : ∀ v', Member v' → v' = v) : Answers r Member text := by
  refine ⟨_, hr, iff_of_true rfl ⟨v, hv⟩, fun v' hv' => ?_⟩
  rw [hone v' hv']

/-- A call that does not end normally does not answer. -/
theorem not_answers_of_error {x : Assertion} (hr : r = .error x) : ¬ Answers r Member text := by
  intro h
  obtain ⟨reply, hreply, -⟩ := h
  rw [hr] at hreply
  simp at hreply

end Answers

/-! ## The cases of a response -/

/-- A response is one of four: a failed transfer, a body that is not JSON, a body that is an
object, or a body that is another JSON value.

**Proof sketch.** By the result of the transfer, then by that of the parser, then by the type of the
value. -/
theorem response_cases :
    ex.ret ≠ curleOk ∨ (ex.ret = curleOk ∧ p (cStr ex.result) = none) ∨
      (ex.ret = curleOk ∧ ∃ members, p (cStr ex.result) = some (.object members)) ∨
      NonObjectBody p ex := by
  by_cases hr : ex.ret = curleOk
  · cases hp : p (cStr ex.result) with
    | none => exact .inr (.inl ⟨hr, rfl⟩)
    | some v =>
      by_cases hv : v.isObject = true
      · obtain ⟨members, rfl⟩ := v.isObject_iff.mp hv
        exact .inr (.inr (.inl ⟨hr, members, rfl⟩))
      · exact .inr (.inr (.inr ⟨hr, v, hp, by simpa using hv⟩))
  · exact .inl hr

variable {p ex key}

/-- The members a response has no string, integer or other value for when the transfer failed
or the body is no object. -/
theorem not_firstMember_of_ret_ne (h : ex.ret ≠ curleOk) (v : Value) :
    ¬ FirstMember p ex key v := fun hm => h hm.1

/-- A body that is not JSON has no members. -/
theorem not_firstMember_of_none (h : p (cStr ex.result) = none) (v : Value) :
    ¬ FirstMember p ex key v := by
  intro h'
  obtain ⟨-, members, hp, -⟩ := h'
  rw [h] at hp
  simp at hp

/-- The members of a body that is an object. -/
theorem firstMember_iff_of_object {members : List (Bytes × Value)} (hr : ex.ret = curleOk)
    (hp : p (cStr ex.result) = some (.object members)) (v : Value) :
    FirstMember p ex key v ↔ Value.firstMember members key = some v := by
  constructor
  · intro h
    obtain ⟨-, members', hp', hm⟩ := h
    rw [hp] at hp'
    obtain rfl : members = members' := by simpa using hp'
    exact hm
  · exact fun hm => ⟨hr, members, hp, hm⟩

/-- The document of a body that is not JSON is the empty object. -/
theorem document_of_none (h : p (cStr ex.result) = none) : document p ex = .object [] := by
  simp [document, parse, h]

/-- The document of a body that is JSON. -/
theorem document_of_some {v : Value} (h : p (cStr ex.result) = some v) : document p ex = v := by
  simp [document, parse, h]

/-! ## `GetSessionToken` and `MakeCall` -/

/-- After a failed transfer the output string is the body. -/
theorem stringResponse_of_ret_ne (h : ex.ret ≠ curleOk) :
    stringResponse p key ex = .ok (false, ex.result) := by
  simp [stringResponse, h, pure, Except.pure]

/-- Where the document is an object without the member, the output string is the error text. -/
theorem stringResponse_of_missing {members : List (Bytes × Value)} (hr : ex.ret = curleOk)
    (hd : document p ex = .object members) (hm : Value.firstMember members key = none) :
    stringResponse p key ex = .ok (false, cStr ex.errMsgBuf) := by
  simp [stringResponse, hr, hd, hm, bind, Except.bind, pure, Except.pure]

/-- Where the member is a string, the output string is its text. -/
theorem stringResponse_of_string {members : List (Bytes × Value)} {s : Bytes}
    (hr : ex.ret = curleOk) (hd : document p ex = .object members)
    (hm : Value.firstMember members key = some (.string s)) :
    stringResponse p key ex = .ok (true, cStr s) := by
  simp [stringResponse, hr, hd, hm, Value.member_object hm, Value.isString, Value.getString,
    bind, Except.bind, pure, Except.pure]

/-- Where the member is not a string, the output string is the body. -/
theorem stringResponse_of_not_string {members : List (Bytes × Value)} {v : Value}
    (hr : ex.ret = curleOk) (hd : document p ex = .object members)
    (hm : Value.firstMember members key = some v) (hv : v.isString = false) :
    stringResponse p key ex = .ok (false, ex.result) := by
  simp [stringResponse, hr, hd, hm, Value.member_object hm, hv, bind, Except.bind, pure,
    Except.pure]

/-- On a body that is JSON but not an object, `HasMember` fails its assertion. -/
theorem stringResponse_of_nonObject (h : NonObjectBody p ex) :
    stringResponse p key ex = .error .isObject := by
  obtain ⟨hr, v, hp, hv⟩ := h
  have hm := (Value.hasMember_error_iff v key).mpr hv
  simp [stringResponse, hr, document_of_some hp, hm, bind, Except.bind]

/-- **The string response.** `GetSessionToken` and `MakeCall` answer as they should exactly on
the responses whose body is not JSON of another type than object.

**Proof sketch.** By the four kinds of responses. After a failed transfer, and on a body that
is not JSON, the call returns false and there is no member. On an object the first member of
the name decides, in `HasMember`, in `operator[]` and in the specification alike. On any other
JSON value the call does not end. -/
theorem stringResponse_answers_iff :
    Answers (stringResponse p key ex) (StringMember p ex key) cStr ↔ ¬ NonObjectBody p ex := by
  constructor
  · intro h hn
    exact not_answers_of_error (stringResponse_of_nonObject hn) h
  · intro hn
    rcases response_cases p ex with hr | ⟨hr, hp⟩ | ⟨hr, members, hp⟩ | h
    · apply answers_of_false (stringResponse_of_ret_ne hr)
      exact fun s => not_firstMember_of_ret_ne hr _
    · apply answers_of_false (stringResponse_of_missing hr (document_of_none hp) rfl)
      exact fun s => not_firstMember_of_none hp _
    · have hd := document_of_some hp
      have hiff : ∀ s, StringMember p ex key s ↔
          Value.firstMember members key = some (.string s) :=
        fun s => firstMember_iff_of_object hr hp _
      cases hm : Value.firstMember members key with
      | none =>
        apply answers_of_false (stringResponse_of_missing hr hd hm)
        intro s hs
        rw [hiff, hm] at hs
        simp at hs
      | some v =>
        by_cases hv : v.isString = true
        · obtain ⟨s, rfl⟩ := v.isString_iff.mp hv
          apply answers_of_true (stringResponse_of_string hr hd hm) ((hiff s).mpr hm)
          intro s' hs'
          rw [hiff, hm] at hs'
          simpa using hs'.symm
        · have hv' : v.isString = false := by simpa using hv
          apply answers_of_false (stringResponse_of_not_string hr hd hm hv')
          intro s hs
          rw [hiff, hm] at hs
          obtain rfl : v = .string s := by simpa using hs
          simp [Value.isString] at hv
    · exact absurd h hn

/-- They return true exactly with the text of the string.

**Proof sketch.** A response that returns true is none of those that abort, and the others answer as
they should. -/
theorem stringResponse_true_iff {out : Bytes} :
    stringResponse p key ex = .ok (true, out) ↔ ∃ s, StringMember p ex key s ∧ out = cStr s := by
  constructor
  · intro h
    have hn : ¬ NonObjectBody p ex := by
      intro hn
      rw [stringResponse_of_nonObject hn] at h
      simp at h
    obtain ⟨reply, hreply, hiff, htext⟩ := stringResponse_answers_iff.mpr hn
    obtain rfl : (true, out) = reply := Except.ok.inj (h.symm.trans hreply)
    obtain ⟨s, hs⟩ := hiff.mp rfl
    exact ⟨s, hs, htext s hs⟩
  · intro h
    obtain ⟨s, ⟨hr, members, hp, hm⟩, rfl⟩ := h
    exact stringResponse_of_string hr (document_of_some hp) hm

/-- What a response puts into the output string of `GetSessionToken` and `MakeCall`. -/
inductive ReplyText (p : Parser) (ex : Exchange) (key : Bytes) : Bytes → Prop
  | failed (hr : ex.ret ≠ curleOk) : ReplyText p ex key ex.result
  | missing {members : List (Bytes × Value)} (hr : ex.ret = curleOk)
      (hd : document p ex = .object members) (hm : Value.firstMember members key = none) :
      ReplyText p ex key (cStr ex.errMsgBuf)
  | notString {v : Value} (h : FirstMember p ex key v) (hv : v.isString = false) :
      ReplyText p ex key ex.result
  | string {s : Bytes} (h : StringMember p ex key s) : ReplyText p ex key (cStr s)

/-- The calls that return are those with such a text, and return it.

**Proof sketch.** The four texts are those of the four branches. Back, the response is one of the
four kinds, and each of them returns the text of its branch. -/
theorem replyText_iff {out : Bytes} :
    ReplyText p ex key out ↔ ∃ b, stringResponse p key ex = .ok (b, out) := by
  constructor
  · intro h
    cases h with
    | failed hr => exact ⟨false, stringResponse_of_ret_ne hr⟩
    | missing hr hd hm => exact ⟨false, stringResponse_of_missing hr hd hm⟩
    | notString h hv =>
      obtain ⟨hr, members, hp, hm⟩ := h
      exact ⟨false, stringResponse_of_not_string hr (document_of_some hp) hm hv⟩
    | string h => exact ⟨true, stringResponse_true_iff.mpr ⟨_, h, rfl⟩⟩
  · intro h
    obtain ⟨b, h⟩ := h
    rcases response_cases p ex with hr | ⟨hr, hp⟩ | ⟨hr, members, hp⟩ | hn
    · rw [stringResponse_of_ret_ne hr] at h
      obtain ⟨-, rfl⟩ := Prod.mk.inj (Except.ok.inj h)
      exact .failed hr
    · have hd := document_of_none hp
      rw [stringResponse_of_missing hr hd rfl] at h
      obtain ⟨-, rfl⟩ := Prod.mk.inj (Except.ok.inj h)
      exact .missing hr hd rfl
    · have hd := document_of_some hp
      cases hm : Value.firstMember members key with
      | none =>
        rw [stringResponse_of_missing hr hd hm] at h
        obtain ⟨-, rfl⟩ := Prod.mk.inj (Except.ok.inj h)
        exact .missing hr hd hm
      | some v =>
        by_cases hv : v.isString = true
        · obtain ⟨s, rfl⟩ := v.isString_iff.mp hv
          rw [stringResponse_of_string hr hd hm] at h
          obtain ⟨-, rfl⟩ := Prod.mk.inj (Except.ok.inj h)
          exact .string ⟨hr, members, hp, hm⟩
        · have hv' : v.isString = false := by simpa using hv
          rw [stringResponse_of_not_string hr hd hm hv'] at h
          obtain ⟨-, rfl⟩ := Prod.mk.inj (Except.ok.inj h)
          exact .notString ⟨hr, members, hp, hm⟩ hv'
    · rw [stringResponse_of_nonObject hn] at h
      simp at h

/-! ## `GetExtension` -/

/-- `IntMember` in a body that is an object.

**Proof sketch.** The range of the integer is what `IsInt` asks for. -/
theorem intMember_iff_of_object {members : List (Bytes × Value)} (hr : ex.ret = curleOk)
    (hp : p (cStr ex.result) = some (.object members)) (i : ℤ) :
    IntMember p ex key i ↔
      ∃ v, Value.firstMember members key = some v ∧ v = .int i ∧ v.isInt = true := by
  unfold IntMember
  rw [firstMember_iff_of_object hr hp]
  constructor
  · intro h
    obtain ⟨hm, hlo, hhi⟩ := h
    exact ⟨.int i, hm, rfl, (Value.isInt_iff _).mpr ⟨i, rfl, hlo, hhi⟩⟩
  · intro h
    obtain ⟨v, hm, rfl, hv⟩ := h
    obtain ⟨j, hj, hlo, hhi⟩ := (Value.isInt_iff _).mp hv
    obtain rfl : i = j := by simpa using hj
    exact ⟨hm, hlo, hhi⟩

/-- After a failed transfer `GetExtension` leaves the output string as it was. -/
theorem extensionResponse_of_ret_ne (h : ex.ret ≠ curleOk) (extension : Bytes) :
    extensionResponse p key ex extension = .ok (false, extension) := by
  simp [extensionResponse, h, pure, Except.pure]

/-- Where the document is an object without the member, the output string stays. -/
theorem extensionResponse_of_missing {members : List (Bytes × Value)} (hr : ex.ret = curleOk)
    (hd : document p ex = .object members) (hm : Value.firstMember members key = none)
    (extension : Bytes) :
    extensionResponse p key ex extension = .ok (false, extension) := by
  simp [extensionResponse, hr, hd, hm, bind, Except.bind, pure, Except.pure]

/-- Where the member is a 32-bit integer, the output string is its decimal text. -/
theorem extensionResponse_of_int {members : List (Bytes × Value)} {i : ℤ}
    (hr : ex.ret = curleOk) (hd : document p ex = .object members)
    (hm : Value.firstMember members key = some (.int i)) (hi : (Value.int i).isInt = true)
    (extension : Bytes) :
    extensionResponse p key ex extension = .ok (true, ltoa i) := by
  simp [extensionResponse, hr, hd, hm, Value.member_object hm, hi, Value.getInt_of_isInt hi,
    bind, Except.bind, pure, Except.pure]

/-- Where the member is no 32-bit integer, the output string stays. -/
theorem extensionResponse_of_not_int {members : List (Bytes × Value)} {v : Value}
    (hr : ex.ret = curleOk) (hd : document p ex = .object members)
    (hm : Value.firstMember members key = some v) (hv : v.isInt = false) (extension : Bytes) :
    extensionResponse p key ex extension = .ok (false, extension) := by
  simp [extensionResponse, hr, hd, hm, Value.member_object hm, hv, bind, Except.bind, pure,
    Except.pure]

/-- On a body that is JSON but not an object, `HasMember` fails its assertion. -/
theorem extensionResponse_of_nonObject (h : NonObjectBody p ex) (extension : Bytes) :
    extensionResponse p key ex extension = .error .isObject := by
  obtain ⟨hr, v, hp, hv⟩ := h
  have hm := (Value.hasMember_error_iff v key).mpr hv
  simp [extensionResponse, hr, document_of_some hp, hm, bind, Except.bind]

/-- **The integer response.** `GetExtension` answers as it should exactly on the responses
whose body is not JSON of another type than object.

**Proof sketch.** A body of another type aborts. For each of the other kinds the branch is known,
and there is an integer member exactly in the one that returns true. -/
theorem extensionResponse_answers_iff (extension : Bytes) :
    Answers (extensionResponse p key ex extension) (IntMember p ex key) ltoa ↔
      ¬ NonObjectBody p ex := by
  constructor
  · intro h hn
    exact not_answers_of_error (extensionResponse_of_nonObject hn extension) h
  · intro hn
    rcases response_cases p ex with hr | ⟨hr, hp⟩ | ⟨hr, members, hp⟩ | h
    · apply answers_of_false (extensionResponse_of_ret_ne hr extension)
      exact fun i hi => not_firstMember_of_ret_ne hr _ hi.1
    · apply answers_of_false
        (extensionResponse_of_missing hr (document_of_none hp) rfl extension)
      exact fun i hi => not_firstMember_of_none hp _ hi.1
    · have hd := document_of_some hp
      have hiff : ∀ i, IntMember p ex key i ↔
          ∃ v, Value.firstMember members key = some v ∧ v = .int i ∧ v.isInt = true :=
        intMember_iff_of_object hr hp
      cases hm : Value.firstMember members key with
      | none =>
        apply answers_of_false (extensionResponse_of_missing hr hd hm extension)
        intro i hi
        rw [hiff, hm] at hi
        simp at hi
      | some v =>
        by_cases hv : v.isInt = true
        · obtain ⟨i, rfl, -, -⟩ := v.isInt_iff.mp hv
          apply answers_of_true (extensionResponse_of_int hr hd hm hv extension)
            ((hiff i).mpr ⟨_, hm, rfl, hv⟩)
          intro j hj
          rw [hiff, hm] at hj
          obtain ⟨w, hw, rfl, -⟩ := hj
          simpa using hw.symm
        · have hv' : v.isInt = false := by simpa using hv
          apply answers_of_false (extensionResponse_of_not_int hr hd hm hv' extension)
          intro i hi
          rw [hiff, hm] at hi
          obtain ⟨w, hw, -, hwi⟩ := hi
          obtain rfl : v = w := by simpa using hw
          exact hv hwi
    · exact absurd h hn

/-- `GetExtension` returns true exactly with the decimal text of the integer.

**Proof sketch.** As for the strings, with `IsInt` in the place of `IsString`. -/
theorem extensionResponse_true_iff {extension out : Bytes} :
    extensionResponse p key ex extension = .ok (true, out) ↔
      ∃ i, IntMember p ex key i ∧ out = ltoa i := by
  constructor
  · intro h
    have hn : ¬ NonObjectBody p ex := by
      intro hn
      rw [extensionResponse_of_nonObject hn] at h
      simp at h
    obtain ⟨reply, hreply, hiff, htext⟩ := (extensionResponse_answers_iff extension).mpr hn
    obtain rfl : (true, out) = reply := Except.ok.inj (h.symm.trans hreply)
    obtain ⟨i, hi⟩ := hiff.mp rfl
    exact ⟨i, hi, htext i hi⟩
  · intro h
    obtain ⟨i, ⟨⟨hr, members, hp, hm⟩, hlo, hhi⟩, rfl⟩ := h
    exact extensionResponse_of_int hr (document_of_some hp) hm
      ((Value.isInt_iff _).mpr ⟨i, rfl, hlo, hhi⟩) extension

/-! ## The three functions -/

/-- **Which responses the API client answers.** For every network and all arguments, each of
the three functions ends normally, returns true exactly when the member it looks for is there
and then returns its text, exactly when the response to its own request is not a successful
transfer of JSON that is no object.

**Proof sketch.** `GetSessionToken` and `MakeCall` are the same function of their request and their
key, and `GetExtension` is its sibling for integers. -/
theorem api_answers_iff (p : Parser) (http : Network)
    (name pass sessionToken srcNumber dstNumber extension : Bytes) :
    (Answers (getSessionToken p http name pass)
        (StringMember p (http (getSessionTokenRequest name pass)) (bytes "session_token")) cStr ↔
      ¬ NonObjectBody p (http (getSessionTokenRequest name pass))) ∧
    (Answers (makeCall p http sessionToken srcNumber dstNumber)
        (StringMember p (http (makeCallRequest sessionToken srcNumber dstNumber))
          (bytes "status")) cStr ↔
      ¬ NonObjectBody p (http (makeCallRequest sessionToken srcNumber dstNumber))) ∧
    (Answers (getExtension p http sessionToken extension)
        (IntMember p (http (getExtensionRequest sessionToken)) (bytes "user_extension")) ltoa ↔
      ¬ NonObjectBody p (http (getExtensionRequest sessionToken))) :=
  ⟨stringResponse_answers_iff, stringResponse_answers_iff,
    extensionResponse_answers_iff extension⟩

/-- A parser that knows the text `[]`. -/
def emptyArrayParser : Parser := fun text => if text = bytes "[]" then some (.array []) else none

/-- A transfer that succeeded with the body `[]`. -/
def emptyArrayExchange : Exchange where
  ret := curleOk
  chunks := [bytes "[]"]
  errMsgBuf := []

/-- The body `[]` ends all three functions with a failed assertion, where they should return
false.

**Proof sketch.** The body is JSON and no object, so none of the three answers. -/
theorem api_aborts_on_empty_array :
    getSessionToken emptyArrayParser (fun _ => emptyArrayExchange) (bytes "bob") (bytes "pw") =
      .error .isObject ∧
    ¬ Answers (getSessionToken emptyArrayParser (fun _ => emptyArrayExchange) (bytes "bob")
      (bytes "pw"))
        (StringMember emptyArrayParser emptyArrayExchange (bytes "session_token")) cStr ∧
    ¬ Answers (makeCall emptyArrayParser (fun _ => emptyArrayExchange) (bytes "t") (bytes "1")
      (bytes "2")) (StringMember emptyArrayParser emptyArrayExchange (bytes "status")) cStr ∧
    ¬ Answers (getExtension emptyArrayParser (fun _ => emptyArrayExchange) (bytes "t") [])
        (IntMember emptyArrayParser emptyArrayExchange (bytes "user_extension")) ltoa := by
  have htext : cStr emptyArrayExchange.result = bytes "[]" := by decide
  have hbody : NonObjectBody emptyArrayParser emptyArrayExchange := by
    refine ⟨rfl, .array [], ?_, rfl⟩
    rw [htext]
    exact if_pos rfl
  refine ⟨stringResponse_of_nonObject hbody, ?_, ?_, ?_⟩
  · exact fun h => stringResponse_answers_iff.mp h hbody
  · exact fun h => stringResponse_answers_iff.mp h hbody
  · exact fun h => (extensionResponse_answers_iff []).mp h hbody

end Nuacom
