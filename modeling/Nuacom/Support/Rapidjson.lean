import Nuacom.Support.CString

set_option relaxedAutoImplicit false
set_option autoImplicit false

/-!
# The part of rapidjson's document model that reads members

A document is a JSON value. The accessors assert what they rely on, so each of them returns a
value or the assertion it violates; the assertions are active where `NDEBUG` is not defined.

## Main definitions

* `Rapidjson.Value` — JSON values, with the number kinds the accessors tell apart.
* `Rapidjson.Assertion` — the assertions that the accessors below make.
* `Rapidjson.Value.findMember`, `hasMember`, `member`, `getString`, `getInt` — the accessors.
* `Rapidjson.Value.firstMember` — the first member of an object with a given name.
* `Rapidjson.Parser`, `Rapidjson.parse` — `Document::Parse` over an existing document.
* `Rapidjson.writeString`, `Rapidjson.writeObject`, `Rapidjson.write` — what `Writer` prints for a
  string, for an object of strings, and for any value.

## Main results

* `Rapidjson.Value.hasMember_object`, `hasMember_error_iff` — where `HasMember` may be called.
* `Rapidjson.Value.member_object` — `operator[]` returns the first member of that name.
* `Rapidjson.nulFree_write` — what `Writer` prints has no zero byte.
-/

namespace Rapidjson

open CString

/-- JSON values. A number is an integer, of any size, or a double, kept as its bits. -/
inductive Value
  | null
  | bool (b : Bool)
  | int (i : ℤ)
  | double (bits : UInt64)
  | string (s : Bytes)
  | array (elems : List Value)
  | object (members : List (Bytes × Value))

/-- The assertions of the accessors. -/
inductive Assertion
  | isObject
  | memberFound
  | isString
  | isInt
  deriving DecidableEq, Repr

namespace Value

/-- `IsObject`. -/
def isObject : Value → Bool
  | object _ => true
  | _ => false

/-- `IsString`. -/
def isString : Value → Bool
  | string _ => true
  | _ => false

/-- `IsInt`: an integer that fits 32 bits with sign. -/
def isInt : Value → Bool
  | int i => decide (-(2 ^ 31) ≤ i ∧ i < 2 ^ 31)
  | _ => false

/-- The first of `members` with a given name. -/
def firstMember (members : List (Bytes × Value)) (name : Bytes) : Option Value :=
  (members.find? fun m => m.1 == name).map Prod.snd

/-- `FindMember`: asserts an object, and searches it from its first member on. -/
def findMember (v : Value) (name : Bytes) : Except Assertion (Option Value) :=
  match v with
  | object members => .ok (firstMember members name)
  | _ => .error .isObject

/-- `HasMember`. -/
def hasMember (v : Value) (name : Bytes) : Except Assertion Bool :=
  (v.findMember name).map Option.isSome

/-- `operator[]`: asserts that the member is there. -/
def member (v : Value) (name : Bytes) : Except Assertion Value := do
  match ← v.findMember name with
  | some w => .ok w
  | none => .error .memberFound

/-- `GetString`. -/
def getString : Value → Except Assertion Bytes
  | string s => .ok s
  | _ => .error .isString

/-- `GetInt`. -/
def getInt (v : Value) : Except Assertion ℤ :=
  match v with
  | int i => if v.isInt then .ok i else .error .isInt
  | _ => .error .isInt

/-- `HasMember` on an object ends normally. -/
@[simp] theorem hasMember_object (members : List (Bytes × Value)) (name : Bytes) :
    (object members).hasMember name = .ok (firstMember members name).isSome := rfl

/-- `operator[]` on an object that has the member returns the first one of that name. -/
theorem member_object {members : List (Bytes × Value)} {name : Bytes} {v : Value}
    (h : firstMember members name = some v) : (object members).member name = .ok v := by
  simp [member, findMember, h, bind, Except.bind]

/-- `HasMember` fails its assertion exactly on values that are not objects. -/
theorem hasMember_error_iff (v : Value) (name : Bytes) :
    v.hasMember name = .error .isObject ↔ v.isObject = false := by
  cases v <;> simp [hasMember, findMember, isObject, Except.map]

/-- A value is an object exactly when `IsObject` says so. -/
theorem isObject_iff (v : Value) : v.isObject = true ↔ ∃ members, v = object members := by
  cases v <;> simp [isObject]

/-- A value is a string exactly when `IsString` says so. -/
theorem isString_iff (v : Value) : v.isString = true ↔ ∃ s, v = string s := by
  cases v <;> simp [isString]

/-- A value is a 32-bit integer exactly when `IsInt` says so, and `GetInt` then returns it. -/
theorem isInt_iff (v : Value) : v.isInt = true ↔
    ∃ i : ℤ, v = int i ∧ -(2 ^ 31) ≤ i ∧ i < 2 ^ 31 := by
  cases v with
  | int i => simp [isInt]
  | _ => simp [isInt]

/-- `GetInt` on a value that `IsInt` accepts. -/
theorem getInt_of_isInt {i : ℤ} (h : (int i).isInt = true) : (int i).getInt = .ok i := by
  simp [getInt, h]

end Value

/-- What a text parses to: a value, or nothing when it is not valid JSON. -/
abbrev Parser := Bytes → Option Value

/-- `Document::Parse`: the parsed value replaces the document, which stays as it was when the
text is not valid JSON. -/
def parse (p : Parser) (d : Value) (text : Bytes) : Value := (p text).getD d

/-! ## Writing -/

/-- A digit of the table `hexDigits`. -/
def hexDigit (n : ℕ) : UInt8 := UInt8.ofNat (if n < 10 then 48 + n else 55 + n)

/-- One byte of a string as `WriteString` prints it: escaped with a letter, escaped with four
hexadecimal digits, or as it is. -/
def writeByte (c : UInt8) : Bytes :=
  match c with
  | 8 => bytes "\\b"
  | 9 => bytes "\\t"
  | 10 => bytes "\\n"
  | 12 => bytes "\\f"
  | 13 => bytes "\\r"
  | 34 => bytes "\\\""
  | 92 => bytes "\\\\"
  | c =>
    if c < 32 then bytes "\\u00" ++ [hexDigit (c.toNat / 16), hexDigit (c.toNat % 16)]
    else [c]

/-- `WriteString`: the string between quotes. -/
def writeString (s : Bytes) : Bytes := 34 :: s.flatMap writeByte ++ [34]

/-- An object whose members are all strings. -/
def writeObject (members : List (Bytes × Bytes)) : Bytes :=
  123 :: ((members.map fun m => writeString m.1 ++ 58 :: writeString m.2).intersperse [44]).flatten
    ++ [125]

section Write

variable (dtoa : UInt64 → Bytes)

mutual

/-- What `Writer` prints for a value; `dtoa` is the text of a double. -/
def write : Value → Bytes
  | .null => bytes "null"
  | .bool b => if b then bytes "true" else bytes "false"
  | .int i => bytes (toString i)
  | .double bits => dtoa bits
  | .string s => writeString s
  | .array [] => bytes "[]"
  | .array (v :: vs) => 91 :: write v ++ writeElems vs ++ [93]
  | .object [] => 123 :: [125]
  | .object ((name, v) :: ms) =>
    123 :: writeString name ++ 58 :: write v ++ writeMembers ms ++ [125]

/-- The elements of an array behind the first, each with a comma before it. -/
def writeElems : List Value → Bytes
  | [] => []
  | v :: vs => 44 :: write v ++ writeElems vs

/-- The members of an object behind the first. -/
def writeMembers : List (Bytes × Value) → Bytes
  | [] => []
  | (name, v) :: ms => 44 :: writeString name ++ 58 :: write v ++ writeMembers ms

end

variable {dtoa}

/-- A byte of a string is printed without a zero byte. -/
theorem nulFree_writeByte (c : UInt8) : NulFree (writeByte c) := by
  have hhex : ∀ n, n < 16 → hexDigit n ≠ 0 := by decide
  unfold writeByte
  split
  all_goals first | decide | skip
  split
  · have hc : c.toNat < 256 := c.toNat_lt
    exact NulFree.append (by decide)
      (.cons (hhex _ (by omega)) (.cons (hhex _ (by omega)) List.not_mem_nil))
  · rename_i hc
    refine .cons ?_ List.not_mem_nil
    rintro rfl
    exact hc (by decide)

/-- A string is written without zero bytes, as they are escaped. -/
theorem nulFree_writeString (s : Bytes) : NulFree (writeString s) := by
  have hbytes : NulFree (s.flatMap writeByte) := by
    intro h
    obtain ⟨c, -, hc⟩ := List.mem_flatMap.mp h
    exact nulFree_writeByte c hc
  exact .cons (by decide) (hbytes.append (by decide))

mutual

/-- **The printed text is a C string.** No value is printed with a zero byte.

**Proof sketch.** Induction on the value, together with lists of elements and of members. -/
theorem nulFree_write (hdtoa : ∀ bits, NulFree (dtoa bits)) : ∀ v, NulFree (write dtoa v)
  | .null => by
    show NulFree (bytes "null")
    decide
  | .bool b => by
    show NulFree (if b then bytes "true" else bytes "false")
    cases b <;> decide
  | .int i => nulFree_decimal i
  | .double bits => hdtoa bits
  | .string s => nulFree_writeString s
  | .array [] => by
    show NulFree (bytes "[]")
    decide
  | .array (v :: vs) => by
    have hv := nulFree_write hdtoa v
    have hvs := nulFree_writeElems hdtoa vs
    exact .append (.append (.cons (by decide) hv) hvs) (by decide)
  | .object [] => by
    show NulFree [123, 125]
    decide
  | .object ((name, v) :: ms) => by
    have hname := nulFree_writeString name
    have hv := nulFree_write hdtoa v
    have hms := nulFree_writeMembers hdtoa ms
    exact .append (.append (.append (.cons (by decide) hname) (.cons (by decide) hv)) hms)
      (by decide)

/-- Elements are written without zero bytes, as their values are. -/
theorem nulFree_writeElems (hdtoa : ∀ bits, NulFree (dtoa bits)) :
    ∀ vs, NulFree (writeElems dtoa vs)
  | [] => List.not_mem_nil
  | v :: vs => by
    have hv := nulFree_write hdtoa v
    have hvs := nulFree_writeElems hdtoa vs
    exact .append (.cons (by decide) hv) hvs

/-- Members are written without zero bytes, as their names and values are. -/
theorem nulFree_writeMembers (hdtoa : ∀ bits, NulFree (dtoa bits)) :
    ∀ ms, NulFree (writeMembers dtoa ms)
  | [] => List.not_mem_nil
  | (name, v) :: ms => by
    have hname := nulFree_writeString name
    have hv := nulFree_write hdtoa v
    have hms := nulFree_writeMembers hdtoa ms
    exact .append (.append (.cons (by decide) hname) (.cons (by decide) hv)) hms

end

end Write

end Rapidjson
