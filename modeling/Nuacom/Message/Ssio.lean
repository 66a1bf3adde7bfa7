import Nuacom.Support.CString
import Nuacom.Support.StdMap

set_option relaxedAutoImplicit false
set_option autoImplicit false

/-!
# Messages of the websocket

A message is a tree of values. Its nodes are held through pointers, which may be null, and the
members of an object are a `std::map`.

## Main definitions

* `Nuacom.Message`, `Nuacom.Flag` — messages, and the kinds of their nodes.
* `Nuacom.Message.Tree` — the messages without null pointers, whose objects have their members in
  the order of the names.
* `Nuacom.SsioMessage` — such a message.
-/

namespace Nuacom

open CString

/-- `ssio::message`; a pointer that is `none` is null. A double is kept as its bits. -/
inductive Message
  | integer (i : Int64)
  | double (bits : UInt64)
  | string (s : Bytes)
  | binary (b : Bytes)
  | array (elts : List (Option Message))
  | object (members : List (Bytes × Option Message))
  | boolean (b : Bool)
  | null

/-- `IMessageHolder::flag` -/
inductive Flag
  | integer
  | double
  | string
  | binary
  | array
  | object
  | boolean
  | null
  deriving DecidableEq, Repr

namespace Message

/-- `get_flag` -/
def getFlag : Message → Flag
  | integer _ => .integer
  | double _ => .double
  | string _ => .string
  | binary _ => .binary
  | array _ => .array
  | object _ => .object
  | boolean _ => .boolean
  | null => .null

/-- The members behind `get_map`; other kinds of messages have none. -/
def getMap : Message → List (Bytes × Option Message)
  | object members => members
  | _ => []

/-- A message without null pointers, whose objects are sorted by the names of their members, and
whose doubles are some of `doubles`. -/
inductive Tree (doubles : UInt64 → Prop) : Message → Prop
  | integer (i : Int64) : Tree doubles (.integer i)
  | double {bits : UInt64} (h : doubles bits) : Tree doubles (.double bits)
  | string (s : Bytes) : Tree doubles (.string s)
  | binary (b : Bytes) : Tree doubles (.binary b)
  | array {elts : List Message} (h : ∀ m ∈ elts, Tree doubles m) :
      Tree doubles (.array (elts.map some))
  | object {members : List (Bytes × Message)} (hs : StdMap.Sorted members)
      (h : ∀ e ∈ members, Tree doubles e.2) :
      Tree doubles (.object (members.map fun e => (e.1, some e.2)))
  | boolean (b : Bool) : Tree doubles (.boolean b)
  | null : Tree doubles .null

variable {doubles : UInt64 → Prop}

/-- The members of an object that is a tree. -/
theorem Tree.members {members : List (Bytes × Option Message)}
    (h : Tree doubles (.object members)) : StdMap.Sorted members ∧
      ∀ e ∈ members, ∃ m, e.2 = some m ∧ Tree doubles m := by
  cases h with
  | object hs h =>
    refine ⟨hs.map some, fun e he => ?_⟩
    obtain ⟨e', he', rfl⟩ := List.mem_map.mp he
    exact ⟨e'.2, rfl, h e' he'⟩

end Message

/-- A message as the websocket delivers it: a tree, with any doubles. -/
abbrev SsioMessage := { m : Message // m.Tree fun _ => True }

end Nuacom
