import Nuacom.Message.Callbacks
import Nuacom.Support.Rapidjson
import Mathlib.Data.List.Forall2

set_option relaxedAutoImplicit false
set_option autoImplicit false

/-!
# Handing a message over to the client

The service writes each message of the websocket as a JSON text and sends the text to the client,
which rebuilds the message from it. The library keeps the binary blobs of a message out of the
document, in a vector of buffers beside it. The service has no use for the vector after the text
is written, and the client passes an empty one.

## Main definitions

* `Nuacom.Message.toJson` — a message as JSON, with its blobs behind the buffers.
* `Nuacom.Ssio`, `Nuacom.Ssio.Documented` — the functions of the library, and what they do.
* `Nuacom.Ssio.socketIo` — such a library, with the placeholders of socket.io.
* `Nuacom.ConnectionContext.processMessage`, `Nuacom.TestRpc.sendString` — the two ends.
* `Nuacom.handOver` — one after the other.
* `Nuacom.Message.Plain` — the messages that are written without a placeholder.

## Main results

* `Nuacom.Message.Plain.toJson` — a plain message leaves the buffers as they are.
* `Nuacom.Ssio.Documented.fromJson_toJson_iff` — without buffers, exactly the plain messages are
  read back.
* `Nuacom.handOver_eq_iff` — exactly the plain messages survive the hand-over.

## Implementation notes

The library is not part of the repository: its functions are parameters. What they do is stated
for the messages without null pointers, doubles apart, and for the values these are written as.
-/

namespace Nuacom

open CString Rapidjson

/-! ## Messages as JSON -/

namespace Message

section ToJson

variable (placeholder : ℕ → Value)

mutual

/-- The JSON value of a message, and the buffers with the blobs of the message behind them. A blob
is written as the placeholder of its index among the buffers. -/
def toJson : Message → List Bytes → Value × List Bytes
  | .integer i, bufs => (.int i.toInt, bufs)
  | .double bits, bufs => (.double bits, bufs)
  | .string s, bufs => (.string s, bufs)
  | .binary b, bufs => (placeholder bufs.length, bufs ++ [b])
  | .array elts, bufs =>
    let (vs, bufs) := eltsToJson elts bufs
    (.array vs, bufs)
  | .object members, bufs =>
    let (vs, bufs) := membersToJson members bufs
    (.object vs, bufs)
  | .boolean b, bufs => (.bool b, bufs)
  | .null, bufs => (.null, bufs)

/-- The elements of an array one after the other. The null pointers, of which a tree has none, are
left out. -/
def eltsToJson : List (Option Message) → List Bytes → List Value × List Bytes
  | [], bufs => ([], bufs)
  | none :: elts, bufs => eltsToJson elts bufs
  | some m :: elts, bufs =>
    let (v, bufs) := toJson m bufs
    let (vs, bufs) := eltsToJson elts bufs
    (v :: vs, bufs)

/-- The members of an object in the order of their names. -/
def membersToJson : List (Bytes × Option Message) → List Bytes →
    List (Bytes × Value) × List Bytes
  | [], bufs => ([], bufs)
  | (_, none) :: members, bufs => membersToJson members bufs
  | (name, some m) :: members, bufs =>
    let (v, bufs) := toJson m bufs
    let (vs, bufs) := membersToJson members bufs
    ((name, v) :: vs, bufs)

end

/-- Each element is written with the buffers that the elements before it leave. -/
theorem forall₂_eltsToJson (elts : List Message) (bufs : List Bytes) :
    List.Forall₂ (fun m v => ∃ bufs, v = (m.toJson placeholder bufs).1) elts
      (eltsToJson placeholder (elts.map some) bufs).1 := by
  induction elts generalizing bufs with
  | nil => exact .nil
  | cons m elts ih => exact .cons ⟨bufs, rfl⟩ (ih _)

/-- Each member is written under its name. -/
theorem forall₂_membersToJson (members : List (Bytes × Message)) (bufs : List Bytes) :
    List.Forall₂ (fun e e' => e'.1 = e.1 ∧ ∃ bufs, e'.2 = (e.2.toJson placeholder bufs).1) members
      (membersToJson placeholder (members.map fun e => (e.1, some e.2)) bufs).1 := by
  induction members generalizing bufs with
  | nil => exact .nil
  | cons e members ih => exact .cons ⟨rfl, bufs, rfl⟩ (ih _)

end ToJson

end Message

/-! ## The library -/

/-- The functions of the library that the two ends use, and its placeholders. -/
structure Ssio where
  /-- The placeholder of the blob with an index. -/
  placeholder : ℕ → Value
  /-- The index that a placeholder holds; other values hold none. -/
  index : Value → Option ℕ
  /-- `accept_message`: the document, and the buffers afterwards. -/
  acceptMessage : Message → List Bytes → Value × List Bytes
  /-- `from_json` -/
  fromJson : Value → List Bytes → Option Message

/-- What the functions of the library do. -/
structure Ssio.Documented (S : Ssio) : Prop where
  index_placeholder : ∀ i, S.index (S.placeholder i) = some i
  accept : ∀ m : Message, m.Tree (fun _ => False) → ∀ bufs,
    S.acceptMessage m bufs = m.toJson S.placeholder bufs
  /-- A placeholder is resolved by its index. -/
  fromJson_index : ∀ v i bufs, S.index v = some i → S.fromJson v bufs = bufs[i]?.map .binary
  fromJson_int : ∀ (i : Int64) bufs, S.fromJson (.int i.toInt) bufs = some (.integer i)
  fromJson_string : ∀ s bufs, S.fromJson (.string s) bufs = some (.string s)
  fromJson_bool : ∀ b bufs, S.fromJson (.bool b) bufs = some (.boolean b)
  fromJson_null : ∀ bufs, S.fromJson .null bufs = some .null
  fromJson_array : ∀ vs bufs,
    S.fromJson (.array vs) bufs = some (.array (vs.map fun v => S.fromJson v bufs))
  fromJson_object : ∀ vs bufs, S.index (.object vs) = none → StdMap.Sorted vs →
    S.fromJson (.object vs) bufs = some (.object (vs.map fun e => (e.1, S.fromJson e.2 bufs)))

/-! ## The placeholders of socket.io -/

namespace Ssio

/-- `{"_placeholder": true, "num": i}`, which stands for the blob with the index `i`. -/
def blobPlaceholder (i : ℕ) : Value :=
  .object [(bytes "_placeholder", .bool true), (bytes "num", .int i)]

/-- The index in an object with the member `_placeholder`. -/
def blobIndex : Value → Option ℕ
  | .object members =>
    match Value.firstMember members (bytes "_placeholder"),
      Value.firstMember members (bytes "num") with
    | some (.bool true), some (.int i) => some i.toNat
    | _, _ => none
  | _ => none

mutual

/-- The message that a value is read as. -/
def readValue (bufs : List Bytes) : Value → Option Message
  | .null => some .null
  | .bool b => some (.boolean b)
  | .int i => some (.integer (Int64.ofInt i))
  | .double bits => some (.double bits)
  | .string s => some (.string s)
  | .array vs => some (.array (readElts bufs vs))
  | .object vs =>
    match blobIndex (.object vs) with
    | some i => bufs[i]?.map .binary
    | none => some (.object (readMembers bufs vs))

/-- The elements of an array. -/
def readElts (bufs : List Bytes) : List Value → List (Option Message)
  | [] => []
  | v :: vs => readValue bufs v :: readElts bufs vs

/-- The members of an object. -/
def readMembers (bufs : List Bytes) : List (Bytes × Value) → List (Bytes × Option Message)
  | [] => []
  | (name, v) :: vs => (name, readValue bufs v) :: readMembers bufs vs

end

/-- The library, with the placeholders of socket.io. -/
def socketIo : Ssio where
  placeholder := blobPlaceholder
  index := blobIndex
  acceptMessage := Message.toJson blobPlaceholder
  fromJson v bufs := readValue bufs v

/-- The elements of an array are read one by one. -/
theorem readElts_eq (bufs : List Bytes) (vs : List Value) :
    readElts bufs vs = vs.map (readValue bufs) := by
  induction vs with
  | nil => rfl
  | cons v vs ih => rw [readElts, ih, List.map_cons]

/-- The members of an object are read one by one, and keep their names. -/
theorem readMembers_eq (bufs : List Bytes) (vs : List (Bytes × Value)) :
    readMembers bufs vs = vs.map fun e => (e.1, readValue bufs e.2) := by
  induction vs with
  | nil => rfl
  | cons e vs ih => rw [readMembers, ih, List.map_cons]

/-- The sample library does what is documented of it. -/
theorem documented_socketIo : socketIo.Documented where
  index_placeholder _ := rfl
  accept _ _ _ := rfl
  fromJson_index v i bufs h := by
    cases v with
    | object vs =>
      have h : blobIndex (.object vs) = some i := h
      simp only [socketIo, readValue, h]
    | _ => cases h
  fromJson_int i bufs := by
    simp only [socketIo, readValue, Int64.ofInt_toInt]
  fromJson_string s bufs := by simp only [socketIo, readValue]
  fromJson_bool b bufs := by simp only [socketIo, readValue]
  fromJson_null bufs := by simp only [socketIo, readValue]
  fromJson_array vs bufs := by simp only [socketIo, readValue, readElts_eq]
  fromJson_object vs bufs h _ := by
    have h : blobIndex (.object vs) = none := h
    simp only [socketIo, readValue, h, readMembers_eq]

end Ssio

/-! ## Plain messages -/

/-- A message without a blob, and without an object that reads like the placeholder of one. -/
inductive Message.Plain (S : Ssio) : Message → Prop
  | integer (i : Int64) : Plain S (.integer i)
  | string (s : Bytes) : Plain S (.string s)
  | array {elts : List Message} (h : ∀ m ∈ elts, Plain S m) : Plain S (.array (elts.map some))
  | object {members : List (Bytes × Message)} (h : ∀ e ∈ members, Plain S e.2)
      (hindex : S.index (.object (members.map fun e =>
        (e.1, (e.2.toJson S.placeholder []).1))) = none) :
      Plain S (.object (members.map fun e => (e.1, some e.2)))
  | boolean (b : Bool) : Plain S (.boolean b)
  | null : Plain S .null

namespace Message

variable {S : Ssio}

/-- The elements of an array that leave the buffers as they are. -/
theorem eltsToJson_of_forall {elts : List Message}
    (h : ∀ m ∈ elts, ∀ bufs, m.toJson S.placeholder bufs = ((m.toJson S.placeholder []).1, bufs))
    (bufs : List Bytes) : eltsToJson S.placeholder (elts.map some) bufs =
      (elts.map fun m => (m.toJson S.placeholder []).1, bufs) := by
  induction elts generalizing bufs with
  | nil => rfl
  | cons m elts ih =>
    have hm := h m (List.mem_cons_self ..) bufs
    have helts := ih (fun m hm => h m (List.mem_cons_of_mem _ hm)) bufs
    simp only [List.map_cons, eltsToJson, hm, helts]

/-- The members of an object that leave the buffers as they are. -/
theorem membersToJson_of_forall {members : List (Bytes × Message)}
    (h : ∀ e ∈ members, ∀ bufs,
      e.2.toJson S.placeholder bufs = ((e.2.toJson S.placeholder []).1, bufs))
    (bufs : List Bytes) :
    membersToJson S.placeholder (members.map fun e => (e.1, some e.2)) bufs =
      (members.map fun e => (e.1, (e.2.toJson S.placeholder []).1), bufs) := by
  induction members generalizing bufs with
  | nil => rfl
  | cons e members ih =>
    have he := h e (List.mem_cons_self ..) bufs
    have hmembers := ih (fun e he => h e (List.mem_cons_of_mem _ he)) bufs
    simp only [List.map_cons, membersToJson, he, hmembers]

/-- **Plain messages use no buffers.** Each is written as the same value, whatever the buffers
are, and leaves them as they are.

**Proof sketch.** Induction on the message: what holds of the elements one by one holds of the
loop over them. -/
theorem Plain.toJson {m : Message} (h : m.Plain S) (bufs : List Bytes) :
    m.toJson S.placeholder bufs = ((m.toJson S.placeholder []).1, bufs) := by
  induction h generalizing bufs with
  | integer | string | boolean | null => simp only [Message.toJson]
  | array _ ih =>
    simp only [Message.toJson, eltsToJson_of_forall ih]
  | object _ _ ih =>
    simp only [Message.toJson, membersToJson_of_forall ih]

/-- The elements of a plain array are plain. -/
theorem plain_array_iff {elts : List Message} :
    (Message.array (elts.map some)).Plain S ↔ ∀ m ∈ elts, m.Plain S := by
  refine ⟨fun h => ?_, .array⟩
  generalize hm : Message.array (elts.map some) = m at h
  cases h with
  | array h =>
    obtain rfl := List.map_injective_iff.mpr (fun _ _ => Option.some.inj) (Message.array.inj hm)
    exact h
  | _ => exact absurd hm (by simp)

/-- The members of a plain object are plain.

**Proof sketch.** By cases on how the object is plain; the members are determined by the object. -/
theorem plain_object_iff {members : List (Bytes × Message)} :
    (Message.object (members.map fun e => (e.1, some e.2))).Plain S ↔
      (∀ e ∈ members, e.2.Plain S) ∧ S.index (.object (members.map fun e =>
        (e.1, (e.2.toJson S.placeholder []).1))) = none := by
  refine ⟨fun h => ?_, fun ⟨h, hindex⟩ => .object h hindex⟩
  generalize hm : Message.object (members.map fun e => (e.1, some e.2)) = m at h
  cases h with
  | object h hindex =>
    have hinj : Function.Injective fun e : Bytes × Message => (e.1, some e.2) := by
      rintro ⟨name, m⟩ ⟨name', m'⟩ he
      simpa using he
    obtain rfl := List.map_injective_iff.mpr hinj (Message.object.inj hm)
    exact ⟨h, hindex⟩
  | _ => exact absurd hm (by simp)

/-- A blob is not plain. -/
theorem not_plain_binary (b : Bytes) : ¬(Message.binary b).Plain S := by
  intro h
  cases h

end Message

/-! ## Reading back without buffers -/

/-- Two lists whose elements correspond have the same image exactly when corresponding elements
have. -/
theorem map_eq_map_iff_of_forall₂ {α β γ : Type*} {r : α → β → Prop} {p : α → Prop} {f : α → γ}
    {g : β → γ} {l : List α} {l' : List β} (h : List.Forall₂ r l l')
    (hp : ∀ a ∈ l, ∀ b, r a b → (g b = f a ↔ p a)) : l'.map g = l.map f ↔ ∀ a ∈ l, p a := by
  induction h with
  | nil => simp
  | cons hr _ ih =>
    have hhead := hp _ (List.mem_cons_self ..) _ hr
    have htail := ih fun a ha => hp a (List.mem_cons_of_mem _ ha)
    simp only [List.map_cons, List.cons.injEq, hhead, htail, List.forall_mem_cons]

namespace Ssio.Documented

variable {S : Ssio}

/-- An object without the form of a placeholder is read member by member, and one with it is not
read at all. -/
theorem fromJson_object_eq_some_iff (hS : S.Documented) {vs : List (Bytes × Value)} {m : Message}
    (hs : StdMap.Sorted vs) : S.fromJson (.object vs) [] = some m ↔
      S.index (.object vs) = none ∧ .object (vs.map fun e => (e.1, S.fromJson e.2 [])) = m := by
  cases hindex : S.index (.object vs) with
  | none => simp [hS.fromJson_object vs [] hindex hs]
  | some i => simp [hS.fromJson_index _ i [] hindex]

/-- The members that are written have the names of the members of the object. -/
theorem sorted_membersToJson {members : List (Bytes × Message)} (h : StdMap.Sorted members)
    (bufs : List Bytes) : StdMap.Sorted (Message.membersToJson S.placeholder
      (members.map fun e => (e.1, some e.2)) bufs).1 := by
  have hforall := Message.forall₂_membersToJson S.placeholder members bufs
  have hkeys : (Message.membersToJson S.placeholder
      (members.map fun e => (e.1, some e.2)) bufs).1.map Prod.fst = members.map Prod.fst :=
    (map_eq_map_iff_of_forall₂ (p := fun _ => True) hforall
      fun _ _ _ he => iff_true_intro he.1).mpr fun _ _ => trivial
  exact h.of_keys hkeys

/-- **Without buffers, exactly the plain messages are read back.** This holds of the value that a
message is written as, whichever buffers there were when it was written.

**Proof sketch.** Induction on the message. The elements of an array are each written with the
buffers that the ones before it leave, so the induction is over all buffers. An object is read
member by member only when it is no placeholder; that its members are plain makes it the value
that `Plain` speaks of. -/
theorem fromJson_toJson_iff (hS : S.Documented) {m : Message} (hm : m.Tree fun _ => False)
    (bufs : List Bytes) :
    S.fromJson (m.toJson S.placeholder bufs).1 [] = some m ↔ m.Plain S := by
  induction hm generalizing bufs with
  | integer i => exact iff_of_true (hS.fromJson_int i []) (.integer i)
  | double h => exact h.elim
  | string s => exact iff_of_true (hS.fromJson_string s []) (.string s)
  | boolean b => exact iff_of_true (hS.fromJson_bool b []) (.boolean b)
  | null => exact iff_of_true (hS.fromJson_null []) .null
  | binary b =>
    refine iff_of_false ?_ (Message.not_plain_binary b)
    have hindex := hS.index_placeholder bufs.length
    simp [Message.toJson, hS.fromJson_index _ _ [] hindex]
  | @array elts _ ih =>
    have hforall := Message.forall₂_eltsToJson S.placeholder elts bufs
    simp only [Message.toJson, hS.fromJson_array, Option.some.injEq, Message.array.injEq]
    rw [Message.plain_array_iff, map_eq_map_iff_of_forall₂ hforall]
    rintro m hm _ ⟨bufs, rfl⟩
    exact ih m hm bufs
  | @object members hs _ ih =>
    have hforall := Message.forall₂_membersToJson S.placeholder members bufs
    have hmembers : (Message.membersToJson S.placeholder
        (members.map fun e => (e.1, some e.2)) bufs).1.map
          (fun e => (e.1, S.fromJson e.2 [])) = members.map (fun e => (e.1, some e.2)) ↔
        ∀ e ∈ members, e.2.Plain S := by
      refine map_eq_map_iff_of_forall₂ hforall ?_
      rintro e he e' ⟨hname, bufs, hvalue⟩
      simp only [Prod.mk.injEq, hname, true_and, hvalue]
      exact ih e he bufs
    simp only [Message.toJson]
    rw [hS.fromJson_object_eq_some_iff (sorted_membersToJson hs bufs), Message.object.injEq,
      hmembers, Message.plain_object_iff, and_comm]
    refine and_congr_right fun hplain => ?_
    rw [Message.membersToJson_of_forall fun e he => (hplain e he).toJson]

end Ssio.Documented

/-! ## The two ends -/

section HandOver

variable (S : Ssio) (dtoa : UInt64 → Bytes) (P : Parser)

/-- `ConnectionContext::ProcessMessage`: the text that `SendString` is called with. The buffers are
dropped. -/
def ConnectionContext.processMessage (m : Message) : Bytes :=
  let (doc, _) := S.acceptMessage m []
  cStr (write dtoa doc)

/-- `SendString` of the client: the holder that is passed to the callbacks. The vector of buffers
is empty. -/
def TestRpc.sendString (msg : Bytes) : MessageHolder :=
  let doc := parse P .null (cStr msg)
  .new (S.fromJson doc [])

/-- A message from the service to the callbacks of the client. -/
def handOver (m : Message) : MessageHolder :=
  TestRpc.sendString S P (ConnectionContext.processMessage S dtoa m)

variable {S dtoa P}

/-- The text arrives whole and is parsed to the document it was written from. -/
theorem handOver_m (hdtoa : ∀ bits, NulFree (dtoa bits)) {m : Message}
    (hP : P (write dtoa (S.acceptMessage m []).1) = some (S.acceptMessage m []).1) :
    (handOver S dtoa P m).m = S.fromJson (S.acceptMessage m []).1 [] := by
  have htext := nulFree_write hdtoa (S.acceptMessage m []).1
  simp only [handOver, TestRpc.sendString, ConnectionContext.processMessage,
    cStr_of_nulFree htext, parse, hP, Option.getD_some, MessageHolder.new]

/-- **Exactly the plain messages survive the hand-over.** Here `m` is any tree without doubles,
and the text that is written for it parses to the document it was written from.

**Proof sketch.** The client reads back the document of the message without buffers
(`handOver_m`), which returns the message exactly when it is plain. -/
theorem handOver_eq_iff (hS : S.Documented) (hdtoa : ∀ bits, NulFree (dtoa bits)) {m : Message}
    (hm : m.Tree fun _ => False)
    (hP : P (write dtoa (S.acceptMessage m []).1) = some (S.acceptMessage m []).1) :
    (handOver S dtoa P m).m = some m ↔ m.Plain S := by
  rw [handOver_m hdtoa hP, hS.accept m hm, hS.fromJson_toJson_iff hm]

end HandOver

/-- A parser that knows one text, the one of `doc`. -/
def parserOf (dtoa : UInt64 → Bytes) (doc : Value) : Parser :=
  fun text => if text = write dtoa doc then some doc else none

/-- A list of numbers, and a text. -/
def callMembers : List (Bytes × Message) :=
  [(bytes "call", .array ([.integer 7, .null].map some)),
    (bytes "state", .string (bytes "ringing"))]

/-- A call: an object without blobs. -/
def plainCall : Message := .object (callMembers.map fun e => (e.1, some e.2))

/-- A recording: an array with a name and a blob. -/
def recording : Message := .array [some (.string (bytes "voice")), some (.binary [1, 2, 3])]

/-- The members of the sample call are in the order of their names. -/
theorem sorted_callMembers : StdMap.Sorted callMembers := by
  refine .cons ?_ (List.pairwise_singleton ..)
  intro e he
  obtain rfl := List.mem_singleton.mp he
  decide

/-- A message without binary nodes is handed over as it is. -/
theorem handOver_plainCall :
    (handOver Ssio.socketIo (fun _ => []) (parserOf (fun _ => [])
      (Ssio.socketIo.acceptMessage plainCall []).1) plainCall).m = some plainCall := by
  have htree : plainCall.Tree fun _ => False := by
    refine .object sorted_callMembers (List.forall_mem_cons.mpr ⟨.array ?_, ?_⟩)
    · exact List.forall_mem_cons.mpr ⟨.integer 7, List.forall_mem_singleton.mpr .null⟩
    · exact List.forall_mem_singleton.mpr (.string _)
  have hplain : plainCall.Plain Ssio.socketIo := by
    refine Message.plain_object_iff.mpr ⟨List.forall_mem_cons.mpr ⟨.array ?_, ?_⟩, rfl⟩
    · exact List.forall_mem_cons.mpr ⟨.integer 7, List.forall_mem_singleton.mpr .null⟩
    · exact List.forall_mem_singleton.mpr (.string _)
  exact (handOver_eq_iff Ssio.documented_socketIo (fun _ => List.not_mem_nil) htree
    (if_pos rfl)).mpr hplain

/-- The blob of a recording does not arrive: the client's message has a null pointer for it. -/
theorem handOver_recording :
    (handOver Ssio.socketIo (fun _ => []) (parserOf (fun _ => [])
      (Ssio.socketIo.acceptMessage recording []).1) recording).m ≠ some recording := by
  have hread : (handOver Ssio.socketIo (fun _ => []) (parserOf (fun _ => [])
      (Ssio.socketIo.acceptMessage recording []).1) recording).m =
        some (.array [some (.string (bytes "voice")), none]) :=
    handOver_m (fun _ => List.not_mem_nil) (if_pos rfl)
  rw [hread]
  simp [recording]

end Nuacom
