import Nuacom.Support.CString

set_option relaxedAutoImplicit false
set_option autoImplicit false

/-!
# Structures in memory

Natural layout places each field of a structure at the next multiple of its alignment and rounds
the size of the structure up to its largest alignment. A piece of memory is a function from
offsets to bytes, and a program that fills one is described by the writes it makes, so that what
it writes and where are both on record.

## Main definitions

* `CMemory.leBytes`, `CMemory.ofLeBytes` — unsigned numbers as the bytes of memory, lowest first.
* `CMemory.CType`, `CMemory.offsetOf`, `CMemory.structSize` — natural layout.
* `CMemory.Memory`, with `read` and `write` — memory by offsets.
* `CMemory.Write`, `CMemory.storeAll` — the writes of a program, and the memory after them.
* `CMemory.reach` — where the writes of a program end.
* `CMemory.wideBytes`, `CMemory.Memory.readWide` — strings of 16-bit units in memory.
* `CMemory.stringTable` — strings one behind the other, in room that is counted beforehand.

## Main results

* `CMemory.ofLeBytes_leBytes` — a number is read back up to the width it was stored in.
* `CMemory.read_storeAll`, `CMemory.read_storeAll_of_beside` — reading a write back that no later
  one covers, and reading what no write covers.
* `CMemory.forall_inside_iff` — what memory holds all the writes of a program.
* `CMemory.Memory.readWide_of_read` — a string of units is read back.
* `CMemory.readWide_stringTable`, `CMemory.reach_stringTable_cons` — what is read back from a table
  of strings, and where it ends.
-/

namespace CMemory

open CString

/-! ## Numbers in memory -/

/-- The `n` lowest bytes of a number, lowest first. -/
def leBytes : ℕ → ℕ → Bytes
  | 0, _ => []
  | n + 1, x => UInt8.ofNat (x % 256) :: leBytes n (x / 256)

/-- The number whose bytes these are, lowest first. -/
def ofLeBytes : Bytes → ℕ
  | [] => 0
  | b :: bs => b.toNat + 256 * ofLeBytes bs

/-- A number has as many bytes as asked for. -/
@[simp] theorem length_leBytes (n x : ℕ) : (leBytes n x).length = n := by
  induction n generalizing x with
  | zero => rfl
  | succ n ih => simp [leBytes, ih]

/-- A number is read back up to the width it was stored in.

**Proof sketch.** Induction on the width; the lowest byte and the others are the remainder and the
quotient by 256. -/
theorem ofLeBytes_leBytes (n x : ℕ) : ofLeBytes (leBytes n x) = x % 256 ^ n := by
  induction n generalizing x with
  | zero => simp [leBytes, ofLeBytes, Nat.mod_one]
  | succ n ih =>
    have hbyte : (UInt8.ofNat (x % 256)).toNat = x % 256 := by
      rw [UInt8.toNat_ofNat']
      omega
    rw [leBytes, ofLeBytes, ih, hbyte, Nat.pow_succ', Nat.mod_mul]

/-! ## Natural layout -/

/-- What natural layout needs to know of the type of a field. -/
structure CType where
  size : ℕ
  align : ℕ
  deriving DecidableEq, Repr

/-- The next multiple of an alignment. -/
def alignUp (x a : ℕ) : ℕ := (x + a - 1) / a * a

/-- Where the last of some fields ends, when the first one may start at `start`. -/
def fieldsEnd : List CType → ℕ → ℕ
  | [], start => start
  | t :: ts, start => fieldsEnd ts (alignUp start t.align + t.size)

/-- `offsetof`: where the field `t` starts that comes behind the fields `before`. -/
def offsetOf (before : List CType) (t : CType) : ℕ := alignUp (fieldsEnd before 0) t.align

/-- The largest alignment of some fields. -/
def maxAlign (fields : List CType) : ℕ := fields.foldl (fun a t => max a t.align) 1

/-- `sizeof` -/
def structSize (fields : List CType) : ℕ := alignUp (fieldsEnd fields 0) (maxAlign fields)

/-! ## Memory -/

/-- A piece of memory, by offsets from its start. -/
abbrev Memory := ℕ → UInt8

namespace Memory

/-- Store `bs` at the offset `p`. -/
def write (m : Memory) (p : ℕ) (bs : Bytes) : Memory :=
  fun i => if p ≤ i then (bs[i - p]?).getD (m i) else m i

/-- The `n` bytes at the offset `p`. -/
def read (m : Memory) (p n : ℕ) : Bytes := (List.range n).map fun i => m (p + i)

/-- A read returns as many bytes as asked for. -/
@[simp] theorem length_read (m : Memory) (p n : ℕ) : (m.read p n).length = n := by
  simp [read]

/-- A write leaves what is in front of it -/
theorem write_of_lt (m : Memory) {p i : ℕ} (bs : Bytes) (h : i < p) : m.write p bs i = m i := by
  simp [write, Nat.not_le.mpr h]

/-- and what is behind it. -/
theorem write_of_ge (m : Memory) {p i : ℕ} {bs : Bytes} (h : p + bs.length ≤ i) :
    m.write p bs i = m i := by
  have hnone : bs[i - p]? = none := List.getElem?_eq_none (by omega)
  simp [write, hnone]

/-- What was written is read back. -/
theorem read_write (m : Memory) (p : ℕ) (bs : Bytes) : (m.write p bs).read p bs.length = bs := by
  apply List.ext_getElem (by simp)
  intro i _ hi
  simp [read, write, hi]

end Memory

/-- One write of a program: the offset, and the bytes. -/
structure Write where
  offset : ℕ
  bytes : Bytes
  deriving DecidableEq, Repr

/-- The memory after some writes. -/
def storeAll (m : Memory) (ws : List Write) : Memory :=
  ws.foldl (fun m w => m.write w.offset w.bytes) m

/-- The write leaves the `n` bytes at the offset `p`. -/
def Write.Beside (p n : ℕ) (w : Write) : Prop := p + n ≤ w.offset ∨ w.offset + w.bytes.length ≤ p

/-- A byte that no write covers stays. -/
theorem storeAll_of_beside {m : Memory} {ws : List Write} {i : ℕ} (h : ∀ w ∈ ws, w.Beside i 1) :
    storeAll m ws i = m i := by
  induction ws generalizing m with
  | nil => rfl
  | cons w ws ih =>
    obtain ⟨hw, hws⟩ := List.forall_mem_cons.mp h
    show storeAll (m.write w.offset w.bytes) ws i = m i
    rw [ih hws]
    rcases hw with hlt | hge
    · exact m.write_of_lt _ (by omega)
    · exact m.write_of_ge hge

/-- Bytes that no write covers are read as they were. -/
theorem read_storeAll_of_beside {m : Memory} {ws : List Write} {p n : ℕ}
    (h : ∀ w ∈ ws, w.Beside p n) : (storeAll m ws).read p n = m.read p n := by
  apply List.map_congr_left
  intro i hi
  rw [List.mem_range] at hi
  apply storeAll_of_beside
  intro w hw
  have := h w hw
  unfold Write.Beside at this ⊢
  omega

/-- The `k`-th write is read back when no later one covers it.

**Proof sketch.** The list is split at the write. What is stored before it is overwritten by it, and
what is stored later is beside it. -/
theorem read_storeAll {m : Memory} {ws : List Write} {w : Write} (k : ℕ) (hk : ws[k]? = some w)
    (h : ∀ x ∈ ws.drop (k + 1), x.Beside w.offset w.bytes.length) :
    (storeAll m ws).read w.offset w.bytes.length = w.bytes := by
  obtain ⟨hlt, hget⟩ := List.getElem?_eq_some_iff.mp hk
  have hsplit : ws = ws.take k ++ w :: ws.drop (k + 1) := by
    rw [← hget, List.getElem_cons_drop, List.take_append_drop]
  calc (storeAll m ws).read w.offset w.bytes.length
      = (storeAll m (ws.take k ++ w :: ws.drop (k + 1))).read w.offset w.bytes.length := by
        rw [← hsplit]
    _ = (storeAll ((storeAll m (ws.take k)).write w.offset w.bytes) (ws.drop (k + 1))).read
          w.offset w.bytes.length := by
        unfold storeAll
        rw [List.foldl_append, List.foldl_cons]
    _ = ((storeAll m (ws.take k)).write w.offset w.bytes).read w.offset w.bytes.length :=
        read_storeAll_of_beside h
    _ = w.bytes := Memory.read_write ..

/-- A number that was written is read back up to its width. -/
theorem read_storeAll_leBytes {m : Memory} {ws : List Write} {p n x : ℕ} (k : ℕ)
    (hk : ws[k]? = some ⟨p, leBytes n x⟩) (h : ∀ y ∈ ws.drop (k + 1), y.Beside p n) :
    ofLeBytes ((storeAll m ws).read p n) = x % 256 ^ n := by
  have hlen : (leBytes n x).length = n := length_leBytes n x
  have hread : (storeAll m ws).read p (leBytes n x).length = leBytes n x :=
    read_storeAll k hk (by rw [hlen]; exact h)
  rw [hlen] at hread
  rw [hread, ofLeBytes_leBytes]

/-- The first `size` bytes of the memory hold every byte of the write. -/
def Write.Inside (size : ℕ) (w : Write) : Prop := ∀ i, i < w.bytes.length → w.offset + i < size

/-- A write of at least one byte is inside when it ends inside. -/
theorem Write.inside_iff {size : ℕ} {w : Write} (h : 0 < w.bytes.length) :
    w.Inside size ↔ w.offset + w.bytes.length ≤ size := by
  constructor
  · intro hin
    have := hin (w.bytes.length - 1) (by omega)
    omega
  · intro hle i hi
    omega

/-! ## Where the writes end -/

/-- The end of the write; a write of no bytes ends nowhere. -/
def Write.stop (w : Write) : ℕ := if w.bytes = [] then 0 else w.offset + w.bytes.length

/-- Where the last byte ends that the writes cover. -/
def reach (ws : List Write) : ℕ := (ws.map Write.stop).foldr max 0

/-- The writes are inside a piece of memory when it does not end before them. -/
theorem forall_inside_iff {size : ℕ} {ws : List Write} :
    (∀ w ∈ ws, w.Inside size) ↔ reach ws ≤ size := by
  have hstop : ∀ w : Write, w.Inside size ↔ w.stop ≤ size := by
    intro w
    unfold Write.stop
    split_ifs with hnil
    · simp [Write.Inside, hnil]
    · exact w.inside_iff (List.length_pos_iff.mpr hnil)
  induction ws with
  | nil => simp [reach]
  | cons w ws ih =>
    rw [List.forall_mem_cons]
    exact (and_congr (hstop w) ih).trans Nat.max_le.symm

/-! ## Strings of 16-bit units -/

/-- The bytes of a string of units. -/
def wideBytes (a : List UInt16) : Bytes := a.flatMap fun u => leBytes 2 u.toNat

/-- A character has two bytes. -/
@[simp] theorem length_wideBytes (a : List UInt16) : (wideBytes a).length = 2 * a.length := by
  induction a with
  | nil => rfl
  | cons u a ih =>
    show (leBytes 2 u.toNat ++ wideBytes a).length = _
    rw [List.length_append, length_leBytes, ih, List.length_cons]
    omega

/-- Writes in a row are made one after the other. -/
theorem storeAll_append (m : Memory) (ws xs : List Write) :
    storeAll m (ws ++ xs) = storeAll (storeAll m ws) xs := List.foldl_append

namespace Memory

/-- Neighbouring pieces of memory. -/
theorem read_add (m : Memory) (p k n : ℕ) : m.read p (k + n) = m.read p k ++ m.read (p + k) n := by
  simp [read, List.range_add, Nat.add_assoc]

/-- The `n` units at the offset `p`. -/
def readWide (m : Memory) (p : ℕ) : ℕ → List UInt16
  | 0 => []
  | n + 1 => UInt16.ofNat (ofLeBytes (m.read p 2)) :: m.readWide (p + 2) n

/-- A read returns as many characters as asked for. -/
@[simp] theorem length_readWide (m : Memory) (p n : ℕ) : (m.readWide p n).length = n := by
  induction n generalizing p with
  | zero => rfl
  | succ n ih => simp [readWide, ih]

/-- A read in two parts. -/
theorem readWide_add (m : Memory) (p k n : ℕ) :
    m.readWide p (k + n) = m.readWide p k ++ m.readWide (p + 2 * k) n := by
  induction k generalizing p with
  | zero => simp [readWide]
  | succ k ih =>
    rw [Nat.succ_add, readWide, readWide, ih, List.cons_append]
    congr 3
    omega

/-- A string of units is read back.

**Proof sketch.** Induction on the string; the first two bytes are the first unit. -/
theorem readWide_of_read {m : Memory} {p : ℕ} {a : List UInt16}
    (h : m.read p (2 * a.length) = wideBytes a) : m.readWide p a.length = a := by
  induction a generalizing p with
  | nil => rfl
  | cons u a ih =>
    rw [List.length_cons, show 2 * (a.length + 1) = 2 + 2 * a.length by omega, read_add] at h
    change _ = leBytes 2 u.toNat ++ wideBytes a at h
    obtain ⟨hunit, hrest⟩ := List.append_inj h (by simp)
    have hmod := Nat.mod_eq_of_lt u.toNat_lt
    rw [List.length_cons, readWide, hunit, ih hrest, ofLeBytes_leBytes]
    simp [hmod]

end Memory

/-! ## Tables of strings -/

/-- The writes that put strings one behind the other from the offset `p` on. A string comes with a
number of units: behind so many units stands its terminator, however long it is. There is no room
for a string that is missing. -/
def stringTable (p : ℕ) : List (Option (ℕ × List UInt16)) → List Write
  | [] => []
  | none :: rs => stringTable p rs
  | some (n, a) :: rs =>
    ⟨p, wideBytes a⟩ :: ⟨p + 2 * n, leBytes 2 0⟩ :: stringTable (p + 2 * n + 2) rs

/-- The room that a string takes. -/
def entrySpace (r : Option (ℕ × List UInt16)) : ℕ := (r.map fun e => 2 * e.1 + 2).getD 0

/-- The room that the strings of a table take. -/
def tableSpace (rs : List (Option (ℕ × List UInt16))) : ℕ := (rs.map entrySpace).foldr (· + ·) 0

/-- The strings of a longer table follow those of the shorter one. -/
theorem stringTable_append (p : ℕ) (rs xs : List (Option (ℕ × List UInt16))) :
    stringTable p (rs ++ xs) = stringTable p rs ++ stringTable (p + tableSpace rs) xs := by
  induction rs generalizing p with
  | nil => rfl
  | cons r rs ih =>
    cases r with
    | none =>
      have hspace : tableSpace (none :: rs) = tableSpace rs := Nat.zero_add _
      rw [List.cons_append, stringTable, stringTable, ih, hspace]
    | some e =>
      have hspace : tableSpace (some e :: rs) = 2 * e.1 + 2 + tableSpace rs := rfl
      rw [List.cons_append, stringTable, stringTable, ih, hspace]
      simp [Nat.add_assoc]

/-- Nothing is written in front of a table.

**Proof sketch.** Induction on the table. -/
theorem le_offset_of_mem_stringTable {p : ℕ} {rs : List (Option (ℕ × List UInt16))} {w : Write}
    (h : w ∈ stringTable p rs) : p ≤ w.offset := by
  induction rs generalizing p with
  | nil => simp [stringTable] at h
  | cons r rs ih =>
    cases r with
    | none => exact ih h
    | some e =>
      rcases List.mem_cons.mp h with rfl | h
      · exact Nat.le_refl _
      · rcases List.mem_cons.mp h with rfl | h
        · exact Nat.le_add_right ..
        · have := ih h
          omega

/-- What the first write wrote is read back when the others are beside it. -/
theorem read_storeAll_cons (m : Memory) {p : ℕ} {bs : Bytes} {xs : List Write}
    (h : ∀ x ∈ xs, x.Beside p bs.length) : (storeAll m (⟨p, bs⟩ :: xs)).read p bs.length = bs :=
  (read_storeAll_of_beside h).trans (Memory.read_write ..)

/-- A string and its terminator, behind which nothing is written: what is read back in the room of
the string.

**Proof sketch.** The string stands at the beginning, and the terminator at the end, of the room.
What lies between the two was not written with this string. -/
theorem readWide_entry {m : Memory} {p n : ℕ} {a : List UInt16} (h : a.length ≤ n) {xs : List Write}
    (hxs : ∀ w ∈ xs, p + 2 * n + 2 ≤ w.offset) :
    ∃ gap : List UInt16, gap.length = n - a.length ∧
      (storeAll m (⟨p, wideBytes a⟩ :: ⟨p + 2 * n, leBytes 2 0⟩ :: xs)).readWide p (n + 1) =
        a ++ gap ++ [0] := by
  have htext : (storeAll m (⟨p, wideBytes a⟩ :: ⟨p + 2 * n, leBytes 2 0⟩ :: xs)).read p
      (wideBytes a).length = wideBytes a := by
    refine read_storeAll_cons m fun x hx => .inl ?_
    rw [length_wideBytes]
    rcases List.mem_cons.mp hx with rfl | hx
    · show p + 2 * a.length ≤ p + 2 * n
      omega
    · have := hxs x hx
      show p + 2 * a.length ≤ x.offset
      omega
  have hzero : (storeAll m (⟨p, wideBytes a⟩ :: ⟨p + 2 * n, leBytes 2 0⟩ :: xs)).read (p + 2 * n)
      (2 * [(0 : UInt16)].length) = wideBytes [0] :=
    read_storeAll_cons (m.write p (wideBytes a)) fun x hx => .inl (hxs x hx)
  generalize storeAll m _ = m' at htext hzero ⊢
  obtain ⟨k, rfl⟩ : ∃ k, n = a.length + k := ⟨n - a.length, by omega⟩
  rw [length_wideBytes] at htext
  refine ⟨m'.readWide (p + 2 * a.length) k, by rw [Memory.length_readWide]; omega, ?_⟩
  rw [Memory.readWide_add, Memory.readWide_add, Memory.readWide_of_read htext]
  exact congrArg _ (Memory.readWide_of_read hzero)

/-- **Reading a table of strings.** Each string is read back in its room, up to what lies between
its end and its terminator.

**Proof sketch.** The strings in front of it are written before, and those behind it do not reach
into its room. -/
theorem readWide_stringTable (m : Memory) (p : ℕ) {n : ℕ} {a : List UInt16} (h : a.length ≤ n)
    (rs xs : List (Option (ℕ × List UInt16))) :
    ∃ gap : List UInt16, gap.length = n - a.length ∧
      (storeAll m (stringTable p (rs ++ some (n, a) :: xs))).readWide (p + tableSpace rs) (n + 1) =
        a ++ gap ++ [0] := by
  rw [stringTable_append, storeAll_append]
  exact readWide_entry h fun w hw => le_offset_of_mem_stringTable hw

/-- A string without room is read back as the empty one. -/
theorem readWide_stringTable_zero (m : Memory) (p : ℕ) (a : List UInt16)
    (rs xs : List (Option (ℕ × List UInt16))) :
    (storeAll m (stringTable p (rs ++ some (0, a) :: xs))).readWide (p + tableSpace rs) 1 =
      [0] := by
  rw [stringTable_append, storeAll_append]
  apply Memory.readWide_of_read (a := [0])
  exact read_storeAll_cons (Memory.write _ _ (wideBytes a)) fun w hw =>
    .inl (le_offset_of_mem_stringTable hw)

/-- The end of a table is that of its first string or that of the others.

**Proof sketch.** The first string has two writes, of its characters and of its terminator. -/
theorem reach_stringTable_cons (p : ℕ) (r : Option (ℕ × List UInt16))
    (rs : List (Option (ℕ × List UInt16))) :
    reach (stringTable p (r :: rs)) =
      max ((r.map fun e => p + max (2 * e.2.length) (2 * e.1 + 2)).getD 0)
        (reach (stringTable (p + entrySpace r) rs)) := by
  cases r with
  | none => exact (Nat.zero_max _).symm
  | some e =>
    show max (Write.stop _) (max (Write.stop _) (reach (stringTable (p + 2 * e.1 + 2) rs))) = _
    rw [← Nat.max_assoc]
    congr 1
    show max (if wideBytes e.2 = [] then 0 else p + (wideBytes e.2).length) (p + 2 * e.1 + 2) =
      p + max (2 * e.2.length) (2 * e.1 + 2)
    rw [length_wideBytes]
    split
    · rename_i hnil
      have hlen := congrArg List.length hnil
      rw [length_wideBytes, List.length_nil] at hlen
      omega
    · omega

end CMemory
