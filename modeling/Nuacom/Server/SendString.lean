import Nuacom.Server.Callback
import Nuacom.Support.CMemory
import Mathlib.Data.Nat.Find

set_option relaxedAutoImplicit false
set_option autoImplicit false

/-!
# Sending a message to the provider

`SendString` puts a message behind two headers into one buffer, hands the buffer to the provider
with `lineDevSpecific`, waits for the reply to this request, and then frees the buffer and closes
the line.

## Main definitions

* `Nuacom.PtrWidth`, `Nuacom.RPCHeader.fields`, `Nuacom.StringData.fields` — the two builds, and the
  structures of `structs.h` in them.
* `Nuacom.fillBuffer` — the buffer, with every write made to it.
* `Nuacom.waitForReply` — `WaitForReply` over what `lineGetMessage` gives back.
* `Nuacom.sendString` — `SendString` as the list of what it does, in order.
* `Nuacom.WellFormedBuffer` — the buffer holds what it was filled with, and no more was written.
* `Nuacom.WaitsForReply` — the wait ends with an error or the reply to the request, and not before.

## Main results

* `Nuacom.sendBuffer_wellFormed_iff` — the buffer is well formed exactly when the callback fits a
  pointer and the total size fits 32 bits.
* `Nuacom.waitsForReply_iff` — the wait is for the right reply exactly when no message of another
  kind carries the request id in its first parameter before that.

## Implementation notes

The sequence of results of `lineGetMessage` may be finite or infinite: it is a function from
positions to results, and at a position without one the call does not return. `WaitForReply` is
run with a bound on its iterations; that it returns means that it does with some bound.
-/

namespace Nuacom

open CString CMemory

/-! ## The structures of `structs.h` -/

/-- The builds of the projects. -/
inductive PtrWidth
  | win32
  | x64
  deriving DecidableEq, Repr

/-- The size of a pointer. -/
def PtrWidth.bytes : PtrWidth → ℕ
  | .win32 => 4
  | .x64 => 8

/-- `DWORD` -/
def dword : CType := ⟨4, 4⟩

/-- `DWORD_PTR` -/
def dwordPtr (w : PtrWidth) : CType := ⟨w.bytes, w.bytes⟩

/-- `char`, and `char[1]` -/
def char : CType := ⟨1, 1⟩

/-- `SEND_STRING` -/
def sendStringCommand : ℕ := 2

namespace RPCHeader

/-- `dwTotalSize`, `dwNeededSize`, `dwUsedSize`, `dwCommand`, `dwDataSize` and `data`. -/
def fields : List CType := [dword, dword, dword, dword, dword, char]

def size : ℕ := structSize fields

def dwTotalSize : ℕ := offsetOf [] dword

def dwCommand : ℕ := offsetOf [dword, dword, dword] dword

def dwDataSize : ℕ := offsetOf [dword, dword, dword, dword] dword

def data : ℕ := offsetOf [dword, dword, dword, dword, dword] char

end RPCHeader

namespace StringData

variable (w : PtrWidth)

/-- `callback`, `dwDataSize` and `data`. -/
def fields : List CType := [dwordPtr w, dword, char]

def size : ℕ := structSize (fields w)

def callback : ℕ := offsetOf [] (dwordPtr w)

def dwDataSize : ℕ := offsetOf [dwordPtr w] dword

def data : ℕ := offsetOf [dwordPtr w, dword] char

end StringData

/-! ## The buffer -/

/-- Arithmetic in `size_t`. -/
def sizeT (w : PtrWidth) (x : ℕ) : ℕ := x % 2 ^ (8 * w.bytes)

/-- Conversion to `DWORD`. -/
def toDword (x : ℕ) : ℕ := x % 2 ^ 32

/-- The buffer of a request: its size, and the writes that fill it. -/
structure SendBuffer where
  dwTotalSize : ℕ
  writes : List Write

/-- The buffer that `SendString` allocates, and how it fills it. -/
def fillBuffer (w : PtrWidth) (hCallback : UInt64) (msg : Bytes) : SendBuffer :=
  let msgSize := sizeT w msg.length
  let dwTotalSize := toDword (sizeT w (RPCHeader.size + StringData.size w + msgSize))
  let dwDataSize := toDword msgSize
  let sd := RPCHeader.data
  { dwTotalSize := dwTotalSize
    writes := [
      ⟨0, List.replicate dwTotalSize 0⟩,
      ⟨RPCHeader.dwTotalSize, leBytes 4 dwTotalSize⟩,
      ⟨RPCHeader.dwCommand, leBytes 4 sendStringCommand⟩,
      ⟨RPCHeader.dwDataSize, leBytes 4 (toDword (sizeT w (StringData.size w + msgSize)))⟩,
      -- the `UINT64` is stored in a `DWORD_PTR`, which keeps its lowest bytes
      ⟨sd + StringData.callback w, leBytes w.bytes hCallback.toNat⟩,
      ⟨sd + StringData.dwDataSize w, leBytes 4 dwDataSize⟩,
      ⟨sd + StringData.data w, msg.take dwDataSize⟩] }

/-- Read a `DWORD`. -/
def readDword (m : Memory) (p : ℕ) : ℕ := ofLeBytes (m.read p 4)

/-- Every byte was written inside the buffer, and reading the memory `m` back through `structs.h`
gives the command, the callback, the length and the text of the message, a zero byte behind it
that is inside the buffer, and a size of the data that is inside the buffer too. -/
structure WellFormedBuffer (w : PtrWidth) (hCallback : UInt64) (msg : Bytes) (b : SendBuffer)
    (m : Memory) : Prop where
  inside : ∀ x ∈ b.writes, x.Inside b.dwTotalSize
  command : readDword m RPCHeader.dwCommand = sendStringCommand
  callback : ofLeBytes (m.read (RPCHeader.data + StringData.callback w) w.bytes) =
    hCallback.toNat
  length : readDword m (RPCHeader.data + StringData.dwDataSize w) = msg.length
  text : m.read (RPCHeader.data + StringData.data w) msg.length = msg
  terminated : RPCHeader.data + StringData.data w + msg.length < b.dwTotalSize ∧
    m (RPCHeader.data + StringData.data w + msg.length) = 0
  dataSize : RPCHeader.data + readDword m RPCHeader.dwDataSize ≤ b.dwTotalSize

/-! ## The buffer as numbers -/

/-- Pointers have four bytes or eight. -/
theorem PtrWidth.bytes_cases (w : PtrWidth) : w.bytes = 4 ∨ w.bytes = 8 := by
  cases w
  · exact .inl rfl
  · exact .inr rfl

/-- A callback and two words. -/
theorem StringData.size_eq (w : PtrWidth) : StringData.size w = w.bytes + 8 := by
  cases w <;> rfl

/-- The callback is the first field. -/
theorem StringData.callback_eq (w : PtrWidth) : StringData.callback w = 0 := by
  cases w <;> rfl

/-- The size follows the callback. -/
theorem StringData.dwDataSize_eq (w : PtrWidth) : StringData.dwDataSize w = w.bytes := by
  cases w <;> rfl

/-- The data follow the size. -/
theorem StringData.data_eq (w : PtrWidth) : StringData.data w = w.bytes + 4 := by
  cases w <;> rfl

/-- A length in `size_t` that is stored in a `DWORD` is kept up to 32 bits. -/
theorem toDword_sizeT (w : PtrWidth) (n : ℕ) : toDword (sizeT w n) = n % 2 ^ 32 := by
  cases w <;> simp only [toDword, sizeT, PtrWidth.bytes] <;> omega

/-- So is a sum of such lengths. -/
theorem toDword_sizeT_add (w : PtrWidth) (c n : ℕ) :
    toDword (sizeT w (c + sizeT w n)) = (c + n) % 2 ^ 32 := by
  rw [toDword_sizeT]
  cases w <;> simp only [sizeT, PtrWidth.bytes] <;> omega

section Buffer

variable (w : PtrWidth) (hCallback : UInt64) (msg : Bytes)

/-- The size of the buffer: both headers and the message, up to 32 bits. -/
theorem dwTotalSize_fillBuffer :
    (fillBuffer w hCallback msg).dwTotalSize = (w.bytes + 32 + msg.length) % 2 ^ 32 := by
  have h := toDword_sizeT_add w (RPCHeader.size + StringData.size w) msg.length
  have hsize : RPCHeader.size + StringData.size w = w.bytes + 32 := by
    rw [StringData.size_eq]
    show 24 + (w.bytes + 8) = _
    omega
  rw [← hsize]
  exact h

/-- The writes, at their offsets.

**Proof sketch.** The offsets and the sizes, in 32 bits, are added up. -/
theorem writes_fillBuffer : (fillBuffer w hCallback msg).writes =
    [⟨0, List.replicate ((w.bytes + 32 + msg.length) % 2 ^ 32) 0⟩,
      ⟨0, leBytes 4 ((w.bytes + 32 + msg.length) % 2 ^ 32)⟩,
      ⟨12, leBytes 4 sendStringCommand⟩,
      ⟨16, leBytes 4 ((w.bytes + 8 + msg.length) % 2 ^ 32)⟩,
      ⟨20, leBytes w.bytes hCallback.toNat⟩,
      ⟨w.bytes + 20, leBytes 4 (msg.length % 2 ^ 32)⟩,
      ⟨w.bytes + 24, msg.take (msg.length % 2 ^ 32)⟩] := by
  have htotal := dwTotalSize_fillBuffer w hCallback msg
  have hdata := toDword_sizeT_add w (StringData.size w) msg.length
  have hmsg := toDword_sizeT w msg.length
  have hsd : RPCHeader.data + StringData.dwDataSize w = w.bytes + 20 := by
    rw [StringData.dwDataSize_eq]
    exact Nat.add_comm 20 _
  have htext : RPCHeader.data + StringData.data w = w.bytes + 24 := by
    rw [StringData.data_eq]
    show 20 + (w.bytes + 4) = _
    omega
  simp only [fillBuffer] at htotal ⊢
  rw [htotal, hdata, hmsg, hsd, htext, StringData.size_eq, StringData.callback_eq]
  rfl

/-! ## Reading the buffer back -/

section Reads

variable (m : Memory)

/-- The memory behind the buffer's address once it is filled. -/
def filled : Memory := storeAll m (fillBuffer w hCallback msg).writes

/-- The command is where the provider reads it. -/
theorem read_command : readDword (filled w hCallback msg m) 12 = sendStringCommand := by
  have hk : (fillBuffer w hCallback msg).writes[2]? = some ⟨12, leBytes 4 sendStringCommand⟩ := by
    rw [writes_fillBuffer]
    rfl
  refine read_storeAll_leBytes 2 hk ?_
  rw [writes_fillBuffer]
  simp [Write.Beside]

/-- So is the size of the data. -/
theorem read_dataSize : readDword (filled w hCallback msg m) 16 =
    (w.bytes + 8 + msg.length) % 2 ^ 32 := by
  have hk : (fillBuffer w hCallback msg).writes[3]? =
      some ⟨16, leBytes 4 ((w.bytes + 8 + msg.length) % 2 ^ 32)⟩ := by
    rw [writes_fillBuffer]
    rfl
  have hread := read_storeAll_leBytes (m := m) 3 hk (by
    rw [writes_fillBuffer]
    simp [Write.Beside])
  exact hread.trans (Nat.mod_mod _ _)

/-- So is the callback, as far as a pointer of this width holds it. -/
theorem read_callback : ofLeBytes ((filled w hCallback msg m).read 20 w.bytes) =
    hCallback.toNat % 256 ^ w.bytes := by
  have hk : (fillBuffer w hCallback msg).writes[4]? =
      some ⟨20, leBytes w.bytes hCallback.toNat⟩ := by
    rw [writes_fillBuffer]
    rfl
  refine read_storeAll_leBytes 4 hk ?_
  rw [writes_fillBuffer]
  simp [Write.Beside]
  omega

/-- So is the size of the message. -/
theorem read_msgSize : readDword (filled w hCallback msg m) (w.bytes + 20) =
    msg.length % 2 ^ 32 := by
  have hk : (fillBuffer w hCallback msg).writes[5]? =
      some ⟨w.bytes + 20, leBytes 4 (msg.length % 2 ^ 32)⟩ := by
    rw [writes_fillBuffer]
    rfl
  have hread := read_storeAll_leBytes (m := m) 5 hk (by
    rw [writes_fillBuffer]
    simp [Write.Beside])
  exact hread.trans (Nat.mod_mod _ _)

/-- The text is read back when the length of the message fits 32 bits. -/
theorem read_text (h : msg.length < 2 ^ 32) :
    (filled w hCallback msg m).read (w.bytes + 24) msg.length = msg := by
  have htake : msg.take (msg.length % 2 ^ 32) = msg := by
    rw [Nat.mod_eq_of_lt h, List.take_length]
  have hk : (fillBuffer w hCallback msg).writes[6]? = some ⟨w.bytes + 24, msg⟩ := by
    rw [writes_fillBuffer, htake]
    rfl
  refine read_storeAll 6 hk ?_
  rw [writes_fillBuffer]
  simp

/-- The byte behind the text is the zero that the buffer was filled with first. -/
theorem zero_behind_text (h : w.bytes + 32 + msg.length < 2 ^ 32) :
    filled w hCallback msg m (w.bytes + 24 + msg.length) = 0 := by
  have hw := w.bytes_cases
  unfold filled
  rw [writes_fillBuffer, Nat.mod_eq_of_lt h]
  show storeAll (m.write 0 (List.replicate (w.bytes + 32 + msg.length) 0)) _ _ = 0
  rw [storeAll_of_beside]
  · simp [Memory.write]
  · simp [Write.Beside]
    omega

end Reads

/-! ## When the buffer is well formed -/

/-- The callback fits a pointer, and the size of the headers and the message fits 32 bits. -/
def BufferFits : Prop :=
  hCallback.toNat < 2 ^ (8 * w.bytes) ∧ RPCHeader.size + StringData.size w + msg.length < 2 ^ 32

instance : Decidable (BufferFits w hCallback msg) := inferInstanceAs (Decidable (_ ∧ _))

/-- The offsets of the structures in the buffer. -/
theorem offsets_buffer : RPCHeader.data + StringData.callback w = 20 ∧
    RPCHeader.data + StringData.dwDataSize w = w.bytes + 20 ∧
    RPCHeader.data + StringData.data w = w.bytes + 24 ∧
    RPCHeader.size + StringData.size w = w.bytes + 32 := by
  cases w <;> decide

/-- Every write is inside the buffer when no length is cut. -/
theorem inside_fillBuffer (h : w.bytes + 32 + msg.length < 2 ^ 32) :
    ∀ x ∈ (fillBuffer w hCallback msg).writes,
      x.Inside (fillBuffer w hCallback msg).dwTotalSize := by
  rw [dwTotalSize_fillBuffer, writes_fillBuffer, Nat.mod_eq_of_lt h]
  have hw := w.bytes_cases
  simp only [List.forall_mem_cons, List.not_mem_nil, false_implies, implies_true, and_true]
  refine ⟨?_, ?_, ?_, ?_, ?_, ?_, ?_⟩
  all_goals
    intro i hi
    simp only [List.length_replicate, length_leBytes, List.length_take] at hi ⊢
    omega

/-- The buffer is well formed exactly when the callback fits a pointer and the total size fits
32 bits, whatever the memory held before.

**Proof sketch.** When both fit, no length is cut, and every field is read back as it was written
last. A callback that does not fit is read back up to the width of a pointer. When the total size
does not fit, either the length of the message is read back up to 32 bits, or the size allocated
is smaller than the headers, and the text ends outside. -/
theorem fillBuffer_wellFormed_iff (m : Memory) :
    WellFormedBuffer w hCallback msg (fillBuffer w hCallback msg) (filled w hCallback msg m) ↔
      BufferFits w hCallback msg := by
  obtain ⟨hcb, hsize, htext, htotal⟩ := offsets_buffer w
  have hpow : 256 ^ w.bytes = 2 ^ (8 * w.bytes) := by rw [Nat.pow_mul]
  unfold BufferFits
  rw [htotal]
  constructor
  · intro h
    have hread := h.callback
    rw [hcb, read_callback, hpow] at hread
    have hlen := h.length
    rw [hsize, read_msgSize] at hlen
    have hmsg : msg.length < 2 ^ 32 := by omega
    refine ⟨by rw [← hread]; exact Nat.mod_lt _ (Nat.two_pow_pos _), ?_⟩
    by_contra hbig
    -- the size allocated is what is above 32 bits, which is less than the headers
    have hlast := h.inside ⟨w.bytes + 24, msg⟩ (by
      rw [writes_fillBuffer, Nat.mod_eq_of_lt hmsg, List.take_length]
      simp)
    have hw := w.bytes_cases
    have hend :=
      (Write.inside_iff (w := ⟨w.bytes + 24, msg⟩) (show 0 < msg.length by omega)).mp hlast
    rw [dwTotalSize_fillBuffer] at hend
    simp only at hend
    omega
  · intro h
    obtain ⟨hcallback, hfits⟩ := h
    have hmsg : msg.length < 2 ^ 32 := by omega
    constructor
    · exact inside_fillBuffer w hCallback msg hfits
    · exact read_command w hCallback msg m
    · rw [hcb, read_callback, hpow, Nat.mod_eq_of_lt hcallback]
    · rw [hsize, read_msgSize, Nat.mod_eq_of_lt hmsg]
    · rw [htext, read_text w hCallback msg m hmsg]
    · rw [htext, dwTotalSize_fillBuffer, Nat.mod_eq_of_lt hfits]
      exact ⟨by omega, zero_behind_text w hCallback msg m hfits⟩
    · show 20 + readDword _ 16 ≤ _
      rw [read_dataSize, dwTotalSize_fillBuffer, Nat.mod_eq_of_lt hfits,
        Nat.mod_eq_of_lt (show w.bytes + 8 + msg.length < 2 ^ 32 by omega)]
      omega

end Buffer

/-! ## `WaitForReply` -/

/-- `LINE_REPLY` -/
def lineReply : UInt32 := 12

/-- A `LINEMESSAGE`: what kind of event it is, and its first parameter, which means something else
for each kind. -/
structure LineMessage where
  dwMessageID : UInt32
  dwParam1 : ℕ
  deriving DecidableEq, Repr

/-- What `lineGetMessage` gives back: its return value, negative for an error, and the message. -/
structure LineResult where
  n : ℤ
  msg : LineMessage
  deriving DecidableEq, Repr

/-- `WaitForReply` from position `i` of the results on: the results it has consumed, and whether it
has returned. The request id is positive, so that its conversion to `DWORD_PTR` keeps it. -/
def waitForReply (requestId : ℤ) (messages : ℕ → Option LineResult) :
    ℕ → ℕ → List LineResult × Bool
  | 0, _ => ([], false)
  | fuel + 1, i =>
    match messages i with
    | none => ([], false)
    | some r =>
      if r.n < 0 then ([r], true)
      else if r.msg.dwParam1 = requestId then ([r], true)
      else
        let rest := waitForReply requestId messages fuel (i + 1)
        (r :: rest.1, rest.2)

namespace LineResult

variable (requestId : ℤ) (r : LineResult)

/-- An error, or the reply to the request. -/
def EndsWait : Prop := r.n < 0 ∨ (r.msg.dwMessageID = lineReply ∧ r.msg.dwParam1 = requestId)

/-- The loop of `WaitForReply` is left. -/
def Breaks : Prop := r.n < 0 ∨ r.msg.dwParam1 = requestId

/-- A message that ends the wait is one that breaks the loop. -/
theorem EndsWait.breaks {requestId : ℤ} {r : LineResult} (h : r.EndsWait requestId) :
    r.Breaks requestId := h.imp_right And.right

end LineResult

/-! ## `SendString` -/

/-- A call of `SendString`, with what the system answers to it. -/
structure SendCall where
  width : PtrWidth
  context : ConnectionContext
  msg : Bytes
  /-- The return value of `lineOpen`. -/
  lineOpen : ℤ
  /-- `malloc` does not return `NULL`. -/
  malloc : Bool
  /-- The return value of `lineDevSpecific`. -/
  lineDevSpecific : ℤ
  /-- What `lineGetMessage` gives back, one after another. -/
  messages : ℕ → Option LineResult

/-- What `SendString` does to the telephony API and to the heap. -/
inductive SendAction
  | lineOpen (appHandle : Option AppHandle) (providerId apiVersion : UInt32)
  | malloc (dwTotalSize : ℕ)
  | lineDevSpecific (buffer : SendBuffer)
  | lineGetMessage (result : LineResult)
  | free
  | lineClose

/-- The buffer of a call. -/
def SendCall.buffer (c : SendCall) : SendBuffer := fillBuffer c.width c.context.hCallback c.msg

/-- `SendString`, up to a number of iterations of `WaitForReply`. -/
def sendString (c : SendCall) (fuel : ℕ) : List SendAction :=
  .lineOpen c.context.appHandle c.context.providerId c.context.apiVersion ::
  if c.lineOpen ≠ 0 then [] else
  .malloc c.buffer.dwTotalSize ::
  if !c.malloc then [] else
  .lineDevSpecific c.buffer ::
  if 0 < c.lineDevSpecific then
    let wait := waitForReply c.lineDevSpecific c.messages fuel 0
    wait.1.map .lineGetMessage ++ if wait.2 then [.free, .lineClose] else []
  else [.free, .lineClose]

/-- The buffer that `lineDevSpecific` gets is the one that was filled. -/
theorem buffer_of_mem_sendString {c : SendCall} {fuel : ℕ} {b : SendBuffer}
    (h : SendAction.lineDevSpecific b ∈ sendString c fuel) : b = c.buffer := by
  simp only [sendString, List.mem_cons] at h
  split_ifs at h <;> simp_all

/-- **The request buffer.** In both builds, for every callback, every message and every content
of the memory allocated, whenever `SendString` reaches `lineDevSpecific` the buffer it hands over
is well formed exactly when the callback fits a pointer and the total size fits 32 bits. -/
theorem sendBuffer_wellFormed_iff (c : SendCall) (fuel : ℕ) (b : SendBuffer) (m : Memory)
    (h : SendAction.lineDevSpecific b ∈ sendString c fuel) :
    WellFormedBuffer c.width c.context.hCallback c.msg b (storeAll m b.writes) ↔
      BufferFits c.width c.context.hCallback c.msg := by
  rw [buffer_of_mem_sendString h]
  exact fillBuffer_wellFormed_iff _ _ _ m

/-- A call in which every step succeeds, and whose request has the id 1. -/
def openSend (w : PtrWidth) (hCallback : UInt64) (msg : Bytes)
    (messages : ℕ → Option LineResult) : SendCall where
  width := w
  context := { ConnectionContext.create (some tapiCurrentVersion) 1 with hCallback := hCallback }
  msg := msg
  lineOpen := 0
  malloc := true
  lineDevSpecific := 1
  messages := messages

/-- The sample run passes its buffer to the line. -/
theorem mem_sendString_openSend (w : PtrWidth) (hCallback : UInt64) (msg : Bytes)
    (messages : ℕ → Option LineResult) (fuel : ℕ) :
    SendAction.lineDevSpecific (fillBuffer w hCallback msg) ∈
      sendString (openSend w hCallback msg messages) fuel := by
  simp [sendString, openSend, SendCall.buffer]

/-- In the 64-bit build the buffer of a short message is well formed, in memory that `malloc` has
filled with `CD`. -/
theorem sendBuffer_wellFormed_x64 :
    WellFormedBuffer .x64 0x7ff612340000 (bytes "[]") (fillBuffer .x64 0x7ff612340000 (bytes "[]"))
      (storeAll (fun _ => 205) (fillBuffer .x64 0x7ff612340000 (bytes "[]")).writes) :=
  (sendBuffer_wellFormed_iff (openSend .x64 0x7ff612340000 (bytes "[]") fun _ => none) 0 _ _
    (mem_sendString_openSend ..)).mpr (by decide)

/-- A 64-bit client gives its callback to the 32-bit service: the upper half is lost.

**Proof sketch.** The callback that is read back has the lower half only. -/
theorem sendBuffer_loses_callback :
    ∃ b, SendAction.lineDevSpecific b ∈
        sendString (openSend .win32 0x7ff612340000 (bytes "[]") fun _ => none) 0 ∧
      ofLeBytes ((storeAll (fun _ => 205) b.writes).read 20 4) = 0x12340000 ∧
      ¬ WellFormedBuffer .win32 0x7ff612340000 (bytes "[]") b
        (storeAll (fun _ => 205) b.writes) := by
  refine ⟨_, mem_sendString_openSend .., read_callback .win32 _ _ _, fun h => ?_⟩
  have hcallback := h.callback
  rw [show RPCHeader.data + StringData.callback .win32 = 20 from rfl] at hcallback
  have hread := read_callback .win32 0x7ff612340000 (bytes "[]") fun _ => 205
  unfold filled at hread
  rw [hread] at hcallback
  revert hcallback
  decide

/-! ## Waiting for the right reply -/

/-- The results consumed are those up to the first one that is an error or the reply to the
request. -/
structure ExactPrefix (requestId : ℤ) (messages : ℕ → Option LineResult)
    (results : List LineResult) : Prop where
  consumed : ∀ j, j < results.length → messages j = results[j]?
  ends : ∃ before r, results = before ++ [r] ∧ r.EndsWait requestId ∧
    ∀ q ∈ before, ¬ q.EndsWait requestId

/-- Whenever `WaitForReply` returns it has consumed exactly the results up to the first error or
reply to the request; and `SendString` frees the buffer and closes the line after such a result
only. -/
structure WaitsForReply (requestId : ℤ) (messages : ℕ → Option LineResult) : Prop where
  exact : ∀ fuel results, waitForReply requestId messages fuel 0 = (results, true) →
    ExactPrefix requestId messages results
  release : ∀ (c : SendCall) fuel, c.lineDevSpecific = requestId → c.messages = messages →
    ∀ before a after, sendString c fuel = before ++ a :: after →
      a = .free ∨ a = .lineClose →
      ∃ r, SendAction.lineGetMessage r ∈ before ∧ r.EndsWait requestId

/-- A message of another kind than `LINE_REPLY` whose first parameter is the request id comes
behind the error or the reply that ends the wait, or behind the end of the results. -/
def NoCollision (requestId : ℤ) (messages : ℕ → Option LineResult) : Prop :=
  ∀ i r, messages i = some r → 0 ≤ r.n → r.msg.dwMessageID ≠ lineReply →
    r.msg.dwParam1 = requestId →
    ∃ j, j < i ∧ ∀ q, messages j = some q → q.EndsWait requestId

section Wait

variable {requestId : ℤ} {messages : ℕ → Option LineResult}

/-- When `WaitForReply` returns, the last result it has consumed has left the loop, and it is the
first one that does.

**Proof sketch.** Induction on the bound; an iteration that goes on adds a result that does not
leave the loop in front of the others. -/
theorem waitForReply_returned : ∀ {fuel i : ℕ} {results : List LineResult},
    waitForReply requestId messages fuel i = (results, true) →
    (∀ j, j < results.length → messages (i + j) = results[j]?) ∧
    ∃ before r, results = before ++ [r] ∧ r.Breaks requestId ∧
      ∀ q ∈ before, ¬ q.Breaks requestId := by
  intro fuel
  induction fuel with
  | zero =>
    intro i results h
    simp [waitForReply] at h
  | succ fuel ih =>
    intro i results h
    simp only [waitForReply] at h
    cases hm : messages i with
    | none => simp [hm] at h
    | some r =>
      simp only [hm] at h
      by_cases hb : r.Breaks requestId
      · have hone : results = [r] := by
          rcases hb with hn | hp
          · simpa [hn] using h.symm
          · by_cases hn : r.n < 0
            · simpa [hn] using h.symm
            · simpa [hn, hp] using h.symm
        subst hone
        refine ⟨?_, [], r, rfl, hb, by simp⟩
        intro j hj
        obtain rfl : j = 0 := by simpa using hj
        exact hm
      · have hn : ¬ r.n < 0 := fun hn => hb (.inl hn)
        have hp : ¬ (r.msg.dwParam1 : ℤ) = requestId := fun hp => hb (.inr hp)
        rw [if_neg hn, if_neg hp] at h
        obtain ⟨rfl, hret⟩ := Prod.mk.inj h
        obtain ⟨hrest, before, q, hq, hqb, hbefore⟩ := ih (Prod.ext rfl hret)
        refine ⟨?_, r :: before, q, congrArg (List.cons r) hq, hqb,
          List.forall_mem_cons.mpr ⟨hb, hbefore⟩⟩
        intro j hj
        cases j with
        | zero => exact hm
        | succ j =>
          have := hrest j (by simpa using hj)
          rw [show i + (j + 1) = i + 1 + j by omega, this]
          rfl

/-- `WaitForReply` returns when a result leaves the loop and the ones before it are there and do
not.

**Proof sketch.** Induction on the number of results before it. -/
theorem waitForReply_returns : ∀ {k i : ℕ} {r : LineResult}, messages (i + k) = some r →
    r.Breaks requestId →
    (∀ j, j < k → ∃ q, messages (i + j) = some q ∧ ¬ q.Breaks requestId) →
    ∃ before, waitForReply requestId messages (k + 1) i = (before ++ [r], true) := by
  intro k
  induction k with
  | zero =>
    intro i r hr hb _
    refine ⟨[], ?_⟩
    simp only [waitForReply, Nat.add_zero] at hr ⊢
    rw [hr]
    rcases hb with hn | hp
    · simp [hn]
    · simp [hp]
  | succ k ih =>
    intro i r hr hb hbefore
    obtain ⟨q, hq, hqb⟩ := hbefore 0 (Nat.succ_pos k)
    have hn : ¬ q.n < 0 := fun hn => hqb (.inl hn)
    have hp : ¬ (q.msg.dwParam1 : ℤ) = requestId := fun hp => hqb (.inr hp)
    obtain ⟨before, hrest⟩ := ih (i := i + 1) (by rw [← hr]; congr 1; omega) hb (by
      intro j hj
      obtain ⟨q', hq', hqb'⟩ := hbefore (j + 1) (by omega)
      exact ⟨q', by rw [← hq']; congr 1; omega, hqb'⟩)
    refine ⟨q :: before, ?_⟩
    rw [waitForReply]
    simp only [Nat.add_zero] at hq
    simp only [hq, hn, hp, if_false, hrest]
    rfl

/-- Where there is no collision, a result that is consumed and leaves the loop ends the wait.

**Proof sketch.** Otherwise it is a message of another kind with the same number, and behind a
result that ends the wait; that one would have left the loop before. -/
theorem NoCollision.endsWait (h : NoCollision requestId messages) {results before : List LineResult}
    {r : LineResult} (hconsumed : ∀ j, j < results.length → messages j = results[j]?)
    (hresults : results = before ++ [r]) (hb : r.Breaks requestId)
    (hbefore : ∀ q ∈ before, ¬ q.Breaks requestId) : r.EndsWait requestId := by
  have hlast : messages before.length = some r := by
    rw [hconsumed _ (by simp [hresults]), hresults]
    simp
  by_contra hno
  have hn : 0 ≤ r.n := by
    by_contra hneg
    exact hno (.inl (by omega))
  have hp : (r.msg.dwParam1 : ℤ) = requestId := hb.resolve_left (by omega)
  have hid : r.msg.dwMessageID ≠ lineReply := fun hid => hno (.inr ⟨hid, hp⟩)
  obtain ⟨j, hj, hends⟩ := h _ r hlast hn hid hp
  have hmem : messages j = some before[j] := by
    rw [hconsumed j (by simp [hresults]; omega), hresults, List.getElem?_append_left hj]
    exact List.getElem?_eq_getElem hj
  exact hbefore _ (List.getElem_mem hj) (hends _ hmem).breaks

/-- Where there is no collision, `WaitForReply` consumes exactly what it should. -/
theorem NoCollision.exactPrefix (h : NoCollision requestId messages) {fuel : ℕ}
    {results : List LineResult} (hw : waitForReply requestId messages fuel 0 = (results, true)) :
    ExactPrefix requestId messages results := by
  obtain ⟨hconsumed, before, r, hresults, hb, hbefore⟩ := waitForReply_returned hw
  simp only [Nat.zero_add] at hconsumed
  refine ⟨hconsumed, before, r, hresults, h.endsWait hconsumed hresults hb hbefore, ?_⟩
  exact fun q hq hq' => hbefore q hq hq'.breaks

/-- What stands in front of a part without `a` stands in front of every `a`. -/
private theorem mem_before_of_append_eq {α : Type} {first rest before after : List α} {a : α}
    (h : first ++ rest = before ++ a :: after) (ha : a ∉ first) : ∀ x ∈ first, x ∈ before := by
  intro x hx
  rcases List.append_eq_append_iff.mp h with ⟨more, hbefore, -⟩ | ⟨more, hfirst, hrest⟩
  · rw [hbefore]
    exact List.mem_append_left _ hx
  · cases more with
    | nil =>
      rw [List.append_nil] at hfirst
      exact hfirst ▸ hx
    | cons y more =>
      obtain rfl : a = y := (List.cons.inj hrest).1
      exact absurd (by rw [hfirst]; simp) ha

/-- When `SendString` frees the buffer or closes the line after a request, `WaitForReply` has
returned, and what it has consumed comes before.

**Proof sketch.** The buffer is freed, and the line closed, behind the wait and only when it has
returned; what it has consumed stands before them. -/
theorem release_sendString {c : SendCall} {fuel : ℕ} (hpos : 0 < c.lineDevSpecific)
    {before after : List SendAction} {a : SendAction}
    (h : sendString c fuel = before ++ a :: after) (ha : a = .free ∨ a = .lineClose) :
    ∃ results, waitForReply c.lineDevSpecific c.messages fuel 0 = (results, true) ∧
      ∀ r ∈ results, SendAction.lineGetMessage r ∈ before := by
  have hmem : a ∈ sendString c fuel := by simp [h]
  set wait := waitForReply c.lineDevSpecific c.messages fuel 0 with hwait
  by_cases hopen : c.lineOpen = 0 ∧ c.malloc = true
  · have hsend : sendString c fuel =
        ([.lineOpen c.context.appHandle c.context.providerId c.context.apiVersion,
          .malloc c.buffer.dwTotalSize, .lineDevSpecific c.buffer] ++
            wait.1.map .lineGetMessage) ++ if wait.2 then [.free, .lineClose] else [] := by
      simp [sendString, hopen.1, hopen.2, hpos, hwait]
    have hfirst : a ∉ ([.lineOpen c.context.appHandle c.context.providerId c.context.apiVersion,
        .malloc c.buffer.dwTotalSize, .lineDevSpecific c.buffer] : List SendAction) ++
          wait.1.map .lineGetMessage := by
      rcases ha with rfl | rfl <;> simp
    cases hret : wait.2 with
    | false =>
      rw [hsend, hret] at hmem
      exact absurd (by simpa using hmem) hfirst
    | true =>
      refine ⟨wait.1, Prod.ext rfl hret, fun r hr => ?_⟩
      rw [hsend] at h
      apply mem_before_of_append_eq h hfirst
      exact List.mem_append_right _ (List.mem_map_of_mem hr)
  · have hshort : a ∉ sendString c fuel := by
      rcases not_and_or.mp hopen with hopen | hmalloc
      · rcases ha with rfl | rfl <;> simp [sendString, hopen]
      · rcases ha with rfl | rfl <;> by_cases hopen : c.lineOpen = 0 <;>
          simp [sendString, hopen, hmalloc]
    exact absurd hmem hshort

/-- **Waiting for the right reply.** For every request id and every finite or infinite sequence of
results of `lineGetMessage`: whenever `WaitForReply` returns it has consumed exactly the results
up to the first error or reply to the request, and `SendString` releases the buffer and the line
after such a result only, if and only if no message of another kind carries the request id in its
first parameter before that.

**Proof sketch.** `WaitForReply` returns with the first result that leaves its loop. Without a
collision that result ends the wait. If a message collides and no result before it ends the wait,
then the first result that leaves the loop is this message or another one that collides, and
`WaitForReply` returns with it. -/
theorem waitsForReply_iff (requestId : ℤ) (messages : ℕ → Option LineResult)
    (hpos : 0 < requestId) :
    WaitsForReply requestId messages ↔ NoCollision requestId messages := by
  constructor
  · intro h i r hr hn hid hp
    by_contra hcon
    push Not at hcon
    -- the first result that leaves the loop
    have hex : ∃ k q, messages k = some q ∧ q.Breaks requestId := ⟨i, r, hr, .inr hp⟩
    classical
    obtain ⟨q, hq, hqb⟩ := Nat.find_spec hex
    have hle : Nat.find hex ≤ i := Nat.find_min' hex ⟨r, hr, .inr hp⟩
    have hqno : ¬ q.EndsWait requestId := by
      rcases Nat.lt_or_eq_of_le hle with hlt | heq
      · obtain ⟨q', hq', hno⟩ := hcon _ hlt
        rw [hq] at hq'
        obtain rfl := Option.some.inj hq'
        exact hno
      · rw [heq, hr] at hq
        obtain rfl := Option.some.inj hq
        intro hends
        rcases hends with hneg | ⟨hid', -⟩
        · omega
        · exact hid hid'
    obtain ⟨before, hw⟩ := waitForReply_returns (i := 0) (by rw [Nat.zero_add]; exact hq) hqb (by
      intro j hj
      obtain ⟨q', hq', -⟩ := hcon j (by omega)
      rw [Nat.zero_add]
      exact ⟨q', hq', fun hb => Nat.find_min hex hj ⟨q', hq', hb⟩⟩)
    obtain ⟨before', r', hresults, hends, -⟩ := (h.exact _ _ hw).ends
    obtain ⟨-, hlast⟩ := List.append_inj' hresults rfl
    obtain rfl : q = r' := by simpa using hlast
    exact hqno hends
  · intro h
    refine ⟨fun fuel results hw => h.exactPrefix hw, ?_⟩
    rintro c fuel rfl rfl before a after hs ha
    obtain ⟨results, hw, hmem⟩ := release_sendString hpos hs ha
    obtain ⟨before', r, rfl, hends, -⟩ := (h.exactPrefix hw).ends
    exact ⟨r, hmem r (by simp), hends⟩

/-- A result of `lineGetMessage` that is a message. -/
def message (dwMessageID : UInt32) (dwParam1 : ℕ) : LineResult := ⟨0, dwMessageID, dwParam1⟩

/-- `LINE_CALLSTATE` -/
def lineCallState : UInt32 := 2

/-- Results of `lineGetMessage`, one after another. -/
def results (rs : List LineResult) (i : ℕ) : Option LineResult := rs[i]?

/-- An event of a call with another first parameter, and the reply. -/
theorem waitsForReply_after_callState :
    WaitsForReply 1 (results [message lineCallState 65536, message lineReply 1]) := by
  refine (waitsForReply_iff 1 _ (by decide)).mpr ?_
  intro i r hr _ hid hp
  match i with
  | 0 =>
    obtain rfl : message lineCallState 65536 = r := by simpa [results] using hr
    simp [message] at hp
  | 1 =>
    obtain rfl : message lineReply 1 = r := by simpa [results] using hr
    simp [message] at hid
  | i + 2 => simp [results] at hr

/-- An event of a call whose handle happens to be the request id ends the wait, and the buffer is
freed, before the reply is there. -/
theorem waitForReply_taken_in :
    waitForReply 1 (results [message lineCallState 1, message lineReply 1]) 2 0 =
      ([message lineCallState 1], true) ∧
    ¬ WaitsForReply 1 (results [message lineCallState 1, message lineReply 1]) := by
  have hw : waitForReply 1 (results [message lineCallState 1, message lineReply 1]) 2 0 =
      ([message lineCallState 1], true) := by decide
  refine ⟨hw, fun h => ?_⟩
  obtain ⟨before, r, hresults, hends, -⟩ := (h.exact _ _ hw).ends
  replace hresults : [] ++ [message lineCallState 1] = before ++ [r] := hresults
  obtain ⟨-, hlast⟩ := List.append_inj' hresults rfl
  obtain rfl : message lineCallState 1 = r := by simpa using hlast
  revert hends
  simp [LineResult.EndsWait, message, lineCallState, lineReply]

/-- A step of a callback that waits leaves the loop exactly when the result does. -/
theorem next_waitForReply (requestId : ℤ) (r : LineResult) (malloc : Bool) :
    Pc.next (.waitForReply requestId) ⟨r.n, malloc, r.msg.dwParam1⟩ = some .lineClose ↔
      r.Breaks requestId := by
  by_cases hn : r.n < 0
  · simp [Pc.next, LineResult.Breaks, hn]
  · by_cases hp : (r.msg.dwParam1 : ℤ) = requestId <;> simp [Pc.next, LineResult.Breaks, hn, hp]

end Wait

end Nuacom
