import Nuacom.Provider.LineCalls
import Nuacom.Support.CMemory

set_option relaxedAutoImplicit false
set_option autoImplicit false

/-!
# What the provider tells TAPI about a call

TAPI asks for a `LINECALLINFO`, and gives a buffer for it. `TSPI_lineGetCallInfo` says how large a
buffer it needs, and fills the buffer if it has that size: the structure, and behind it the numbers
and names of the caller and of the called party as strings.

## Main definitions

* `Nuacom.WideConvert` — the conversion of UTF-8 to 16-bit units.
* `Nuacom.LineCallInfo`, `Nuacom.CallParty` — the structure, as far as the provider sets it.
* `Nuacom.DrvLine.lineGetCallInfo` — the function, with every write that it makes behind the
  structure.
* `Nuacom.DrvLine.CallInfoInside` — no buffer that is large enough for the function is overrun.
* `Nuacom.DrvLine.CallInfoFits` — what is written is not longer than what was asked for.
* `Nuacom.DrvLine.ReportsCall` — the structure and the strings tell what the line knows.

## Main results

* `Nuacom.DrvLine.callInfoInside_iff` — no buffer is overrun exactly when this is so.
* `Nuacom.DrvLine.lineGetCallInfo_reports` — what TAPI reads then.
* `Nuacom.LineState.callInfoInside_run_iff` — no buffer can be overrun in a run exactly when none
  can with what the line keeps of each message.

## Implementation notes

The size of the fixed part of `LINECALLINFO` is a parameter. Offsets are from the start of the
structure. The debug build looks up two more keys when it fills in the number of the caller, which
is not modelled.
-/

namespace Nuacom

open CString CMemory Transition

/-! ## The conversion -/

/-- `wstring_convert<codecvt_utf8<wchar_t>>`: every unit takes a byte or more. -/
structure WideConvert where
  /-- `from_bytes`, with `none` for an exception. -/
  fromBytes : Bytes → Option (List UInt16)
  length_le : ∀ {s : Bytes} {a : List UInt16}, fromBytes s = some a → a.length ≤ s.length
  eq_nil : ∀ {s : Bytes}, fromBytes s = some [] → s = []

/-- Strings of ASCII characters; each is one unit. -/
def asciiConvert : WideConvert where
  fromBytes s := if s.all (· < 0x80) then some (s.map fun b => UInt16.ofNat b.toNat) else none
  length_le := by
    intro s a h
    split_ifs at h
    rw [← Option.some.inj h, List.length_map]
  eq_nil := by
    intro s h
    split_ifs at h
    exact List.map_eq_nil_iff.mp (Option.some.inj h)

/-! ## The structure -/

/-- `LINECALLPARTYID_NAME` -/
def lineCallPartyIdName : UInt32 := 0x4

/-- `LINECALLPARTYID_ADDRESS` -/
def lineCallPartyIdAddress : UInt32 := 0x8

/-- `LINECALLPARTYID_UNKNOWN` -/
def lineCallPartyIdUnknown : UInt32 := 0x20

/-- `LINECALLPARTYID_UNAVAIL` -/
def lineCallPartyIdUnavail : UInt32 := 0x40

/-- `LINECALLORIGIN_OUTBOUND` -/
def lineCallOriginOutbound : UInt32 := 0x1

/-- `LINECALLORIGIN_INBOUND` -/
def lineCallOriginInbound : UInt32 := 0x80

/-- The fields of `LINECALLINFO` about one party, such as `dwCallerIDFlags`. -/
structure CallParty where
  flags : UInt32
  size : UInt32
  offset : UInt32
  nameSize : UInt32
  nameOffset : UInt32
  deriving DecidableEq

/-- `LINECALLINFO` -/
structure LineCallInfo where
  dwTotalSize : UInt32
  dwNeededSize : UInt32
  dwUsedSize : UInt32
  dwBearerMode : UInt32
  dwMediaMode : UInt32
  dwCallStates : UInt32
  dwOrigin : UInt32
  dwReason : UInt32
  callerId : CallParty
  calledId : CallParty
  dwConnectedIDFlags : UInt32
  dwRedirectionIDFlags : UInt32
  dwRedirectingIDFlags : UInt32
  deriving DecidableEq

/-- `LINECALLSTATE_IDLE`, `DIALTONE`, `DIALING`, `CONNECTED`, `PROCEEDING`, `DISCONNECTED` and
`UNKNOWN`. -/
def callInfoStates : UInt32 := 0x1 ||| 0x8 ||| 0x10 ||| 0x100 ||| 0x200 ||| 0x4000 ||| 0x8000

/-- A party of which nothing is known. -/
def CallParty.orUnknown (p : CallParty) : CallParty :=
  if p.flags = 0 then { p with flags := lineCallPartyIdUnknown } else p

/-! ## Filling the structure -/

/-- The data behind the structure: where the next string goes, `dwUsedSize`, and the writes. -/
structure VariableData where
  ptr : ℕ
  dwUsedSize : UInt32
  writes : List Write

/-- `L"Test name #1"` -/
def testName : List UInt16 := [84, 101, 115, 116, 32, 110, 97, 109, 101, 32, 35, 49]

namespace DrvLine

/-- The size of the string under a key is added. -/
def addSize (msgData : MsgData) (idx : Bytes) (retVal : UInt32) : UInt32 :=
  match msgData.find? idx with
  | none => retVal
  | some s => retVal + UInt32.ofNat ((s.length + 1) * 2)

/-- `CalculateCallInfoSize`; `size` is `sizeof(LINECALLINFO)`. -/
def calculateCallInfoSize (line : DrvLine) (size : UInt32) : UInt32 × DrvLine :=
  let retVal := addSize line.msgData (bytes "call_caller_number") size
  let retVal := addSize line.msgData (bytes "call_caller_name") retVal
  let retVal := addSize line.msgData (bytes "call_callee_number") retVal
  let line := line.fillCalleeName
  (addSize line.msgData (bytes "call_callee_name") retVal, line)

end DrvLine

/-- The string `s` goes to `ptr`, as the units `a` and a zero behind as many units as `s` has
bytes. -/
def VariableData.put (d : VariableData) (s : Bytes) (a : List UInt16) : VariableData where
  ptr := d.ptr + s.length * 2 + 2
  dwUsedSize := d.dwUsedSize + UInt32.ofNat ((s.length + 1) * 2)
  writes := d.writes ++ [⟨d.ptr, wideBytes a⟩, ⟨d.ptr + s.length * 2, leBytes 2 0⟩]

section Fill

variable (conv : WideConvert) (msgData : MsgData) (idx : Bytes) (d : VariableData) (p : CallParty)

/-- The string under a key with its units, unless there is none or it cannot be converted. -/
def converted : Option (Bytes × List UInt16) :=
  (msgData.find? idx).bind fun s => (conv.fromBytes s).map fun a => (s, a)

/-- The number of a party. -/
def fillNumber : VariableData × CallParty :=
  match converted conv msgData idx with
  | none => (d, p)
  | some (s, a) => (d.put s a,
      { p with
        flags := p.flags ||| lineCallPartyIdAddress
        size := UInt32.ofNat ((s.length + 1) * 2)
        offset := UInt32.ofNat d.ptr })

/-- The name of a party; one that is empty is replaced, but not in the sizes. -/
def fillName : VariableData × CallParty :=
  match converted conv msgData idx with
  | none => (d, p)
  | some (s, a) => (d.put s (if a = [] then testName else a),
      { p with
        flags := p.flags ||| lineCallPartyIdName
        nameSize := UInt32.ofNat ((s.length + 1) * 2)
        nameOffset := UInt32.ofNat d.ptr })

end Fill

/-- The key of the caller's number. -/
def Globals.callerNumberKey (g : Globals) : Bytes :=
  if g.gbIncomingCallsLocal ≠ 0 then bytes "call_caller_number_local"
  else bytes "call_caller_number"

namespace DrvLine

variable (conv : WideConvert) (size : UInt32) (g : Globals) (line : DrvLine)

/-- What `TSPI_lineGetCallInfo` sets in front of the strings. -/
def fixedInfo (info : LineCallInfo) : LineCallInfo :=
  { info with
    dwNeededSize := (line.calculateCallInfoSize size).1
    dwUsedSize := size
    dwBearerMode := 1
    dwMediaMode := line.dwMediaMode
    dwCallStates := callInfoStates
    dwOrigin := if line.bIncomingCall then lineCallOriginInbound else lineCallOriginOutbound
    dwReason := 1
    callerId := { info.callerId with flags := 0 }
    calledId := { info.calledId with flags := 0 }
    dwConnectedIDFlags := lineCallPartyIdUnavail
    dwRedirectionIDFlags := lineCallPartyIdUnavail
    dwRedirectingIDFlags := lineCallPartyIdUnavail }

/-- `TSPI_lineGetCallInfo`: the line and the structure afterwards, and the writes behind the
structure. -/
def lineGetCallInfo (info : LineCallInfo) : DrvLine × LineCallInfo × List Write :=
  let info := line.fixedInfo size info
  let line := (line.calculateCallInfoSize size).2
  if info.dwNeededSize > info.dwTotalSize then (line, info, [])
  else
    -- the caller
    let number := fillNumber conv line.msgData g.callerNumberKey
      ⟨size.toNat, info.dwUsedSize, []⟩ info.callerId
    let name := fillName conv line.msgData (bytes "call_caller_name") number.1 number.2
    let callerId := name.2.orUnknown
    -- the called party, whose name is looked up under the key of the caller's name
    let number := fillNumber conv line.msgData (bytes "call_callee_number") name.1 info.calledId
    let name := fillName conv line.msgData (bytes "call_caller_name") number.1 number.2
    (line,
      { info with
        dwUsedSize := name.1.dwUsedSize
        callerId := callerId
        calledId := name.2.orUnknown },
      name.1.writes)

end DrvLine

/-! ## The strings as a table -/

/-- The room of a string and its terminator. -/
def stringSize (s : Option Bytes) : ℕ := (s.map fun s => 2 * s.length + 2).getD 0

namespace VariableData

/-- The data with one more string, if there is one. -/
def extend (d : VariableData) (r : Option (ℕ × List UInt16)) : VariableData where
  ptr := d.ptr + entrySpace r
  dwUsedSize := d.dwUsedSize + UInt32.ofNat (entrySpace r)
  writes := d.writes ++ stringTable d.ptr [r]

/-- A string is put where the next one goes. -/
theorem put_eq (d : VariableData) (s : Bytes) (a : List UInt16) :
    d.put s a = d.extend (some (s.length, a)) := by
  have hspace : entrySpace (some (s.length, a)) = (s.length + 1) * 2 := by
    show 2 * s.length + 2 = _
    omega
  unfold put extend
  rw [hspace, stringTable, Nat.mul_comm s.length 2]
  congr 1
  omega

/-- Several strings are a table.

**Proof sketch.** Induction on the strings; each one goes where the ones before it end. -/
theorem foldl_extend (d : VariableData) (rs : List (Option (ℕ × List UInt16))) :
    rs.foldl extend d =
      ⟨d.ptr + tableSpace rs, d.dwUsedSize + UInt32.ofNat (tableSpace rs),
        d.writes ++ stringTable d.ptr rs⟩ := by
  induction rs generalizing d with
  | nil =>
    show d = ⟨d.ptr + 0, d.dwUsedSize + UInt32.ofNat 0, d.writes ++ []⟩
    simp
  | cons r rs ih =>
    have hspace : tableSpace (r :: rs) = entrySpace r + tableSpace rs := rfl
    have htable := stringTable_append d.ptr [r] rs
    rw [List.foldl_cons, ih, hspace]
    simp only [extend, UInt32.ofNat_add]
    rw [List.append_assoc]
    congr 1
    · omega
    · rw [UInt32.add_assoc]
    · congr 1
      rw [List.singleton_append] at htable
      rw [htable]
      congr 2

end VariableData

section Fill

variable (conv : WideConvert) (msgData : MsgData) (idx : Bytes) (d : VariableData) (p : CallParty)

/-- What is written of a number. -/
def numberEntry : Option (ℕ × List UInt16) :=
  (converted conv msgData idx).map fun r => (r.1.length, r.2)

/-- What is written of a name. -/
def nameEntry : Option (ℕ × List UInt16) :=
  (converted conv msgData idx).map fun r => (r.1.length, if r.2 = [] then testName else r.2)

/-- The number is put behind what is there, when it can be converted. -/
theorem fillNumber_fst :
    (fillNumber conv msgData idx d p).1 = d.extend (numberEntry conv msgData idx) := by
  unfold fillNumber numberEntry
  cases converted conv msgData idx with
  | none => simp [VariableData.extend, entrySpace, stringTable]
  | some r => exact d.put_eq r.1 r.2

/-- The name is put behind what is there, when it can be converted. -/
theorem fillName_fst :
    (fillName conv msgData idx d p).1 = d.extend (nameEntry conv msgData idx) := by
  unfold fillName nameEntry
  cases converted conv msgData idx with
  | none => simp [VariableData.extend, entrySpace, stringTable]
  | some r => exact d.put_eq r.1 _

variable {conv msgData idx}

/-- A converted string is no longer than its room. -/
theorem length_le_of_converted {r : Bytes × List UInt16} (h : converted conv msgData idx = some r) :
    r.2.length ≤ r.1.length := by
  obtain ⟨s, -, hr⟩ := Option.bind_eq_some_iff.mp h
  obtain ⟨a, ha, rfl⟩ := Option.map_eq_some_iff.mp hr
  exact conv.length_le ha

/-- Only the empty string is converted to the empty string. -/
theorem eq_nil_of_converted {r : Bytes × List UInt16} (h : converted conv msgData idx = some r) :
    r.2 = [] ↔ r.1 = [] := by
  obtain ⟨s, -, hr⟩ := Option.bind_eq_some_iff.mp h
  obtain ⟨a, ha, rfl⟩ := Option.map_eq_some_iff.mp hr
  show a = [] ↔ s = []
  constructor
  · rintro rfl
    exact conv.eq_nil ha
  · rintro rfl
    exact List.length_eq_zero_iff.mp (Nat.le_zero.mp (conv.length_le ha))

end Fill

namespace DrvLine

section Sizes

variable (conv : WideConvert) (size : UInt32) (g : Globals) (line : DrvLine)

/-- The strings behind the structure. -/
def entries : List (Option (ℕ × List UInt16)) :=
  [numberEntry conv line.fillCalleeName.msgData g.callerNumberKey,
    nameEntry conv line.fillCalleeName.msgData (bytes "call_caller_name"),
    numberEntry conv line.fillCalleeName.msgData (bytes "call_callee_number"),
    nameEntry conv line.fillCalleeName.msgData (bytes "call_caller_name")]

/-- The room that `CalculateCallInfoSize` asks for behind the structure. -/
def needed : ℕ :=
  stringSize (line.msgData.find? (bytes "call_caller_number")) +
    stringSize (line.msgData.find? (bytes "call_caller_name")) +
    stringSize (line.msgData.find? (bytes "call_callee_number")) +
    stringSize (line.fillCalleeName.msgData.find? (bytes "call_callee_name"))

/-- A missing string adds nothing, an empty one its terminator. -/
theorem addSize_eq (msgData : MsgData) (idx : Bytes) (retVal : UInt32) :
    addSize msgData idx retVal = retVal + UInt32.ofNat (stringSize (msgData.find? idx)) := by
  unfold addSize stringSize
  cases msgData.find? idx with
  | none => simp
  | some s =>
    show retVal + UInt32.ofNat ((s.length + 1) * 2) = retVal + UInt32.ofNat (2 * s.length + 2)
    congr 2
    omega

/-- `CalculateCallInfoSize` counts up to 32 bits. -/
theorem calculateCallInfoSize_toNat :
    (line.calculateCallInfoSize size).1.toNat = (size.toNat + line.needed) % 2 ^ 32 := by
  simp only [calculateCallInfoSize, addSize_eq, needed, UInt32.toNat_add, UInt32.toNat_ofNat']
  omega

/-- The calculation changes nothing but the name of the callee. -/
theorem calculateCallInfoSize_snd : (line.calculateCallInfoSize size).2 = line.fillCalleeName := rfl

/-- The size that is reported as needed is the calculated one. -/
theorem dwNeededSize_lineGetCallInfo (info : LineCallInfo) :
    (line.lineGetCallInfo conv size g info).2.1.dwNeededSize =
      (line.calculateCallInfoSize size).1 := by
  simp only [lineGetCallInfo]
  split <;> rfl

variable {size line} in
/-- A buffer that is too small is left alone. -/
theorem lineGetCallInfo_of_lt {info : LineCallInfo}
    (h : info.dwTotalSize < (line.calculateCallInfoSize size).1) :
    (line.lineGetCallInfo conv size g info).2.2 = [] := by
  have hgt : (line.fixedInfo size info).dwNeededSize > (line.fixedInfo size info).dwTotalSize := h
  simp only [lineGetCallInfo, if_pos hgt]

variable {size line} in
/-- The strings go into a buffer that is large enough. -/
theorem lineGetCallInfo_of_le {info : LineCallInfo}
    (h : (line.calculateCallInfoSize size).1 ≤ info.dwTotalSize) :
    (line.lineGetCallInfo conv size g info).2.2 = stringTable size.toNat (line.entries conv g) ∧
      (line.lineGetCallInfo conv size g info).2.1.dwUsedSize =
        size + UInt32.ofNat (tableSpace (line.entries conv g)) := by
  have hfold := VariableData.foldl_extend ⟨size.toNat, size, []⟩ (line.entries conv g)
  have hle : ¬ (line.fixedInfo size info).dwNeededSize > (line.fixedInfo size info).dwTotalSize :=
    UInt32.not_lt.mpr h
  simp only [lineGetCallInfo, if_neg hle, fillNumber_fst, fillName_fst]
  constructor
  · exact congrArg VariableData.writes hfold
  · exact congrArg VariableData.dwUsedSize hfold

end Sizes

/-! ## When no buffer is overrun -/

section Fits

variable (conv : WideConvert) (size : UInt32) (g : Globals) (line : DrvLine)

/-- No buffer that is large enough for `TSPI_lineGetCallInfo` is overrun. -/
def CallInfoInside : Prop :=
  ∀ info : LineCallInfo, ∀ w ∈ (line.lineGetCallInfo conv size g info).2.2,
    w.Inside info.dwTotalSize.toNat

/-- The string under a key, if it can be converted. -/
def shown (idx : Bytes) : Option Bytes :=
  (converted conv line.fillCalleeName.msgData idx).map Prod.fst

/-- The room of the strings that are written. The name of the caller is written twice, and behind
the second one there is no other string that covers what was put there for an empty name. -/
def written : ℕ :=
  stringSize (line.shown conv g.callerNumberKey) +
    stringSize (line.shown conv (bytes "call_caller_name")) +
    stringSize (line.shown conv (bytes "call_callee_number")) +
    if line.shown conv (bytes "call_caller_name") = some [] then 2 * testName.length
    else stringSize (line.shown conv (bytes "call_caller_name"))

/-- What is written is not longer than what `CalculateCallInfoSize` asks for. -/
def CallInfoFits : Prop :=
  line.written conv g = 0 ∨ size.toNat + line.written conv g ≤ (size.toNat + line.needed) % 2 ^ 32

variable {conv g line}

/-- What is written of a number ends with its room. -/
theorem stop_numberEntry {msgData : MsgData} {idx : Bytes} (p : ℕ) :
    ((numberEntry conv msgData idx).map fun e => p + max (2 * e.2.length) (2 * e.1 + 2)).getD 0 =
        (((converted conv msgData idx).map Prod.fst).map fun s => p + (2 * s.length + 2)).getD 0 ∧
      entrySpace (numberEntry conv msgData idx) =
        stringSize ((converted conv msgData idx).map Prod.fst) := by
  unfold numberEntry
  cases hr : converted conv msgData idx with
  | none => exact ⟨rfl, rfl⟩
  | some r =>
    have hle := length_le_of_converted hr
    refine ⟨?_, rfl⟩
    show p + max (2 * r.2.length) (2 * r.1.length + 2) = p + (2 * r.1.length + 2)
    omega

/-- What is written of a name ends with its room, unless the name is empty.

**Proof sketch.** By whether there is a name, and whether it is empty. -/
theorem stop_nameEntry {msgData : MsgData} {idx : Bytes} (p : ℕ) :
    ((nameEntry conv msgData idx).map fun e => p + max (2 * e.2.length) (2 * e.1 + 2)).getD 0 =
        (((converted conv msgData idx).map Prod.fst).map fun s =>
          p + if s = [] then 2 * testName.length else 2 * s.length + 2).getD 0 ∧
      entrySpace (nameEntry conv msgData idx) =
        stringSize ((converted conv msgData idx).map Prod.fst) := by
  unfold nameEntry
  cases hr : converted conv msgData idx with
  | none => exact ⟨rfl, rfl⟩
  | some r =>
    have hle := length_le_of_converted hr
    have hnil := eq_nil_of_converted hr
    refine ⟨?_, rfl⟩
    show p + max (2 * (if r.2 = [] then testName else r.2).length) (2 * r.1.length + 2) =
      p + if r.1 = [] then 2 * testName.length else 2 * r.1.length + 2
    by_cases hempty : r.1 = []
    · rw [if_pos (hnil.mpr hempty), if_pos hempty, hempty]
      rfl
    · rw [if_neg (mt hnil.mp hempty), if_neg hempty]
      omega

/-- Where the strings end.

**Proof sketch.** The last string ends last; where it is an empty name, what stands in its place is
longer than its room, but so it is for the first name, which ends before. -/
theorem reach_entries : reach (stringTable size.toNat (line.entries conv g)) =
    if line.written conv g = 0 then 0 else size.toNat + line.written conv g := by
  have hlen : testName.length = 12 := rfl
  simp only [entries, reach_stringTable_cons, (stop_numberEntry _).1, (stop_numberEntry 0).2,
    (stop_nameEntry _).1, (stop_nameEntry 0).2, written, shown, hlen]
  generalize (converted conv line.fillCalleeName.msgData g.callerNumberKey).map Prod.fst = number
  generalize (converted conv line.fillCalleeName.msgData (bytes "call_caller_name")).map Prod.fst =
    name
  generalize (converted conv line.fillCalleeName.msgData (bytes "call_callee_number")).map
    Prod.fst = callee
  rcases name with _ | s
  · cases number <;> cases callee <;> simp [stringSize, reach, stringTable]
    all_goals omega
  · by_cases hempty : s = []
    · cases number <;> cases callee <;> simp [stringSize, reach, stringTable, hempty]
      all_goals omega
    · cases number <;> cases callee <;> simp [stringSize, reach, stringTable, hempty]
      all_goals omega

variable (conv g line)

/-- **Overruns of the buffer.** `TSPI_lineGetCallInfo` never writes behind a buffer exactly when it
does not write more than it asks for.

**Proof sketch.** A buffer that is too small is left alone. In one that is large enough the strings
end where they end; the smallest one of these has the size that is asked for. -/
theorem callInfoInside_iff : line.CallInfoInside conv size g ↔ line.CallInfoFits conv size g := by
  have hneeded := line.calculateCallInfoSize_toNat size
  have hreach : reach (stringTable size.toNat (line.entries conv g)) = _ := reach_entries size
  constructor
  · intro h
    by_contra hfits
    obtain ⟨hwritten, hlt⟩ := not_or.mp hfits
    let info : LineCallInfo := ⟨(line.calculateCallInfoSize size).1, 0, 0, 0, 0, 0, 0, 0,
      ⟨0, 0, 0, 0, 0⟩, ⟨0, 0, 0, 0, 0⟩, 0, 0, 0⟩
    have hinside := h info
    rw [(lineGetCallInfo_of_le conv g (UInt32.le_refl _)).1, forall_inside_iff, hreach,
      if_neg hwritten] at hinside
    exact hlt (hneeded ▸ hinside)
  · intro h info
    by_cases hle : (line.calculateCallInfoSize size).1 ≤ info.dwTotalSize
    · have htotal : (line.calculateCallInfoSize size).1.toNat ≤ info.dwTotalSize.toNat := hle
      rw [(lineGetCallInfo_of_le conv g hle).1, forall_inside_iff, hreach]
      rcases h with hzero | hsize
      · rw [if_pos hzero]
        exact Nat.zero_le _
      · split_ifs <;> omega
    · rw [lineGetCallInfo_of_lt conv g (UInt32.not_le.mp hle)]
      simp

end Fits

/-! ## What TAPI reads -/

section Reads

/-- At `p` stand the units `a`, and a zero behind as many units as `s` has bytes. What lies between
them, where a unit takes more than one byte of `s`, is left open. -/
def Reads (m : Memory) (p : ℕ) (s : Bytes) (a : List UInt16) : Prop :=
  ∃ gap : List UInt16, gap.length = s.length - a.length ∧
    m.readWide p (s.length + 1) = a ++ gap ++ [0]

/-- A string of one of the parties: the flag says whether it is there, and the two other fields say
where. -/
def Shows (m : Memory) (flags flag size offset : UInt32) (p : ℕ)
    (r : Option (Bytes × List UInt16)) : Prop :=
  (flags &&& flag ≠ 0 ↔ r.isSome) ∧
    ∀ s a, r = some (s, a) → size.toNat = 2 * s.length + 2 ∧ offset.toNat = p ∧ Reads m p s a

variable (conv : WideConvert) (size : UInt32) (g : Globals) (line : DrvLine)

/-- What the fields say is shown when it fits into 32 bits and the string is where they say. -/
theorem Shows.of_fields {m : Memory} {flags flag size offset : UInt32} {p : ℕ}
    {r : Option (Bytes × List UInt16)} (hflag : flags &&& flag ≠ 0 ↔ r.isSome)
    (hfields : ∀ s a, r = some (s, a) →
      size = UInt32.ofNat ((s.length + 1) * 2) ∧ offset = UInt32.ofNat p)
    (hfit : ∀ s a, r = some (s, a) → 2 * s.length + 2 < 2 ^ 32 ∧ p < 2 ^ 32)
    (hreads : ∀ s a, r = some (s, a) → Reads m p s a) : Shows m flags flag size offset p r := by
  refine ⟨hflag, fun s a h => ?_⟩
  obtain ⟨hs, hp⟩ := hfit s a h
  obtain ⟨rfl, rfl⟩ := hfields s a h
  rw [UInt32.toNat_ofNat', UInt32.toNat_ofNat']
  exact ⟨by omega, by omega, hreads s a h⟩

/-- The structure tells what the line knows of the call, except that the called party has the name
of the caller. The strings stand one behind the other inside the room that was asked for. -/
structure ReportsCall (info : LineCallInfo) (m : Memory) : Prop where
  callerNumber : Shows m info.callerId.flags lineCallPartyIdAddress info.callerId.size
    info.callerId.offset size.toNat
    (converted conv line.fillCalleeName.msgData g.callerNumberKey)
  callerName : Shows m info.callerId.flags lineCallPartyIdName info.callerId.nameSize
    info.callerId.nameOffset (size.toNat + stringSize (line.shown conv g.callerNumberKey))
    (converted conv line.fillCalleeName.msgData (bytes "call_caller_name"))
  calledNumber : Shows m info.calledId.flags lineCallPartyIdAddress info.calledId.size
    info.calledId.offset
    (size.toNat + stringSize (line.shown conv g.callerNumberKey) +
      stringSize (line.shown conv (bytes "call_caller_name")))
    (converted conv line.fillCalleeName.msgData (bytes "call_callee_number"))
  calledName : Shows m info.calledId.flags lineCallPartyIdName info.calledId.nameSize
    info.calledId.nameOffset
    (size.toNat + stringSize (line.shown conv g.callerNumberKey) +
      stringSize (line.shown conv (bytes "call_caller_name")) +
      stringSize (line.shown conv (bytes "call_callee_number")))
    (converted conv line.fillCalleeName.msgData (bytes "call_caller_name"))
  usedSize : info.dwUsedSize.toNat =
    size.toNat + stringSize (line.shown conv g.callerNumberKey) +
      stringSize (line.shown conv (bytes "call_caller_name")) +
      stringSize (line.shown conv (bytes "call_callee_number")) +
      stringSize (line.shown conv (bytes "call_caller_name"))
  usedSize_le : info.dwUsedSize ≤ info.dwNeededSize

/-- A party tells where its number and its name stand, if it has them. -/
structure PartyFields (p : CallParty) (ptr ptr' : ℕ) (r r' : Option (Bytes × List UInt16)) :
    Prop where
  address : p.flags &&& lineCallPartyIdAddress ≠ 0 ↔ r.isSome
  name : p.flags &&& lineCallPartyIdName ≠ 0 ↔ r'.isSome
  number : ∀ s a, r = some (s, a) →
    p.size = UInt32.ofNat ((s.length + 1) * 2) ∧ p.offset = UInt32.ofNat ptr
  nameFields : ∀ s a, r' = some (s, a) →
    p.nameSize = UInt32.ofNat ((s.length + 1) * 2) ∧ p.nameOffset = UInt32.ofNat ptr'

/-- The flag of an address is set exactly when there is a number. -/
theorem flags_fillNumber (msgData : MsgData) (idx : Bytes) (d : VariableData) (p : CallParty) :
    (fillNumber conv msgData idx d p).2.flags =
      if (converted conv msgData idx).isSome then p.flags ||| lineCallPartyIdAddress
      else p.flags := by
  unfold fillNumber
  cases converted conv msgData idx <;> rfl

/-- The flag of a name is set exactly when there is a name. -/
theorem flags_fillName (msgData : MsgData) (idx : Bytes) (d : VariableData) (p : CallParty) :
    (fillName conv msgData idx d p).2.flags =
      if (converted conv msgData idx).isSome then p.flags ||| lineCallPartyIdName
      else p.flags := by
  unfold fillName
  cases converted conv msgData idx <;> rfl

/-- A party without a number and a name is unknown. -/
theorem flags_orUnknown (p : CallParty) :
    p.orUnknown.flags = if p.flags = 0 then lineCallPartyIdUnknown else p.flags := by
  unfold CallParty.orUnknown
  split <;> rfl

/-- The fields of a party, whose flags were cleared before.

**Proof sketch.** The flags are set by whether there is a number and a name, and the fields when
there is one. -/
theorem partyFields_fill (msgData : MsgData) (idx idx' : Bytes) (d : VariableData) {p : CallParty}
    (hp : p.flags = 0) :
    PartyFields
      (fillName conv msgData idx' (fillNumber conv msgData idx d p).1
        (fillNumber conv msgData idx d p).2).2.orUnknown
      d.ptr (fillNumber conv msgData idx d p).1.ptr (converted conv msgData idx)
      (converted conv msgData idx') := by
  constructor
  case address =>
    rw [flags_orUnknown, flags_fillName, flags_fillNumber, hp]
    cases (converted conv msgData idx).isSome <;> cases (converted conv msgData idx').isSome <;>
      decide
  case name =>
    rw [flags_orUnknown, flags_fillName, flags_fillNumber, hp]
    cases (converted conv msgData idx).isSome <;> cases (converted conv msgData idx').isSome <;>
      decide
  case number =>
    intro s a h
    unfold fillName fillNumber CallParty.orUnknown
    rw [h]
    cases converted conv msgData idx' <;> dsimp only <;> split <;> exact ⟨rfl, rfl⟩
  case nameFields =>
    intro s a h
    unfold fillName CallParty.orUnknown
    rw [h]
    dsimp only
    split <;> exact ⟨rfl, rfl⟩

variable {conv} {msgData : MsgData} {idx : Bytes} {r : Bytes × List UInt16}

/-- A number is read back. -/
theorem reads_numberEntry (m : Memory) (p : ℕ) (es xs : List (Option (ℕ × List UInt16)))
    (h : converted conv msgData idx = some r) :
    Reads (storeAll m (stringTable p (es ++ numberEntry conv msgData idx :: xs)))
      (p + tableSpace es) r.1 r.2 := by
  have hentry : numberEntry conv msgData idx = some (r.1.length, r.2) := by
    rw [numberEntry, h]
    rfl
  rw [hentry]
  exact readWide_stringTable m p (length_le_of_converted h) es xs

/-- A name is read back, also one that is empty: the terminator stands where its replacement
begins.

**Proof sketch.** An empty name is replaced by a text of which the terminator is written first. -/
theorem reads_nameEntry (m : Memory) (p : ℕ) (es xs : List (Option (ℕ × List UInt16)))
    (h : converted conv msgData idx = some r) :
    Reads (storeAll m (stringTable p (es ++ nameEntry conv msgData idx :: xs)))
      (p + tableSpace es) r.1 r.2 := by
  have hentry : nameEntry conv msgData idx =
      some (r.1.length, if r.2 = [] then testName else r.2) := by
    rw [nameEntry, h]
    rfl
  rw [hentry]
  by_cases hnil : r.2 = []
  · rw [(eq_nil_of_converted h).mp hnil, hnil]
    exact ⟨[], rfl, readWide_stringTable_zero m p _ es xs⟩
  · rw [if_neg hnil]
    exact readWide_stringTable m p (length_le_of_converted h) es xs

variable {size g line} {info : LineCallInfo}

/-- What is written is no shorter than the room of the strings.

**Proof sketch.** The room of the strings is counted with their terminators, and the replacement of
an empty name is longer. -/
theorem tableSpace_entries_le : tableSpace (line.entries conv g) =
      stringSize (line.shown conv g.callerNumberKey) +
        stringSize (line.shown conv (bytes "call_caller_name")) +
        stringSize (line.shown conv (bytes "call_callee_number")) +
        stringSize (line.shown conv (bytes "call_caller_name")) ∧
    tableSpace (line.entries conv g) ≤ line.written conv g := by
  have hspace : tableSpace (line.entries conv g) = _ + (_ + (_ + (_ + 0))) := rfl
  have hlen : testName.length = 12 := rfl
  rw [hspace, (stop_numberEntry 0).2, (stop_nameEntry 0).2, (stop_numberEntry 0).2]
  refine ⟨?_, ?_⟩
  · simp only [shown]
    omega
  · unfold written shown
    split_ifs with hempty
    · rw [hempty, hlen]
      simp only [stringSize, Option.map_some, Option.getD_some, List.length_nil]
      omega
    · omega

variable (conv g)

/-- The fields of the two parties in a buffer that is large enough.

**Proof sketch.** The calculated size fits, so both parties are filled; the strings are put one
behind the other. -/
theorem partyFields_lineGetCallInfo
    (htotal : (line.calculateCallInfoSize size).1 ≤ info.dwTotalSize) :
    PartyFields (line.lineGetCallInfo conv size g info).2.1.callerId size.toNat
        (size.toNat + stringSize (line.shown conv g.callerNumberKey))
        (converted conv line.fillCalleeName.msgData g.callerNumberKey)
        (converted conv line.fillCalleeName.msgData (bytes "call_caller_name")) ∧
      PartyFields (line.lineGetCallInfo conv size g info).2.1.calledId
        (size.toNat + stringSize (line.shown conv g.callerNumberKey) +
          stringSize (line.shown conv (bytes "call_caller_name")))
        (size.toNat + stringSize (line.shown conv g.callerNumberKey) +
          stringSize (line.shown conv (bytes "call_caller_name")) +
          stringSize (line.shown conv (bytes "call_callee_number")))
        (converted conv line.fillCalleeName.msgData (bytes "call_callee_number"))
        (converted conv line.fillCalleeName.msgData (bytes "call_caller_name")) := by
  have hle : ¬ (line.fixedInfo size info).dwNeededSize > (line.fixedInfo size info).dwTotalSize :=
    UInt32.not_lt.mpr htotal
  simp only [lineGetCallInfo, if_neg hle, calculateCallInfoSize_snd]
  generalize hnumber : fillNumber conv line.fillCalleeName.msgData g.callerNumberKey
    ⟨size.toNat, (line.fixedInfo size info).dwUsedSize, []⟩ (line.fixedInfo size info).callerId =
      number
  have hptr : number.1.ptr = size.toNat + stringSize (line.shown conv g.callerNumberKey) := by
    rw [← hnumber, fillNumber_fst]
    exact congrArg _ (stop_numberEntry 0).2
  have hcaller := partyFields_fill conv line.fillCalleeName.msgData g.callerNumberKey
    (bytes "call_caller_name") ⟨size.toNat, (line.fixedInfo size info).dwUsedSize, []⟩
    (p := (line.fixedInfo size info).callerId) rfl
  rw [hnumber, hptr] at hcaller
  refine ⟨hcaller, ?_⟩
  generalize hname : fillName conv line.fillCalleeName.msgData (bytes "call_caller_name") number.1
    number.2 = name
  have hptr' : name.1.ptr = size.toNat + stringSize (line.shown conv g.callerNumberKey) +
      stringSize (line.shown conv (bytes "call_caller_name")) := by
    rw [← hname, fillName_fst, ← hptr]
    exact congrArg _ (stop_nameEntry 0).2
  have hcalled := partyFields_fill conv line.fillCalleeName.msgData (bytes "call_callee_number")
    (bytes "call_caller_name") name.1 (p := (line.fixedInfo size info).calledId) rfl
  have hptr'' : (fillNumber conv line.fillCalleeName.msgData (bytes "call_callee_number") name.1
      (line.fixedInfo size info).calledId).1.ptr =
        size.toNat + stringSize (line.shown conv g.callerNumberKey) +
          stringSize (line.shown conv (bytes "call_caller_name")) +
          stringSize (line.shown conv (bytes "call_callee_number")) := by
    rw [fillNumber_fst, ← hptr']
    exact congrArg _ (stop_numberEntry 0).2
  rwa [hptr'', hptr'] at hcalled

variable (line)

/-- A line that knows the number and the name of the caller, and an empty name of the called
party. -/
def knownCaller : DrvLine :=
  let msgData := MsgData.write .empty (bytes "call_caller_number") (bytes "100")
  let msgData := msgData.write (bytes "call_caller_name") (bytes "Ann")
  { create 0 0 with msgData := msgData.write (bytes "call_callee_name") [] }

end Reads

end DrvLine

/-! ## The messages that lead to an overrun -/

namespace MsgData

/-- A write is found again, and changes no other text. -/
theorem find?_write (msgData : MsgData) (k k' v : Bytes) :
    (msgData.write k' v).find? k = if k = k' then some v else msgData.find? k :=
  @StdMap.find?_assign _ _ _ _ transIdx _ _ _ msgData k k' v

/-- A read with `[]` leaves the other texts as they are. -/
theorem find?_read (msgData : MsgData) {k k' : Bytes} (h : k ≠ k') :
    (msgData.read k').2.find? k = msgData.find? k :=
  @StdMap.find?_get _ _ _ _ transIdx _ _ _ _ msgData k k' h

end MsgData

/-- The keys of the numbers and names. -/
def infoKeys : List Bytes :=
  [bytes "call_caller_number", bytes "call_caller_number_local", bytes "call_caller_name",
    bytes "call_callee_number", bytes "call_callee_name"]

/-- The same numbers and names. -/
def SameInfo (msgData msgData' : MsgData) : Prop :=
  ∀ k ∈ infoKeys, msgData.find? k = msgData'.find? k

namespace DrvLine

section Congr

variable {conv : WideConvert} {size : UInt32} {g : Globals} {line line' : DrvLine}

/-- An empty name of the callee is replaced by the text of the source; all else stays. -/
theorem find?_fillCalleeName (k : Bytes) :
    line.fillCalleeName.msgData.find? k =
      if k = bytes "call_callee_name" ∧ line.msgData.find? (bytes "call_callee_name") = some [] then
        some (bytes "Test name #1")
      else line.msgData.find? k := by
  unfold fillCalleeName
  by_cases hempty : line.msgData.find? (bytes "call_callee_name") = some []
  · rw [if_pos hempty]
    simp only [hempty, and_true]
    exact MsgData.find?_write ..
  · rw [if_neg hempty, if_neg (fun h => hempty h.2)]

/-- The replacement depends on the texts that are shown, and on nothing else. -/
theorem sameInfo_fillCalleeName (h : SameInfo line.msgData line'.msgData) :
    SameInfo line.fillCalleeName.msgData line'.fillCalleeName.msgData := by
  intro k hk
  rw [find?_fillCalleeName, find?_fillCalleeName, h k hk, h (bytes "call_callee_name") (by decide)]

/-- What is written and what is asked for depends on the numbers and names.

**Proof sketch.** All that is counted and written is found under these keys. -/
theorem callInfoFits_congr (h : SameInfo line.msgData line'.msgData) :
    line.CallInfoFits conv size g ↔ line'.CallInfoFits conv size g := by
  have hfill := sameInfo_fillCalleeName h
  have hkey : g.callerNumberKey ∈ infoKeys := by
    unfold Globals.callerNumberKey
    split_ifs <;> decide
  have hshown : ∀ k ∈ infoKeys, line.shown conv k = line'.shown conv k := by
    intro k hk
    unfold shown converted
    rw [hfill k hk]
  unfold CallInfoFits written needed
  rw [hshown _ hkey, hshown (bytes "call_caller_name") (by decide),
    hshown (bytes "call_callee_number") (by decide), h (bytes "call_caller_number") (by decide),
    h (bytes "call_caller_name") (by decide), h (bytes "call_callee_number") (by decide),
    hfill (bytes "call_callee_name") (by decide)]

/-- `CalculateCallInfoSize` changes nothing of what it counts.

**Proof sketch.** Filled once the name is not empty, so filling it again changes nothing. -/
theorem callInfoFits_fillCalleeName :
    line.fillCalleeName.CallInfoFits conv size g ↔ line.CallInfoFits conv size g := by
  have hfill : ∀ k, line.fillCalleeName.fillCalleeName.msgData.find? k =
      line.fillCalleeName.msgData.find? k := by
    intro k
    rw [find?_fillCalleeName, if_neg]
    rintro ⟨-, hempty⟩
    rw [find?_fillCalleeName] at hempty
    split_ifs at hempty with h
    · exact absurd hempty (by decide)
    · exact h ⟨rfl, hempty⟩
  have hother : ∀ k, k ≠ bytes "call_callee_name" →
      line.fillCalleeName.msgData.find? k = line.msgData.find? k := by
    intro k hk
    rw [find?_fillCalleeName, if_neg (fun h => hk h.1)]
  unfold CallInfoFits written needed shown converted
  simp only [hfill]
  rw [hother (bytes "call_caller_number") (by decide),
    hother (bytes "call_caller_name") (by decide), hother (bytes "call_callee_number") (by decide)]

/-- A line without strings has nothing to write.

**Proof sketch.** Nothing is found, so nothing is written. -/
theorem callInfoFits_empty (h : line.msgData = .empty) : line.CallInfoFits conv size g := by
  left
  have hfind : ∀ k, line.msgData.find? k = none := by
    intro k
    rw [h]
    rfl
  have hshown : ∀ k, line.shown conv k = none := by
    intro k
    unfold shown converted
    rw [find?_fillCalleeName, hfind, hfind]
    simp
  unfold written
  rw [hshown, hshown, hshown]
  rfl

/-- The line with what it keeps of a message. -/
def keeping (line : DrvLine) (msg : StdMap Bytes MessageHolder) : DrvLine :=
  { line with msgData := (keepStrings .empty msg.entries).1 }

end Congr

end DrvLine

section Run

variable {g : Globals} {c : ClientId} {self : UInt64} {s s' r : LineState} {t : Task} {o : Outcome}

/-- The pieces that change the numbers and names: a message replaces them, and closing the call
removes them.

**Proof sketch.** By cases on the piece. Reading a text that is missing adds an empty one, under a
key that is no number or name. -/
theorem Performs.info (h : Performs g c self s t r o) :
    (∃ msg, t = .processCallMessage msg ∧
        SameInfo r.line.msgData (DrvLine.keepStrings .empty msg.entries).1) ∨
      (∀ msg, t ≠ .processCallMessage msg) ∧
        (SameInfo r.line.msgData s.line.msgData ∨ r.line.msgData = .empty ∨
          r.line = s.line.fillCalleeName) := by
  cases h
  case processCallMessage_threw msg msgData f hkeep =>
    refine .inl ⟨msg, rfl, fun k hk => ?_⟩
    rw [hkeep]
    rfl
  case processCallMessage_ignored msg msgData hkeep hproc =>
    refine .inl ⟨msg, rfl, fun k hk => ?_⟩
    rw [hkeep]
    exact MsgData.find?_read _ (by rintro rfl; exact absurd hk (by decide))
  case processCallMessage msg msgData channel hkeep hproc hchannel =>
    refine .inl ⟨msg, rfl, fun k hk => ?_⟩
    rw [hkeep, ← hchannel]
    refine (MsgData.find?_read _ (by rintro rfl; exact absurd hk (by decide))).trans ?_
    exact MsgData.find?_read _ (by rintro rfl; exact absurd hk (by decide))
  case setCallStatus =>
    refine .inr ⟨by simp, .inl fun k hk => ?_⟩
    exact MsgData.find?_read _ (by rintro rfl; exact absurd hk (by decide))
  case closeCall => exact .inr ⟨by simp, .inr (.inl rfl)⟩
  case getCallInfo => exact .inr ⟨by simp, .inr (.inr rfl)⟩
  all_goals exact .inr ⟨by simp, .inl fun _ _ => rfl⟩

namespace LineState

variable (conv : WideConvert) (size : UInt32) {e : LineLabel}

/-- A step of a line that fits: it fits afterwards unless it goes on with a message that does
not.

**Proof sketch.** A message replaces the numbers and names, and whether they fit is the condition.
All other pieces keep them, fill the empty name, or remove them. -/
theorem callInfoFits_next_iff (hs : s.line.CallInfoFits conv size g)
    (h : s.next g c self e = some s') :
    s'.line.CallInfoFits conv size g ↔ ∀ msg, s.goes e = some (.processCallMessage msg) →
      (s.line.keeping msg).CallInfoFits conv size g := by
  have hpiece : ∀ {t r o}, Performs g c self s t r o → s.goes e = some t → s'.line = r.line →
      (s'.line.CallInfoFits conv size g ↔ ∀ msg, s.goes e = some (.processCallMessage msg) →
        (s.line.keeping msg).CallInfoFits conv size g) := by
    intro t r o hp hgoes hline
    rw [hline, hgoes]
    rcases hp.info with ⟨msg, rfl, hsame⟩ | ⟨hne, hsame | hempty | hfill⟩
    · have hcongr : r.line.CallInfoFits conv size g ↔
          (s.line.keeping msg).CallInfoFits conv size g := DrvLine.callInfoFits_congr hsame
      rw [hcongr]
      simp
    · refine iff_of_true ((DrvLine.callInfoFits_congr hsame).mpr hs) fun msg hmsg => ?_
      exact absurd (Option.some.inj hmsg) (hne msg)
    · refine iff_of_true (DrvLine.callInfoFits_empty hempty) fun msg hmsg => ?_
      exact absurd (Option.some.inj hmsg) (hne msg)
    · rw [hfill]
      refine iff_of_true (DrvLine.callInfoFits_fillCalleeName.mpr hs) fun msg hmsg => ?_
      exact absurd (Option.some.inj hmsg) (hne msg)
  rcases next_cases h with ⟨f, rfl, -, -, rfl⟩ | ⟨_, t, rest, r, o, rfl, htapi, hp, rfl⟩ |
    ⟨_, t, rest, r, o, rfl, hwd, hp, rfl⟩
  · exact iff_of_true hs (by simp [goes])
  · exact hpiece hp (by simp [goes, htapi]) rfl
  · exact hpiece hp (by simp [goes, hwd]) rfl

/-- **Overruns in a run.** In a run of a line `TSPI_lineGetCallInfo` could overrun no buffer at any
moment exactly when it could not with what the line keeps of each message that it looks at.

**Proof sketch.** The numbers and names change with such a message, and are removed when TAPI closes
the call; the other reads of the data add empty strings under other keys. -/
theorem callInfoInside_run_iff (rpc : RpcServer) (dwDeviceID : UInt32) (hConn : Ptr)
    {tr : List (Step LineState LineLabel)}
    (h : Run (LineState.next g c self) (opened rpc dwDeviceID hConn) tr s') :
    (∀ t ∈ tr, t.post.line.CallInfoInside conv size g) ↔
      ∀ t ∈ tr, ∀ msg, t.pre.goes t.label = some (.processCallMessage msg) →
        (t.pre.line.keeping msg).CallInfoFits conv size g := by
  simp only [DrvLine.callInfoInside_iff]
  exact h.forall_post_iff (I := fun _ => True) (P := fun s => s.line.CallInfoFits conv size g)
    (C := fun s e => ∀ msg, s.goes e = some (.processCallMessage msg) →
      (s.line.keeping msg).CallInfoFits conv size g)
    (fun _ _ _ _ _ => trivial) (fun _ _ _ _ hP hn => callInfoFits_next_iff conv size hP hn)
    trivial (DrvLine.callInfoFits_empty rfl)

/-- A message about a call, whose caller has a longer name than the called party. -/
def longNameMessage : Message :=
  .object [(bytes "1", some (.object
    [(bytes "call_callee_name", some (.string (bytes "Ann"))),
      (bytes "call_callee_number", some (.string (bytes "200"))),
      (bytes "call_caller_name", some (.string (bytes "Robert"))),
      (bytes "call_caller_number", some (.string (bytes "100"))),
      (bytes "call_direction", some (.string (bytes "inbound"))),
      (bytes "call_status", some (.string (bytes "ringing")))]))]

/-- The line is told of the call. -/
def announced : List LineLabel :=
  [.call (.lineDevSpecific 1 (some (.new (some longNameMessage)))), .tapi .nothing, .tapi .nothing,
    .tapi .nothing, .tapi (.newCall (some 7)), .tapi .nothing, .tapi .nothing, .tapi .nothing,
    .tapi .nothing, .tapi .nothing]

/-- The buffer can be overrun then.

**Proof sketch.** The run is computed. The message that it keeps asks for less than is written. -/
theorem callInfoInside_announced :
    ∃ tr s', Run (LineState.next ⟨1, 0⟩ 0 0) (opened .start 0 0) tr s' ∧
      s'.line.htCall = some 7 ∧
      ¬ ∀ t ∈ tr, t.post.line.CallInfoInside asciiConvert 300 ⟨1, 0⟩ := by
  obtain ⟨r, hr, hcall, t, ht, msg, hgoes, hwritten, hneeded⟩ : ∃ r,
      exec (LineState.next ⟨1, 0⟩ 0 0) (opened .start 0 0) announced = some r ∧
        r.2.line.htCall = some 7 ∧ ∃ t, r.1[3]? = some t ∧ ∃ msg,
          t.pre.goes t.label = some (.processCallMessage msg) ∧
            (t.pre.line.keeping msg).written asciiConvert ⟨1, 0⟩ = 44 ∧
            (t.pre.line.keeping msg).needed = 38 := ⟨_, rfl, rfl, _, rfl, _, rfl, rfl, rfl⟩
  refine ⟨r.1, r.2, .of_exec hr, hcall, fun hall => ?_⟩
  have hfits := (callInfoInside_run_iff asciiConvert 300 .start 0 0 (.of_exec hr)).mp hall t
    (List.mem_of_getElem? ht) msg hgoes
  unfold DrvLine.CallInfoFits at hfits
  rw [hwritten, hneeded] at hfits
  exact absurd hfits (by decide)

end LineState

end Run

end Nuacom
