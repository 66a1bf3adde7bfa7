import Nuacom.Provider.Api
import Nuacom.Client.Wrapper
import Nuacom.Message.Callbacks

set_option relaxedAutoImplicit false
set_option autoImplicit false

/-!
# A line of the provider

TAPI drives a line of the provider through the functions of the service provider interface. A call
on the line is placed by `TSPI_lineMakeCall`, or announced to TAPI by a message of the websocket.
After a call is placed, a thread of the line waits for a message, and gives the call up when none
comes in time.

## Main definitions

* `Nuacom.DrvLine` — the data of a line, with the functions that only read or write it.
* `Nuacom.Task` — the pieces of the functions and of the watchdog between which another thread can
  run.
* `Nuacom.LineState` — a line with its two threads and the service.
* `Nuacom.LineState.perform` — what a piece does.
* `Nuacom.TspiCall`, `Nuacom.LineState.next` — the functions that TAPI calls, and the steps of a
  line.

## Main results

* `Nuacom.Performs` — the cases of a piece, each with the state that it leads to.
* `Nuacom.LineState.performs_of_perform` — there are no others.

## Implementation notes

The provider tells TAPI that its functions are not reentrant, so TAPI calls one of them at a time.
Each function, and the watchdog, is a list of pieces; a piece does at most one thing that another
thread or party can notice, and may put further pieces in front of those that follow. The time is
not modelled: the wait of the watchdog can end at any moment. The events that a line sends are
kept in a log.
-/

namespace Nuacom

open CString Transition

/-! ## TAPI -/

/-- `HTAPICALL`, when it is not `NULL`. -/
abbrev HTapiCall := ℕ

/-- `DRV_REQUESTID` -/
abbrev RequestId := UInt32

/-- `LINECALLSTATE_XXX`, as far as the provider sets them. -/
inductive CallState
  /-- `0`, before a state is set. -/
  | unset
  | idle
  | dialing
  | ringback
  | connected
  | disconnected
  deriving DecidableEq, Repr

/-- `LINEERR_XXX` -/
inductive LineErr
  | callUnavail
  | operationFailed
  deriving DecidableEq, Repr

/-- `LINEMEDIAMODE_INTERACTIVEVOICE` -/
def lineMediaModeInteractiveVoice : UInt32 := 4

/-- What TAPI and the service see of a line. -/
inductive LineEvent
  /-- A function returns. -/
  | returned (lResult : Except LineErr RequestId)
  /-- An exception leaves a function. -/
  | threw
  /-- `gpfnCompletionProc`, with `none` for `0`. -/
  | completion (dwRequestID : RequestId) (lResult : Option LineErr)
  /-- `LINE_NEWCALL` -/
  | newCall
  /-- `LINE_CALLSTATE` -/
  | callState (htCall : Option HTapiCall) (dwCallState : CallState) (dwCallStateMode : UInt32)
      (dwMediaMode : UInt32)
  /-- The RPC `MakeCall` -/
  | makeCall (address : Bytes)
  /-- The RPC `Hangup` -/
  | hangup (localChannel : Bytes)
  deriving DecidableEq

/-- The global variables of the provider that its lines read. -/
structure Globals where
  gbHandleIncomingCalls : UInt32
  gbIncomingCallsLocal : UInt32

/-! ## The data of a line -/

/-- `msgData` -/
abbrev MsgData := StdMap Bytes Bytes

namespace MsgData

/-- The order of the identifiers is transitive. -/
theorem lt_trans_idx {a b c : Bytes} (h : a < b) (h' : b < c) : a < c :=
  Trans.trans h h'

/-- The order of the keys. -/
abbrev transIdx : @Trans Bytes Bytes Bytes (· < ·) (· < ·) (· < ·) := ⟨lt_trans_idx⟩

/-- `msgData[idx]` read. -/
def read (msgData : MsgData) (idx : Bytes) : Bytes × MsgData :=
  @StdMap.get _ _ _ _ _ transIdx msgData idx

/-- `msgData[idx] = s` -/
def write (msgData : MsgData) (idx s : Bytes) : MsgData :=
  @StdMap.assign _ _ _ _ transIdx msgData idx s

end MsgData

/-- `DRVLINE`, without its threads; what is `none` is `NULL`. -/
structure DrvLine where
  dwDeviceID : UInt32
  rpcw : CRPCWrapper
  bConnected : Bool
  localChannel : Bytes
  htCall : Option HTapiCall
  dwCallState : CallState
  dwCallStateMode : UInt32
  dwMediaMode : UInt32
  bDropInProgress : Bool
  bIncomingCall : Bool
  msgData : MsgData

namespace DrvLine

/-- The constructor, and what `TSPI_lineOpen` sets; `hConn` is what the memory of `m_hConn`
holds. -/
def create (dwDeviceID : UInt32) (hConn : Ptr) : DrvLine where
  dwDeviceID := dwDeviceID
  rpcw := .create hConn
  bConnected := false
  localChannel := []
  htCall := none
  dwCallState := .unset
  dwCallStateMode := 0
  dwMediaMode := 0
  bDropInProgress := false
  bIncomingCall := false
  msgData := .empty

variable (line : DrvLine)

/-- `shouldProcessIncomingCalls` -/
def shouldProcessIncomingCalls (g : Globals) (callDirection : Bytes) : Bool :=
  if callDirection ≠ bytes "inbound" then true
  else (line.htCall.isNone || line.bIncomingCall) && g.gbHandleIncomingCalls ≠ 0

/-- The first loop of `ProcessCallMessage`: what is kept when it ends or throws. -/
def keepStrings (msgData : MsgData) :
    List (Bytes × MessageHolder) → MsgData × Option HolderFault
  | [] => (msgData, none)
  | v :: msg =>
    match Callbacks.keepString msgData v with
    | .error f => (msgData, some f)
    | .ok msgData => keepStrings msgData msg

/-- `localChannel` after a message with the channel: what follows `SIP/`. -/
def channelAfter (channel : Bytes) : Bytes :=
  if 4 < channel.length then
    if channel.take 4 = bytes "SIP/" then channel.drop 4 else line.localChannel
  else line.localChannel

/-- What `CalculateCallInfoSize` does to an empty name of the callee. -/
def fillCalleeName : DrvLine :=
  if line.msgData.find? (bytes "call_callee_name") = some [] then
    { line with msgData := line.msgData.write (bytes "call_callee_name") (bytes "Test name #1") }
  else line

/-- `TSPI_lineGetCallStatus`: the state that it returns. -/
def getCallStatus : CallState := line.dwCallState

end DrvLine

/-! ## The pieces of the functions -/

/-- The arguments of `TSPI_lineMakeCall`. -/
structure MakeCallArgs where
  dwRequestID : RequestId
  htCall : HTapiCall
  lpszDestAddress : List UInt16
  /-- `lpCallParams->dwMediaMode`, unless `lpCallParams` is `NULL`. -/
  callParams : Option UInt32

/-- The number to call: a `P` or a `T` in front of it is left out. -/
def MakeCallArgs.dstNumber (a : MakeCallArgs) : List UInt16 :=
  match a.lpszDestAddress with
  | [] => []
  | u :: rest => if u = 80 ∨ u = 84 then rest else u :: rest

/-- The pieces between which another thread can run. -/
inductive Task
  /-- `TSPI_lineMakeCall`, up to `ConnectToServer`. -/
  | makeCall (a : MakeCallArgs)
  /-- `ConnectToServer`, up to `rpcw.Init`. -/
  | connectToServer (a : MakeCallArgs)
  /-- `rpcw.Init` -/
  | rpcInit (a : MakeCallArgs)
  /-- `rpcw.ConnectToServer` -/
  | rpcConnectToServer (a : MakeCallArgs)
  /-- The line takes the call. -/
  | takeCall (a : MakeCallArgs)
  /-- `rpcw.MakeCall` -/
  | rpcMakeCall (a : MakeCallArgs)
  | startWatchdogThread
  | setCallState (dwCallState : CallState)
  | dropActiveCall
  /-- `rpcw.Hangup` -/
  | rpcHangup
  /-- `gpfnCompletionProc` -/
  | completion (dwRequestID : RequestId) (lResult : Option LineErr)
  /-- `return` -/
  | leave (lResult : Except LineErr RequestId)
  | processMessage (pmh : MessageHolder)
  /-- The body of the loop of `ProcessObjectMessage`. -/
  | processMember (v : Bytes × MessageHolder)
  /-- `ProcessCallMessage`, up to `LINE_NEWCALL`. -/
  | processCallMessage (msg : StdMap Bytes MessageHolder)
  /-- `LINE_NEWCALL`, when there is no call. -/
  | offerCall
  /-- The state of the call is set from `call_status`. -/
  | setCallStatus
  /-- `SetEvent` -/
  | setEvent
  /-- `TSPI_lineCloseCall`, after `DropActiveCall`. -/
  | closeCall
  /-- `TSPI_lineGetCallInfo`, as far as it changes the line. -/
  | getCallInfo
  /-- `TSPI_lineClose`, up to `delete`. -/
  | disconnect
  /-- `delete` -/
  | delete
  /-- `ResetEvent` -/
  | resetEvent
  | waitForMessage
  /-- What the watchdog does after the wait. -/
  | checkDialing

/-- What the surroundings answer to a piece. -/
inductive Answer
  /-- Nothing is asked. -/
  | nothing
  | init (api : BindingApi)
  | connectToServer (transport : Transport) (a : ConnectCall)
  /-- The memory of `statusMessage`, and the memory behind it. -/
  | makeCall (transport : Transport) (platform : Platform) (statusMessage : Buffer 255)
      (afterStatusMessage : Bytes)
  | hangup (transport : Transport) (platform : Platform)
  | disconnect (transport : Transport)
  /-- What TAPI stores in `htCall`. -/
  | newCall (htCall : Option HTapiCall)
  /-- The wait ends without the event. -/
  | timeout

/-- How a piece ends: the pieces that it puts in front of the others, or an exception that leaves
the function. -/
inductive Outcome
  | go (tasks : List Task)
  | threw

/-- The pieces that are left of a thread. -/
def Outcome.followedBy : Outcome → List Task → List Task
  | go tasks, rest => tasks ++ rest
  | threw, _ => []

/-- A line, its threads, and the service. -/
structure LineState where
  rpc : RpcServer
  line : DrvLine
  /-- The line is deleted. -/
  deleted : Bool
  /-- The event `m_hEvent` is set. -/
  signaled : Bool
  /-- What is left of the function that TAPI called. -/
  tapi : List Task
  /-- `wdThread`: what is left of it, unless it is not joinable. -/
  wdThread : Option (List Task)
  /-- The call for which `wdThread` was started. -/
  wdCall : Option HTapiCall
  log : List LineEvent

namespace LineState

/-- A line that `TSPI_lineOpen` has just made. -/
def opened (rpc : RpcServer) (dwDeviceID : UInt32) (hConn : Ptr) : LineState where
  rpc := rpc
  line := .create dwDeviceID hConn
  deleted := false
  signaled := false
  tapi := []
  wdThread := none
  wdCall := none
  log := []

variable (s : LineState)

/-- The wrapper of the line and the service. -/
def client : ClientState := ⟨s.rpc, s.line.rpcw⟩

/-- The line sends an event. -/
def send (e : LineEvent) : LineState := { s with log := s.log ++ [e] }

/-- The watchdog has work to do. -/
def Watching : Prop := ∃ t rest, s.wdThread = some (t :: rest)

/-- `SetCallState`, with the mode `0`. -/
def setCallState (dwCallState : CallState) : LineState :=
  { s with
    line := { s.line with dwCallState := dwCallState, dwCallStateMode := 0 } }.send
      (.callState s.line.htCall dwCallState 0 s.line.dwMediaMode)

end LineState

/-- The end of a call: `SetCallState`, `DropActiveCall`, `SetCallState`. -/
def giveUp : List Task := [.setCallState .disconnected, .dropActiveCall, .setCallState .idle]

/-- The thread of `StartWatchdogThread`. -/
def watchdog : List Task := [.resetEvent, .waitForMessage, .checkDialing]

/-- A failure of `TSPI_lineMakeCall`. -/
def failCall (a : MakeCallArgs) (e : LineErr) : List Task :=
  [.completion a.dwRequestID (some e), .leave (.ok a.dwRequestID)]

/-- `TSPI_lineMakeCall`, behind `rpcw.MakeCall`. -/
def callMade (a : MakeCallArgs) (bSuccess : UInt32) (statusMessage : Bytes) : List Task :=
  if bSuccess = 0 then failCall a .operationFailed
  else if statusMessage = bytes "success" then
    [.completion a.dwRequestID none, .setCallState .dialing, .startWatchdogThread,
      .leave (.ok a.dwRequestID)]
  else [.completion a.dwRequestID none, .setCallState .idle, .leave (.ok a.dwRequestID)]

/-- What `ProcessCallMessage` does for a `call_status`. -/
def callStatusTasks (status : Bytes) : List Task :=
  if status = bytes "ringing" then [.setCallState .ringback]
  else if status = bytes "connected" then [.setCallState .connected]
  else if status = bytes "completed" then giveUp
  else []

namespace LineState

variable (g : Globals) (c : ClientId) (self : UInt64)

/-- The beginning of `ProcessCallMessage`. -/
def processCallMessage (s : LineState) (msg : StdMap Bytes MessageHolder) : LineState × Outcome :=
  match DrvLine.keepStrings .empty msg.entries with
  | (msgData, some _) => ({ s with line := { s.line with msgData := msgData } }, .threw)
  | (msgData, none) =>
    let callDirection := msgData.read (bytes "call_direction")
    if s.line.shouldProcessIncomingCalls g callDirection.1 then
      let channel := callDirection.2.read (bytes "local_channel")
      ({ s with line := { s.line with
          localChannel := s.line.channelAfter channel.1
          msgData := channel.2 } },
        .go (if s.line.htCall.isNone then [.offerCall] else [.setCallStatus, .setEvent]))
    else ({ s with line := { s.line with msgData := callDirection.2 } }, .go [])

/-- `rpcw.ConnectToServer`, for a line whose address is `self`. -/
def rpcConnectToServer (s : LineState) (a : MakeCallArgs) (transport : Transport)
    (call : ConnectCall) : Option (LineState × Outcome) :=
  let call := { call with
    hCallback := self
    providerId := s.line.dwDeviceID
    connectToWS := g.gbHandleIncomingCalls ≠ 0 }
  (s.line.rpcw.connectToServer s.rpc c transport call).map fun r =>
    let s := { s with rpc := r.1, line := { s.line with rpcw := r.2.1 } }
    if r.2.2 = rpcSOk then
      ({ s with line := { s.line with bConnected := true } }, .go [.takeCall a])
    else (s, .go [.leave (.error .operationFailed)])

/-- `rpcw.MakeCall`. It leaves outputs when its status is `RPC_S_OK`. -/
def rpcMakeCall (s : LineState) (a : MakeCallArgs) (transport : Transport) (platform : Platform)
    (statusMessage : Buffer 255) (afterStatusMessage : Bytes) : Option (LineState × Outcome) :=
  let address := Provider.toBytes a.dstNumber ++ [0]
  let s' := s.send (.makeCall address)
  match s.line.rpcw.makeCall s.rpc c transport platform address statusMessage with
  | none => none
  | some (status, out) =>
    if status ≠ rpcSOk then some (s', .go (failCall a .operationFailed))
    else out.map fun out =>
      (s', .go (callMade a out.2 (cStr (out.1.bytes ++ afterStatusMessage))))

/-- What a piece does: the state afterwards, and how it ends. An answer to something that the piece
does not ask, and a `join` with a thread that is not finished, are no step. -/
def perform (s : LineState) : Task → Answer → Option (LineState × Outcome)
  | .makeCall a, .nothing =>
    some (s, .go (if s.line.htCall.isSome then failCall a .callUnavail else [.connectToServer a]))
  | .connectToServer a, .nothing =>
    some (s, .go [if s.line.bConnected then .takeCall a else .rpcInit a])
  | .rpcInit a, .init api =>
    let (rpcw, status) := s.line.rpcw.init api (bytes "ncalrpc") (bytes "NuacomService")
    some ({ s with line := { s.line with rpcw := rpcw } },
      .go [if status = rpcSOk then .rpcConnectToServer a else .leave (.error .operationFailed)])
  | .rpcConnectToServer a, .connectToServer transport call =>
    s.rpcConnectToServer g c self a transport call
  | .takeCall a, .nothing =>
    some ({ s with line := { s.line with
      htCall := some a.htCall
      bDropInProgress := false
      dwMediaMode := a.callParams.getD lineMediaModeInteractiveVoice } }, .go [.rpcMakeCall a])
  | .rpcMakeCall a, .makeCall transport platform statusMessage afterStatusMessage =>
    s.rpcMakeCall c a transport platform statusMessage afterStatusMessage
  | .startWatchdogThread, .nothing =>
    match s.wdThread with
    | some (_ :: _) => none
    | _ => some ({ s with wdThread := some watchdog, wdCall := s.line.htCall }, .go [])
  | .setCallState dwCallState, .nothing => some (s.setCallState dwCallState, .go [])
  | .dropActiveCall, .nothing =>
    some (s, .go (if s.line.htCall.isNone then [] else [.rpcHangup]))
  | .rpcHangup, .hangup _ _ => some (s.send (.hangup s.line.localChannel), .go [])
  | .completion dwRequestID lResult, .nothing =>
    some (s.send (.completion dwRequestID lResult), .go [])
  | .leave lResult, .nothing => some (s.send (.returned lResult), .go [])
  | .processMessage pmh, .nothing =>
    match pmh.getFlag with
    | .error _ => some (s.send .threw, .threw)
    | .ok flag =>
      if flag ≠ .object then some (s, .go [])
      else match pmh.members with
        | .error _ => some (s.send .threw, .threw)
        | .ok data => some (s, .go (data.entries.map .processMember))
  | .processMember v, .nothing =>
    match v.2.getFlag with
    | .error _ => some (s.send .threw, .threw)
    | .ok flag =>
      if flag ≠ .object then some (s, .go [])
      else match v.2.members with
        | .error _ => some (s.send .threw, .threw)
        | .ok data => some (s, .go [.processCallMessage data])
  | .processCallMessage msg, .nothing =>
    match s.processCallMessage g msg with
    | (s', .threw) => some (s'.send .threw, .threw)
    | (s', .go tasks) => some (s', .go tasks)
  | .offerCall, .newCall htCall =>
    let s := s.send .newCall
    match htCall with
    | none => some (s, .go [.rpcHangup])
    | some h => some ({ s with line := { s.line with htCall := some h, bIncomingCall := true } },
        .go [.setCallStatus, .setEvent])
  | .setCallStatus, .nothing =>
    let status := s.line.msgData.read (bytes "call_status")
    some ({ s with line := { s.line with msgData := status.2 } }, .go (callStatusTasks status.1))
  | .setEvent, .nothing => some ({ s with signaled := true }, .go [])
  | .closeCall, .nothing =>
    some ({ s with line := { s.line with
      htCall := none, bIncomingCall := false, msgData := .empty } }, .go [])
  | .getCallInfo, .nothing => some ({ s with line := s.line.fillCalleeName }, .go [])
  | .disconnect, .disconnect transport =>
    if s.line.bConnected then
      let r := s.line.rpcw.disconnect s.rpc c transport
      some ({ s with rpc := r.1, line := { s.line with rpcw := r.2.1 } }, .go [])
    else some (s, .go [])
  | .delete, .nothing =>
    match s.wdThread with
    | some (_ :: _) => none
    | _ => some ({ s with deleted := true, wdThread := none }, .go [])
  | .resetEvent, .nothing => some ({ s with signaled := false }, .go [])
  | .waitForMessage, .nothing => if s.signaled then some (s, .go []) else none
  | .waitForMessage, .timeout => some (s, .go [])
  | .checkDialing, .nothing =>
    some (s, .go (if s.line.dwCallState = .dialing then giveUp else []))
  | _, _ => none

end LineState

/-! ## The cases of a piece -/

section Performs

variable (g : Globals) (c : ClientId) (self : UInt64)

/-- The pieces, with the state before, the state afterwards, and how they end. -/
inductive Performs (s : LineState) : Task → LineState → Outcome → Prop
  | makeCall_busy {a : MakeCallArgs} (h : s.line.htCall ≠ none) :
      Performs s (.makeCall a) s (.go (failCall a .callUnavail))
  | makeCall_free {a : MakeCallArgs} (h : s.line.htCall = none) :
      Performs s (.makeCall a) s (.go [.connectToServer a])
  | connected {a : MakeCallArgs} (h : s.line.bConnected = true) :
      Performs s (.connectToServer a) s (.go [.takeCall a])
  | unconnected {a : MakeCallArgs} (h : s.line.bConnected = false) :
      Performs s (.connectToServer a) s (.go [.rpcInit a])
  | rpcInit {a : MakeCallArgs} (api : BindingApi) {rpcw : CRPCWrapper} {status : UInt32}
      (h : s.line.rpcw.init api (bytes "ncalrpc") (bytes "NuacomService") = (rpcw, status)) :
      Performs s (.rpcInit a) { s with line := { s.line with rpcw := rpcw } }
        (.go [if status = rpcSOk then .rpcConnectToServer a
          else .leave (.error .operationFailed)])
  | rpcConnectToServer {a : MakeCallArgs} (transport : Transport) (call : ConnectCall)
      {rpc : RpcServer} {rpcw : CRPCWrapper} {status : UInt32}
      (h : s.line.rpcw.connectToServer s.rpc c transport call = some (rpc, rpcw, status))
      (hcall : call.hCallback = self ∧ call.providerId = s.line.dwDeviceID ∧
        (call.connectToWS = true ↔ g.gbHandleIncomingCalls ≠ 0)) :
      Performs s (.rpcConnectToServer a)
        { s with
          rpc := rpc
          line := { s.line with
            rpcw := rpcw
            bConnected := if status = rpcSOk then true else s.line.bConnected } }
        (.go [if status = rpcSOk then .takeCall a else .leave (.error .operationFailed)])
  | takeCall {a : MakeCallArgs} :
      Performs s (.takeCall a)
        { s with line := { s.line with
          htCall := some a.htCall
          bDropInProgress := false
          dwMediaMode := a.callParams.getD lineMediaModeInteractiveVoice } }
        (.go [.rpcMakeCall a])
  | rpcMakeCall_failed {a : MakeCallArgs} (transport : Transport) (platform : Platform)
      (statusMessage : Buffer 255) {status : UInt32} {out : Option (Buffer 255 × UInt32)}
      (h : s.line.rpcw.makeCall s.rpc c transport platform (Provider.toBytes a.dstNumber ++ [0])
        statusMessage = some (status, out)) (hstatus : status ≠ rpcSOk) :
      Performs s (.rpcMakeCall a) (s.send (.makeCall (Provider.toBytes a.dstNumber ++ [0])))
        (.go (failCall a .operationFailed))
  | rpcMakeCall {a : MakeCallArgs} (transport : Transport) (platform : Platform)
      (statusMessage : Buffer 255) (afterStatusMessage : Bytes) {out : Buffer 255 × UInt32}
      (h : s.line.rpcw.makeCall s.rpc c transport platform (Provider.toBytes a.dstNumber ++ [0])
        statusMessage = some (rpcSOk, some out)) :
      Performs s (.rpcMakeCall a) (s.send (.makeCall (Provider.toBytes a.dstNumber ++ [0])))
        (.go (callMade a out.2 (cStr (out.1.bytes ++ afterStatusMessage))))
  | startWatchdogThread (h : ¬ s.Watching) :
      Performs s .startWatchdogThread
        { s with wdThread := some watchdog, wdCall := s.line.htCall } (.go [])
  | setCallState {dwCallState : CallState} :
      Performs s (.setCallState dwCallState) (s.setCallState dwCallState) (.go [])
  | dropActiveCall_none (h : s.line.htCall = none) : Performs s .dropActiveCall s (.go [])
  | dropActiveCall (h : s.line.htCall ≠ none) : Performs s .dropActiveCall s (.go [.rpcHangup])
  | rpcHangup : Performs s .rpcHangup (s.send (.hangup s.line.localChannel)) (.go [])
  | completion {dwRequestID : RequestId} {lResult : Option LineErr} :
      Performs s (.completion dwRequestID lResult) (s.send (.completion dwRequestID lResult))
        (.go [])
  | leave {lResult : Except LineErr RequestId} :
      Performs s (.leave lResult) (s.send (.returned lResult)) (.go [])
  | processMessage_threw {pmh : MessageHolder} {f : HolderFault}
      (h : pmh.getFlag = .error f ∨ pmh.getFlag = .ok .object ∧ pmh.members = .error f) :
      Performs s (.processMessage pmh) (s.send .threw) .threw
  | processMessage_other {pmh : MessageHolder} {flag : Flag} (h : pmh.getFlag = .ok flag)
      (hflag : flag ≠ .object) : Performs s (.processMessage pmh) s (.go [])
  | processMessage {pmh : MessageHolder} {data : StdMap Bytes MessageHolder}
      (h : pmh.getFlag = .ok .object) (hdata : pmh.members = .ok data) :
      Performs s (.processMessage pmh) s (.go (data.entries.map .processMember))
  | processMember_threw {v : Bytes × MessageHolder} {f : HolderFault}
      (h : v.2.getFlag = .error f ∨ v.2.getFlag = .ok .object ∧ v.2.members = .error f) :
      Performs s (.processMember v) (s.send .threw) .threw
  | processMember_other {v : Bytes × MessageHolder} {flag : Flag} (h : v.2.getFlag = .ok flag)
      (hflag : flag ≠ .object) : Performs s (.processMember v) s (.go [])
  | processMember {v : Bytes × MessageHolder} {data : StdMap Bytes MessageHolder}
      (h : v.2.getFlag = .ok .object) (hdata : v.2.members = .ok data) :
      Performs s (.processMember v) s (.go [.processCallMessage data])
  | processCallMessage_threw {msg : StdMap Bytes MessageHolder} {msgData : MsgData}
      {f : HolderFault} (h : DrvLine.keepStrings .empty msg.entries = (msgData, some f)) :
      Performs s (.processCallMessage msg)
        ({ s with line := { s.line with msgData := msgData } }.send .threw) .threw
  | processCallMessage_ignored {msg : StdMap Bytes MessageHolder} {msgData : MsgData}
      (h : DrvLine.keepStrings .empty msg.entries = (msgData, none))
      (hproc : s.line.shouldProcessIncomingCalls g (msgData.read (bytes "call_direction")).1 =
        false) :
      Performs s (.processCallMessage msg)
        { s with line := { s.line with msgData := (msgData.read (bytes "call_direction")).2 } }
        (.go [])
  | processCallMessage {msg : StdMap Bytes MessageHolder} {msgData : MsgData}
      {channel : Bytes × MsgData}
      (h : DrvLine.keepStrings .empty msg.entries = (msgData, none))
      (hproc : s.line.shouldProcessIncomingCalls g (msgData.read (bytes "call_direction")).1 =
        true)
      (hchannel :
        (msgData.read (bytes "call_direction")).2.read (bytes "local_channel") = channel) :
      Performs s (.processCallMessage msg)
        { s with line := { s.line with
          localChannel := s.line.channelAfter channel.1
          msgData := channel.2 } }
        (.go (if s.line.htCall.isNone then [.offerCall] else [.setCallStatus, .setEvent]))
  | offerCall_rejected : Performs s .offerCall (s.send .newCall) (.go [.rpcHangup])
  | offerCall (htCall : HTapiCall) :
      Performs s .offerCall
        { s.send .newCall with
          line := { s.line with htCall := some htCall, bIncomingCall := true } }
        (.go [.setCallStatus, .setEvent])
  | setCallStatus :
      Performs s .setCallStatus
        { s with line := { s.line with
          msgData := (s.line.msgData.read (bytes "call_status")).2 } }
        (.go (callStatusTasks (s.line.msgData.read (bytes "call_status")).1))
  | setEvent : Performs s .setEvent { s with signaled := true } (.go [])
  | closeCall :
      Performs s .closeCall
        { s with line := { s.line with htCall := none, bIncomingCall := false, msgData := .empty } }
        (.go [])
  | getCallInfo : Performs s .getCallInfo { s with line := s.line.fillCalleeName } (.go [])
  | disconnect (transport : Transport) (h : s.line.bConnected = true) :
      Performs s .disconnect
        { s with
          rpc := (s.line.rpcw.disconnect s.rpc c transport).1
          line := { s.line with rpcw := (s.line.rpcw.disconnect s.rpc c transport).2.1 } }
        (.go [])
  | disconnect_not (h : s.line.bConnected = false) : Performs s .disconnect s (.go [])
  | delete (h : ¬ s.Watching) :
      Performs s .delete { s with deleted := true, wdThread := none } (.go [])
  | resetEvent : Performs s .resetEvent { s with signaled := false } (.go [])
  | waitForMessage : Performs s .waitForMessage s (.go [])
  | checkDialing (h : s.line.dwCallState = .dialing) : Performs s .checkDialing s (.go giveUp)
  | checkDialing_not (h : s.line.dwCallState ≠ .dialing) : Performs s .checkDialing s (.go [])

variable {g c self} {s s' : LineState} {t : Task} {answer : Answer} {o : Outcome}

/-- A thread that has no work left is none, or finished. -/
theorem LineState.not_watching_of (h : ∀ t rest, s.wdThread ≠ some (t :: rest)) :
    ¬ s.Watching := by
  rintro ⟨t, rest, hw⟩
  exact h t rest hw

/-- The beginning of `ProcessCallMessage`.

**Proof sketch.** By the loop that keeps the texts, and by whether the call is to be processed. -/
theorem LineState.performs_processCallMessage {msg : StdMap Bytes MessageHolder}
    (h : s.perform g c self (.processCallMessage msg) .nothing = some (s', o)) :
    Performs g c self s (.processCallMessage msg) s' o := by
  simp only [perform, LineState.processCallMessage] at h
  rcases hkeep : DrvLine.keepStrings .empty msg.entries with ⟨msgData, _ | f⟩
  · rw [hkeep] at h
    by_cases hproc : s.line.shouldProcessIncomingCalls g (msgData.read (bytes "call_direction")).1
    · simp only [hproc, if_true, Option.some.injEq, Prod.mk.injEq] at h
      obtain ⟨rfl, rfl⟩ := h
      exact .processCallMessage hkeep hproc rfl
    · simp only [hproc, Bool.false_eq_true, if_false, Option.some.injEq, Prod.mk.injEq] at h
      obtain ⟨rfl, rfl⟩ := h
      exact .processCallMessage_ignored hkeep (by simpa using hproc)
  · rw [hkeep] at h
    simp only [Option.some.injEq, Prod.mk.injEq] at h
    obtain ⟨rfl, rfl⟩ := h
    exact .processCallMessage_threw hkeep

/-- `rpcw.ConnectToServer`.

**Proof sketch.** By the status. -/
theorem LineState.performs_rpcConnectToServer {a : MakeCallArgs} {transport : Transport}
    {call : ConnectCall}
    (h : s.rpcConnectToServer g c self a transport call = some (s', o)) :
    Performs g c self s (.rpcConnectToServer a) s' o := by
  obtain ⟨⟨rpc, rpcw, status⟩, hr, heq⟩ := Option.map_eq_some_iff.mp h
  have hcall : Performs g c self s (.rpcConnectToServer a) _ _ :=
    .rpcConnectToServer transport _ hr ⟨rfl, rfl, by simp⟩
  by_cases hstatus : status = rpcSOk
  · simp only [hstatus, if_true, Prod.mk.injEq] at heq
    obtain ⟨rfl, rfl⟩ := heq
    simpa only [hstatus, if_true] using hcall
  · simp only [hstatus, if_false, Prod.mk.injEq] at heq
    obtain ⟨rfl, rfl⟩ := heq
    simpa only [hstatus, if_false] using hcall

/-- `rpcw.MakeCall`.

**Proof sketch.** By the status; after a failed call the output parameters are not looked at. -/
theorem LineState.performs_rpcMakeCall {a : MakeCallArgs} {transport : Transport}
    {platform : Platform} {statusMessage : Buffer 255} {afterStatusMessage : Bytes}
    (h : s.rpcMakeCall c a transport platform statusMessage afterStatusMessage = some (s', o)) :
    Performs g c self s (.rpcMakeCall a) s' o := by
  simp only [rpcMakeCall] at h
  split at h
  · simp at h
  · rename_i status out hcall
    by_cases hstatus : status = rpcSOk
    · simp only [hstatus, ne_eq, not_true_eq_false, if_false] at h
      obtain ⟨out, rfl, heq⟩ := Option.map_eq_some_iff.mp h
      obtain ⟨rfl, rfl⟩ := Prod.mk.inj heq
      exact .rpcMakeCall transport platform statusMessage afterStatusMessage (hstatus ▸ hcall)
    · simp only [hstatus, ne_eq, not_false_eq_true, if_true, Option.some.injEq,
        Prod.mk.injEq] at h
      obtain ⟨rfl, rfl⟩ := h
      exact .rpcMakeCall_failed transport platform statusMessage hcall hstatus

/-- The pieces of an incoming message.

**Proof sketch.** By the flag, and by the members when it is an object. -/
theorem LineState.performs_processMessage {pmh : MessageHolder}
    (h : s.perform g c self (.processMessage pmh) .nothing = some (s', o)) :
    Performs g c self s (.processMessage pmh) s' o := by
  simp only [perform] at h
  split at h
  · rename_i f hflag
    obtain ⟨rfl, rfl⟩ := Prod.mk.inj (Option.some.inj h)
    exact .processMessage_threw (.inl hflag)
  · rename_i flag hflag
    split_ifs at h with hobject
    · obtain ⟨rfl, rfl⟩ := Prod.mk.inj (Option.some.inj h)
      exact .processMessage_other hflag hobject
    · obtain rfl : flag = .object := not_not.mp hobject
      split at h
      · rename_i f hmembers
        obtain ⟨rfl, rfl⟩ := Prod.mk.inj (Option.some.inj h)
        exact .processMessage_threw (.inr ⟨hflag, hmembers⟩)
      · rename_i data hmembers
        obtain ⟨rfl, rfl⟩ := Prod.mk.inj (Option.some.inj h)
        exact .processMessage hflag hmembers

/-- A member throws, is skipped, or is taken apart.

**Proof sketch.** By the flag, and by the members when it is an object. -/
theorem LineState.performs_processMember {v : Bytes × MessageHolder}
    (h : s.perform g c self (.processMember v) .nothing = some (s', o)) :
    Performs g c self s (.processMember v) s' o := by
  simp only [perform] at h
  split at h
  · rename_i f hflag
    obtain ⟨rfl, rfl⟩ := Prod.mk.inj (Option.some.inj h)
    exact .processMember_threw (.inl hflag)
  · rename_i flag hflag
    split_ifs at h with hobject
    · obtain ⟨rfl, rfl⟩ := Prod.mk.inj (Option.some.inj h)
      exact .processMember_other hflag hobject
    · obtain rfl : flag = .object := not_not.mp hobject
      split at h
      · rename_i f hmembers
        obtain ⟨rfl, rfl⟩ := Prod.mk.inj (Option.some.inj h)
        exact .processMember_threw (.inr ⟨hflag, hmembers⟩)
      · rename_i data hmembers
        obtain ⟨rfl, rfl⟩ := Prod.mk.inj (Option.some.inj h)
        exact .processMember hflag hmembers

/-- **The cases of a piece.** What a piece does is one of its cases.

**Proof sketch.** By the piece and the answer. -/
theorem LineState.performs_of_perform (h : s.perform g c self t answer = some (s', o)) :
    Performs g c self s t s' o := by
  unfold perform at h
  split at h
  case h_1 a =>
    obtain ⟨rfl, rfl⟩ := Prod.mk.inj (Option.some.inj h)
    cases hcall : s.line.htCall with
    | none => exact .makeCall_free hcall
    | some x => exact .makeCall_busy (by simp [hcall])
  case h_2 a =>
    obtain ⟨rfl, rfl⟩ := Prod.mk.inj (Option.some.inj h)
    cases hconn : s.line.bConnected with
    | true => exact .connected hconn
    | false => exact .unconnected hconn
  case h_3 a api =>
    obtain ⟨rfl, rfl⟩ := Prod.mk.inj (Option.some.inj h)
    exact .rpcInit api rfl
  case h_4 => exact performs_rpcConnectToServer h
  case h_5 =>
    obtain ⟨rfl, rfl⟩ := Prod.mk.inj (Option.some.inj h)
    exact .takeCall
  case h_6 => exact performs_rpcMakeCall h
  case h_7 =>
    split at h
    · simp at h
    · rename_i hjoin
      obtain ⟨rfl, rfl⟩ := Prod.mk.inj (Option.some.inj h)
      exact .startWatchdogThread (not_watching_of fun t rest => hjoin t rest)
  case h_9 =>
    obtain ⟨rfl, rfl⟩ := Prod.mk.inj (Option.some.inj h)
    cases hcall : s.line.htCall with
    | none => exact .dropActiveCall_none hcall
    | some x => exact .dropActiveCall (by simp [hcall])
  case h_13 pmh => exact performs_processMessage h
  case h_14 v => exact performs_processMember h
  case h_15 msg => exact performs_processCallMessage h
  case h_16 htCall =>
    cases htCall with
    | none =>
      obtain ⟨rfl, rfl⟩ := Prod.mk.inj (Option.some.inj h)
      exact .offerCall_rejected
    | some x =>
      obtain ⟨rfl, rfl⟩ := Prod.mk.inj (Option.some.inj h)
      exact .offerCall x
  case h_21 transport =>
    split_ifs at h with hconn
    · obtain ⟨rfl, rfl⟩ := Prod.mk.inj (Option.some.inj h)
      exact .disconnect transport hconn
    · obtain ⟨rfl, rfl⟩ := Prod.mk.inj (Option.some.inj h)
      exact .disconnect_not (by simpa using hconn)
  case h_22 =>
    split at h
    · simp at h
    · rename_i hjoin
      obtain ⟨rfl, rfl⟩ := Prod.mk.inj (Option.some.inj h)
      exact .delete (not_watching_of fun t rest => hjoin t rest)
  case h_24 =>
    split_ifs at h with hsignaled
    obtain ⟨rfl, rfl⟩ := Prod.mk.inj (Option.some.inj h)
    exact .waitForMessage
  case h_26 =>
    obtain ⟨rfl, rfl⟩ := Prod.mk.inj (Option.some.inj h)
    by_cases hdialing : s.line.dwCallState = .dialing
    · rw [if_pos hdialing]
      exact .checkDialing hdialing
    · rw [if_neg hdialing]
      exact .checkDialing_not hdialing
  case h_27 => simp at h
  all_goals
    obtain ⟨rfl, rfl⟩ := Prod.mk.inj (Option.some.inj h)
    constructor

end Performs

/-! ## The functions and the threads -/

/-- The functions that TAPI calls on a line. -/
inductive TspiCall
  | lineMakeCall (a : MakeCallArgs)
  | lineDrop (dwRequestID : RequestId)
  | lineCloseCall
  | lineGetCallInfo
  /-- `TSPI_lineDevSpecific`: the message for this line, when the command is `SEND_STRING`. -/
  | lineDevSpecific (dwRequestID : RequestId) (pmh : Option MessageHolder)
  | lineClose

/-- The pieces of a function. -/
def TspiCall.tasks : TspiCall → List Task
  | lineMakeCall a => [.makeCall a]
  | lineDrop dwRequestID => [.dropActiveCall, .setCallState .idle, .completion dwRequestID none,
      .leave (.ok dwRequestID)]
  | lineCloseCall => [.dropActiveCall, .closeCall, .leave (.ok 0)]
  | lineGetCallInfo => [.getCallInfo, .leave (.ok 0)]
  | lineDevSpecific dwRequestID pmh => pmh.toList.map .processMessage ++
      [.completion dwRequestID none, .leave (.ok dwRequestID)]
  | lineClose => [.disconnect, .delete, .leave (.ok 0)]

/-- The request id of a function that is asynchronous. -/
def TspiCall.requestId : TspiCall → Option RequestId
  | lineMakeCall a => some a.dwRequestID
  | lineDrop dwRequestID => some dwRequestID
  | lineDevSpecific dwRequestID _ => some dwRequestID
  | lineCloseCall | lineGetCallInfo | lineClose => none

/-- Who moves: TAPI calls a function, the function goes on, or the watchdog does. -/
inductive LineLabel
  | call (f : TspiCall)
  | tapi (answer : Answer)
  | watchdog (answer : Answer)

/-- The steps of a line at the address `self`, for the client `c` of the service. -/
def LineState.next (g : Globals) (c : ClientId) (self : UInt64) (s : LineState) :
    LineLabel → Option LineState
  | .call f => if s.deleted = false ∧ s.tapi = [] then some { s with tapi := f.tasks } else none
  | .tapi answer =>
    match s.tapi with
    | [] => none
    | t :: rest => (s.perform g c self t answer).map fun r =>
        { r.1 with tapi := r.2.followedBy rest }
  | .watchdog answer =>
    match s.wdThread with
    | some (t :: rest) => (s.perform g c self t answer).map fun r =>
        { r.1 with wdThread := some (r.2.followedBy rest) }
    | _ => none

/-- The ways in which a line moves: TAPI calls a function, the function goes on with its next
piece, or the watchdog does.

**Proof sketch.** By the label of the step. -/
theorem LineState.next_cases {g : Globals} {c : ClientId} {self : UInt64} {s s' : LineState}
    {e : LineLabel} (h : s.next g c self e = some s') :
    (∃ f, e = .call f ∧ s.deleted = false ∧ s.tapi = [] ∧ s' = { s with tapi := f.tasks }) ∨
      (∃ answer t rest r o, e = .tapi answer ∧ s.tapi = t :: rest ∧ Performs g c self s t r o ∧
        s' = { r with tapi := o.followedBy rest }) ∨
      (∃ answer t rest r o, e = .watchdog answer ∧ s.wdThread = some (t :: rest) ∧
        Performs g c self s t r o ∧ s' = { r with wdThread := some (o.followedBy rest) }) := by
  cases e with
  | call f =>
    simp only [next] at h
    split_ifs at h with hidle
    exact .inl ⟨f, rfl, hidle.1, hidle.2, (Option.some.inj h).symm⟩
  | tapi answer =>
    simp only [next] at h
    split at h
    · simp at h
    · rename_i t rest htapi
      obtain ⟨⟨r, o⟩, hr, rfl⟩ := Option.map_eq_some_iff.mp h
      exact .inr (.inl ⟨answer, t, rest, r, o, rfl, htapi, performs_of_perform hr, rfl⟩)
  | watchdog answer =>
    simp only [next] at h
    split at h
    · rename_i t rest hwd
      obtain ⟨⟨r, o⟩, hr, rfl⟩ := Option.map_eq_some_iff.mp h
      exact .inr (.inr ⟨answer, t, rest, r, o, rfl, hwd, performs_of_perform hr, rfl⟩)
    · simp at h

end Nuacom
