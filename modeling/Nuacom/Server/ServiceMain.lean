import Nuacom.Support.Transition
import Mathlib.Logic.Function.Basic

set_option relaxedAutoImplicit false
set_option autoImplicit false

/-!
# The service process and its status

`service_main` runs in one thread and hands the status of the service to the service control
manager, through `ReportStatusToSCMgr`. The service control manager calls `service_ctrl` in
another thread, which uses the same function. The status record is a global that both threads
write, a field at a time.

## Main definitions

* `Nuacom.ServiceProcess` — the globals of `Service.cpp`, and where the two threads are.
* `Nuacom.ServiceProcess.report` — one line of `ReportStatusToSCMgr`.
* `Nuacom.ServiceProcess.serviceMain`, `Nuacom.ServiceProcess.serviceCtrl` — one step of each
  thread.
* `Nuacom.ReportsOutcome` — the report at the end of `service_main` carries an exit code that says
  whether the service failed.

## Main results

* `Nuacom.ServiceProcess.Inv.next` — the exit code is zero in every step in which
  `SetServiceStatus` succeeds.
* `Nuacom.reportsOutcome_iff` — the last report tells the outcome exactly when no step failed.

## Implementation notes

Every line of `ReportStatusToSCMgr` is a step of its own, so that the threads interleave between
the writes to the record. The record is handed over as it is at the call of `SetServiceStatus`.
`AddToMessageLog` is modelled up to its assignment to `dwErr`; the writing of the log is not.
-/

namespace Nuacom

open Transition

/-! ## The status record -/

/-- `SERVICE_STATUS` -/
structure ServiceStatus where
  dwServiceType : UInt32
  dwCurrentState : UInt32
  dwControlsAccepted : UInt32
  dwWin32ExitCode : UInt32
  dwServiceSpecificExitCode : UInt32
  dwCheckPoint : UInt32
  dwWaitHint : UInt32
  deriving DecidableEq, Repr

/-- `SERVICE_STOPPED` -/
def serviceStopped : UInt32 := 1

/-- `SERVICE_START_PENDING` -/
def serviceStartPending : UInt32 := 2

/-- `SERVICE_STOP_PENDING` -/
def serviceStopPending : UInt32 := 3

/-- `SERVICE_RUNNING` -/
def serviceRunning : UInt32 := 4

/-- `SERVICE_WIN32_OWN_PROCESS` -/
def serviceWin32OwnProcess : UInt32 := 0x10

/-- `SERVICE_ACCEPT_STOP` -/
def serviceAcceptStop : UInt32 := 1

/-- `SERVICE_CONTROL_STOP` -/
def serviceControlStop : UInt32 := 1

/-- `NO_ERROR` -/
def noError : UInt32 := 0

/-! ## The process -/

/-- The next line of a `ReportStatusToSCMgr` that is running. -/
inductive ReportLine
  /-- The test of `bDebug`. -/
  | bDebug
  | dwControlsAccepted
  | dwCurrentState
  | dwWin32ExitCode
  | dwWaitHint
  | dwCheckPoint
  | setServiceStatus
  | returned (fResult : Bool)
  deriving DecidableEq, Repr

/-- A call of `ReportStatusToSCMgr`: its arguments, and where it is. -/
structure ReportCall where
  dwCurrentState : UInt32
  dwWin32ExitCode : UInt32
  dwWaitHint : UInt32
  line : ReportLine
  deriving DecidableEq, Repr

/-- Where `service_main` is. The calls of the RPC runtime are those of `ServiceStart`. -/
inductive MainPc
  | registerServiceCtrlHandler
  /-- The members of the record that do not change. -/
  | statusMembers
  | startPending (r : ReportCall)
  | useProtseqEp
  | registerIf
  | listen
  | running (r : ReportCall)
  | waitServerListen
  /-- The label `cleanup`. -/
  | cleanup
  | stopped (r : ReportCall)
  | returned
  deriving DecidableEq, Repr

/-- The report that `service_main` is in. -/
def MainPc.call : MainPc → Option ReportCall
  | .startPending r | .running r | .stopped r => some r
  | _ => none

/-- Where `service_ctrl` is. -/
inductive CtrlPc
  /-- No control is being handled. -/
  | idle
  | stopPending (r : ReportCall)
  | serviceStop
  | current (r : ReportCall)
  deriving DecidableEq, Repr

/-- The report that `service_ctrl` is in. -/
def CtrlPc.call : CtrlPc → Option ReportCall
  | .stopPending r | .current r => some r
  | _ => none

/-- The two threads. -/
inductive ServiceThread
  | main
  | ctrl
  deriving DecidableEq, Repr

/-- The globals of `Service.cpp`, the state of the RPC runtime and the threads. -/
structure ServiceProcess where
  ssStatus : ServiceStatus
  sshStatusHandle : ℕ
  dwErr : UInt32
  bDebug : Bool
  /-- The static counter of `ReportStatusToSCMgr`. -/
  dwCheckPoint : UInt32
  /-- The last-error code of each thread. -/
  lastError : ServiceThread → UInt32
  /-- The RPC runtime listens for calls. -/
  listening : Bool
  main : MainPc
  ctrl : CtrlPc

/-- The process in which the service control dispatcher starts `service_main`. -/
def ServiceProcess.start : ServiceProcess where
  ssStatus := ⟨0, 0, 0, 0, 0, 0, 0⟩
  sshStatusHandle := 0
  dwErr := 0
  bDebug := false
  dwCheckPoint := 1
  lastError := fun _ => 0
  listening := false
  main := .registerServiceCtrlHandler
  ctrl := .idle

/-- What the system answers to a step. -/
structure ServiceAnswer where
  /-- What `RegisterServiceCtrlHandler` returns. -/
  handle : ℕ
  /-- What a function of the RPC runtime returns. -/
  status : UInt32
  /-- What `SetServiceStatus` returns. -/
  fResult : Bool
  /-- The last-error code that a failing `SetServiceStatus` leaves. -/
  lastError : UInt32
  deriving DecidableEq, Repr

/-- The steps of the process. -/
inductive ServiceEvent
  /-- `service_main` takes a step. -/
  | main (ans : ServiceAnswer)
  /-- `service_ctrl` takes a step. -/
  | ctrl (ans : ServiceAnswer)
  /-- The service control manager calls `service_ctrl`. -/
  | control (dwCtrlCode : UInt32)
  deriving DecidableEq, Repr

/-- `SetServiceStatus` does not fail in this step. -/
def ServiceEvent.SetServiceStatusSucceeds : ServiceEvent → Prop
  | .main ans | .ctrl ans => ans.fResult = true
  | .control _ => True

namespace ServiceProcess

/-- `SetLastError` -/
def setLastError (p : ServiceProcess) (who : ServiceThread) (code : UInt32) : ServiceProcess :=
  { p with lastError := Function.update p.lastError who code }

/-- `AddToMessageLog`, up to the writing of the log. -/
def addToMessageLog (p : ServiceProcess) (who : ServiceThread) : ServiceProcess :=
  if p.bDebug then p else { p with dwErr := p.lastError who }

/-- One line of `ReportStatusToSCMgr`, and the line after it. -/
def report (p : ServiceProcess) (who : ServiceThread) (r : ReportCall) (ans : ServiceAnswer) :
    ServiceProcess × ReportLine :=
  match r.line with
  | .bDebug => (p, if p.bDebug then .returned true else .dwControlsAccepted)
  | .dwControlsAccepted =>
    ({ p with ssStatus.dwControlsAccepted :=
        if r.dwCurrentState = serviceStartPending then 0 else serviceAcceptStop },
      .dwCurrentState)
  | .dwCurrentState => ({ p with ssStatus.dwCurrentState := r.dwCurrentState }, .dwWin32ExitCode)
  | .dwWin32ExitCode => ({ p with ssStatus.dwWin32ExitCode := r.dwWin32ExitCode }, .dwWaitHint)
  | .dwWaitHint => ({ p with ssStatus.dwWaitHint := r.dwWaitHint }, .dwCheckPoint)
  | .dwCheckPoint =>
    (if r.dwCurrentState = serviceRunning ∨ r.dwCurrentState = serviceStopped then
        { p with ssStatus.dwCheckPoint := 0 }
      else
        { p with ssStatus.dwCheckPoint := p.dwCheckPoint, dwCheckPoint := p.dwCheckPoint + 1 },
      .setServiceStatus)
  | .setServiceStatus =>
    if ans.fResult then (p, .returned true)
    else ((p.setLastError who ans.lastError).addToMessageLog who, .returned false)
  | .returned fResult => (p, .returned fResult)

/-- A step of a thread that is in a `ReportStatusToSCMgr`: the next line of it, with the call put
back where the thread keeps it, or what the thread does with the result. -/
def advance (p : ServiceProcess) (who : ServiceThread) (r : ReportCall) (ans : ServiceAnswer)
    (within : ServiceProcess → ReportCall → ServiceProcess) (after : Bool → ServiceProcess) :
    ServiceProcess :=
  match r.line with
  | .returned fResult => after fResult
  | _ => within (p.report who r ans).1 { r with line := (p.report who r ans).2 }

/-- A call of the RPC runtime in `ServiceStart`: a status other than zero becomes the last-error
code, and `ServiceStart` returns. -/
def rpcCall (p : ServiceProcess) (ans : ServiceAnswer) (after : MainPc) : ServiceProcess :=
  if ans.status ≠ 0 then { p.setLastError .main ans.status with main := .cleanup }
  else { p with main := after }

/-- A step of `service_main`; `none` while it waits, and when it has returned. -/
def serviceMain (p : ServiceProcess) (ans : ServiceAnswer) : Option ServiceProcess :=
  match p.main with
  | .registerServiceCtrlHandler =>
    some { p with
      sshStatusHandle := ans.handle
      main := if ans.handle = 0 then .cleanup else .statusMembers }
  | .statusMembers =>
    some { p with
      ssStatus.dwServiceType := serviceWin32OwnProcess
      ssStatus.dwServiceSpecificExitCode := 0
      main := .startPending ⟨serviceStartPending, noError, 3000, .bDebug⟩ }
  | .startPending r =>
    some (p.advance .main r ans (fun q r => { q with main := .startPending r })
      fun fResult => { p with main := if fResult then .useProtseqEp else .cleanup })
  | .useProtseqEp => some (p.rpcCall ans .registerIf)
  | .registerIf => some (p.rpcCall ans .listen)
  | .listen =>
    -- the second test of the status, after this one, finds it zero
    some (if ans.status ≠ 0 then p.rpcCall ans .cleanup
      else { p with listening := true, main := .running ⟨serviceRunning, noError, 0, .bDebug⟩ })
  | .running r =>
    some (p.advance .main r ans (fun q r => { q with main := .running r })
      fun fResult => { p with main := if fResult then .waitServerListen else .cleanup })
  | .waitServerListen =>
    -- the status is not looked at
    if ans.status = 0 ∧ p.listening then none else some { p with main := .cleanup }
  | .cleanup =>
    some { p with
      main := if p.sshStatusHandle ≠ 0 then .stopped ⟨serviceStopped, p.dwErr, 0, .bDebug⟩
        else .returned }
  | .stopped r =>
    some (p.advance .main r ans (fun q r => { q with main := .stopped r })
      fun _ => { p with main := .returned })
  | .returned => none

/-- A step of `service_ctrl`. -/
def serviceCtrl (p : ServiceProcess) (ans : ServiceAnswer) : Option ServiceProcess :=
  match p.ctrl with
  | .idle => none
  | .stopPending r =>
    some (p.advance .ctrl r ans (fun q r => { q with ctrl := .stopPending r })
      fun _ => { p with ctrl := .serviceStop })
  | .serviceStop =>
    -- `RpcMgmtStopServerListening`
    some { p with listening := false, ctrl := .idle }
  | .current r =>
    some (p.advance .ctrl r ans (fun q r => { q with ctrl := .current r })
      fun _ => { p with ctrl := .idle })

/-- The service control manager calls `service_ctrl`, one control at a time, once it is
registered. -/
def control (p : ServiceProcess) (dwCtrlCode : UInt32) : Option ServiceProcess :=
  if p.sshStatusHandle ≠ 0 ∧ p.ctrl = .idle then
    some { p with
      ctrl := if dwCtrlCode = serviceControlStop then
          .stopPending ⟨serviceStopPending, noError, 0, .bDebug⟩
        else .current ⟨p.ssStatus.dwCurrentState, noError, 0, .bDebug⟩ }
  else none

/-- The steps of the process. -/
def next (p : ServiceProcess) : ServiceEvent → Option ServiceProcess
  | .main ans => p.serviceMain ans
  | .ctrl ans => p.serviceCtrl ans
  | .control dwCtrlCode => p.control dwCtrlCode

/-! ## What a report leaves alone -/

section Report

variable (p : ServiceProcess) (who : ServiceThread) (r : ReportCall) (ans : ServiceAnswer)

/-- Logging leaves the debug flag as it is. -/
@[simp]
theorem addToMessageLog_bDebug : (p.addToMessageLog who).bDebug = p.bDebug := by
  unfold addToMessageLog
  split <;> rfl

/-- Logging leaves the status handle as it is. -/
@[simp]
theorem addToMessageLog_sshStatusHandle :
    (p.addToMessageLog who).sshStatusHandle = p.sshStatusHandle := by
  unfold addToMessageLog
  split <;> rfl

/-- Logging moves no thread: neither that of `service_main` -/
@[simp]
theorem addToMessageLog_main : (p.addToMessageLog who).main = p.main := by
  unfold addToMessageLog
  split <;> rfl

/-- nor that of `service_ctrl`. -/
@[simp]
theorem addToMessageLog_ctrl : (p.addToMessageLog who).ctrl = p.ctrl := by
  unfold addToMessageLog
  split <;> rfl

/-- A report changes no control flow but its own: the handle, the mode and both threads are as
before.

**Proof sketch.** By the line of the report. -/
theorem report_frame :
    (p.report who r ans).1.bDebug = p.bDebug ∧
    (p.report who r ans).1.sshStatusHandle = p.sshStatusHandle ∧
    (p.report who r ans).1.main = p.main ∧ (p.report who r ans).1.ctrl = p.ctrl := by
  unfold report
  cases r.line with
  | dwCheckPoint =>
    dsimp only
    split <;> exact ⟨rfl, rfl, rfl, rfl⟩
  | setServiceStatus =>
    dsimp only
    split
    · exact ⟨rfl, rfl, rfl, rfl⟩
    · simp [setLastError]
  | _ => exact ⟨rfl, rfl, rfl, rfl⟩

end Report

/-- A step of a thread in a report is the result, or a line of the report. -/
theorem advance_cases (p : ServiceProcess) (who : ServiceThread) (r : ReportCall)
    (ans : ServiceAnswer) (within : ServiceProcess → ReportCall → ServiceProcess)
    (after : Bool → ServiceProcess) :
    (∃ fResult, r.line = .returned fResult ∧
      p.advance who r ans within after = after fResult) ∨
    p.advance who r ans within after =
      within (p.report who r ans).1 { r with line := (p.report who r ans).2 } := by
  unfold advance
  cases r.line with
  | returned fResult => exact .inl ⟨fResult, rfl, rfl⟩
  | _ => exact .inr rfl

/-! ## What a step does -/

/-- The places of `service_main` that a step without an effect of its own leads to. -/
def betweenReports : List MainPc := [.useProtseqEp, .registerIf, .listen, .waitServerListen, .cleanup]

/-- What one step of `service_main` can do. -/
inductive MainStep (p : ServiceProcess) (ans : ServiceAnswer) : ServiceProcess → Prop
  | registerServiceCtrlHandler (h : p.main = .registerServiceCtrlHandler) :
      MainStep p ans { p with
        sshStatusHandle := ans.handle
        main := if ans.handle = 0 then .cleanup else .statusMembers }
  | statusMembers (h : p.main = .statusMembers) :
      MainStep p ans { p with
        ssStatus.dwServiceType := serviceWin32OwnProcess
        ssStatus.dwServiceSpecificExitCode := 0
        main := .startPending ⟨serviceStartPending, noError, 3000, .bDebug⟩ }
  /-- A line of a report. -/
  | line {pc : ReportCall → MainPc} {r : ReportCall} (h : p.main = pc r)
      (hpc : pc ∈ [MainPc.startPending, MainPc.running, MainPc.stopped]) :
      MainStep p ans { (p.report .main r ans).1 with
        main := pc { r with line := (p.report .main r ans).2 } }
  /-- A report, a function of the RPC runtime or the wait is over. -/
  | goOn {pc : MainPc} (hpc : pc ∈ betweenReports) : MainStep p ans { p with main := pc }
  /-- A function of the RPC runtime fails. -/
  | rpcFailed : MainStep p ans { p.setLastError .main ans.status with main := .cleanup }
  | listening : MainStep p ans { p with
      listening := true
      main := .running ⟨serviceRunning, noError, 0, .bDebug⟩ }
  | cleanup (h : p.main = .cleanup) : MainStep p ans { p with
      main := if p.sshStatusHandle ≠ 0 then .stopped ⟨serviceStopped, p.dwErr, 0, .bDebug⟩
        else .returned }
  | returned {r : ReportCall} {b : Bool} (h : p.main = .stopped r) (hr : r.line = .returned b) :
      MainStep p ans { p with main := .returned }

/-- A call of the RPC runtime fails, or goes on. -/
theorem rpcCall_step {p : ServiceProcess} {ans : ServiceAnswer} {after : MainPc}
    (hafter : after ∈ betweenReports) : p.MainStep ans (p.rpcCall ans after) := by
  unfold rpcCall
  split
  · exact .rpcFailed
  · exact .goOn hafter

/-- A step in one of the first two reports is a line of it, or goes on. -/
theorem advance_step {p : ServiceProcess} {ans : ServiceAnswer} {r : ReportCall}
    {pc : ReportCall → MainPc} {after : Bool → MainPc} (h : p.main = pc r)
    (hpc : pc ∈ [MainPc.startPending, MainPc.running, MainPc.stopped])
    (hafter : ∀ b, after b ∈ betweenReports) :
    p.MainStep ans (p.advance .main r ans (fun q r => { q with main := pc r })
      fun b => { p with main := after b }) := by
  rcases advance_cases p .main r ans (fun q r => { q with main := pc r })
    (fun b => { p with main := after b }) with ⟨b, -, hb⟩ | hline
  · rw [hb]
    exact .goOn (hafter b)
  · rw [hline]
    exact .line h hpc

/-- Every step of `service_main` is one of these.

**Proof sketch.** By the place of the thread. -/
theorem serviceMain_step {p p' : ServiceProcess} {ans : ServiceAnswer}
    (h : p.serviceMain ans = some p') : p.MainStep ans p' := by
  unfold serviceMain at h
  cases hmain : p.main with
  | registerServiceCtrlHandler =>
    rw [hmain] at h
    obtain rfl := Option.some.inj h
    exact .registerServiceCtrlHandler hmain
  | statusMembers =>
    rw [hmain] at h
    obtain rfl := Option.some.inj h
    exact .statusMembers hmain
  | startPending r =>
    rw [hmain] at h
    obtain rfl := Option.some.inj h
    exact advance_step hmain (by simp) fun b => by cases b <;> simp [betweenReports]
  | useProtseqEp =>
    rw [hmain] at h
    obtain rfl := Option.some.inj h
    exact rpcCall_step (by simp [betweenReports])
  | registerIf =>
    rw [hmain] at h
    obtain rfl := Option.some.inj h
    exact rpcCall_step (by simp [betweenReports])
  | listen =>
    rw [hmain] at h
    obtain rfl := Option.some.inj h
    split
    · exact rpcCall_step (by simp [betweenReports])
    · exact .listening
  | running r =>
    rw [hmain] at h
    obtain rfl := Option.some.inj h
    exact advance_step hmain (by simp) fun b => by cases b <;> simp [betweenReports]
  | waitServerListen =>
    rw [hmain] at h
    dsimp only at h
    split at h
    · simp at h
    · obtain rfl := Option.some.inj h
      exact .goOn (by simp [betweenReports])
  | cleanup =>
    rw [hmain] at h
    obtain rfl := Option.some.inj h
    exact .cleanup hmain
  | stopped r =>
    rw [hmain] at h
    obtain rfl := Option.some.inj h
    rcases advance_cases p .main r ans (fun q r => { q with main := .stopped r })
      (fun _ => { p with main := .returned }) with ⟨b, hb, hend⟩ | hline
    · rw [hend]
      exact .returned hmain hb
    · rw [hline]
      exact .line hmain (by simp)
  | returned =>
    rw [hmain] at h
    simp at h

/-- What one step of `service_ctrl` can do. -/
inductive CtrlStep (p : ServiceProcess) (ans : ServiceAnswer) : ServiceProcess → Prop
  /-- A line of a report. -/
  | line {r : ReportCall} {pc : CtrlPc} (h : p.ctrl.call = some r)
      (hpc : pc.call = some { r with line := (p.report .ctrl r ans).2 }) :
      CtrlStep p ans { (p.report .ctrl r ans).1 with ctrl := pc }
  /-- A report is over, or the server is stopped. -/
  | goOn {pc : CtrlPc} {listening : Bool} (hpc : pc.call = none) :
      CtrlStep p ans { p with listening := listening, ctrl := pc }

/-- Every step of `service_ctrl` is one of these.

**Proof sketch.** By the place of the thread; both of its reports are treated alike. -/
theorem serviceCtrl_step {p p' : ServiceProcess} {ans : ServiceAnswer}
    (h : p.serviceCtrl ans = some p') : p.CtrlStep ans p' := by
  have hadvance : ∀ (r : ReportCall) (pc : ReportCall → CtrlPc) (after : CtrlPc),
      p.ctrl = pc r → (∀ r, (pc r).call = some r) → after.call = none →
      p.CtrlStep ans (p.advance .ctrl r ans (fun q r => { q with ctrl := pc r })
        fun _ => { p with ctrl := after }) := by
    intro r pc after hctrl hpc hafter
    rcases advance_cases p .ctrl r ans (fun q r => { q with ctrl := pc r })
      (fun _ => { p with ctrl := after }) with ⟨b, -, hend⟩ | hline
    · rw [hend]
      exact .goOn hafter
    · rw [hline]
      exact .line (by rw [hctrl, hpc]) (hpc _)
  unfold serviceCtrl at h
  cases hctrl : p.ctrl with
  | idle =>
    rw [hctrl] at h
    simp at h
  | stopPending r =>
    rw [hctrl] at h
    obtain rfl := Option.some.inj h
    exact hadvance r _ _ hctrl (fun _ => rfl) rfl
  | serviceStop =>
    rw [hctrl] at h
    obtain rfl := Option.some.inj h
    exact .goOn rfl
  | current r =>
    rw [hctrl] at h
    obtain rfl := Option.some.inj h
    exact hadvance r _ _ hctrl (fun _ => rfl) rfl

/-! ## The exit code -/

/-- Nothing has gone wrong with a report: the process is not debugged, and no code is stored from
which a report could take anything but zero. -/
structure Clean (p : ServiceProcess) : Prop where
  bDebug : p.bDebug = false
  dwErr : p.dwErr = 0
  dwWin32ExitCode : p.ssStatus.dwWin32ExitCode = 0

/-- A line of a report of the exit code zero, in which `SetServiceStatus` does not fail.

**Proof sketch.** By the line of the report: only one of them stores the code, which is zero, and
the failure that would be stored is excluded. -/
theorem Clean.report {p : ServiceProcess} (hp : p.Clean) (who : ServiceThread) {r : ReportCall}
    {ans : ServiceAnswer} (hr : r.dwWin32ExitCode = 0) (hans : ans.fResult = true) :
    (p.report who r ans).1.Clean := by
  obtain ⟨hdebug, herr, hcode⟩ := hp
  unfold ServiceProcess.report
  cases r.line with
  | dwWin32ExitCode => exact ⟨hdebug, herr, hr⟩
  | dwCheckPoint =>
    dsimp only
    split <;> exact ⟨hdebug, herr, hcode⟩
  | setServiceStatus =>
    rw [if_pos hans]
    exact ⟨hdebug, herr, hcode⟩
  | _ => exact ⟨hdebug, herr, hcode⟩

/-- The invariant: no code but zero is stored, and none is being reported. -/
structure Inv (p : ServiceProcess) : Prop where
  clean : p.Clean
  main : ∀ r, p.main.call = some r → r.dwWin32ExitCode = 0
  ctrl : ∀ r, p.ctrl.call = some r → r.dwWin32ExitCode = 0

/-- At the start no exit code is stored and no report is under way. -/
theorem Inv.start : ServiceProcess.start.Inv where
  clean := ⟨rfl, rfl, rfl⟩
  main := by simp [ServiceProcess.start, MainPc.call]
  ctrl := by simp [ServiceProcess.start, CtrlPc.call]

/-- `service_main` moves on to a place where it is in no report, or in one of the exit code
zero. -/
theorem Inv.setMain {p : ServiceProcess} (hp : p.Inv) {pc : MainPc}
    (hpc : ∀ r, pc.call = some r → r.dwWin32ExitCode = 0) : ({ p with main := pc } :
      ServiceProcess).Inv :=
  ⟨⟨hp.clean.bDebug, hp.clean.dwErr, hp.clean.dwWin32ExitCode⟩, hpc, hp.ctrl⟩

/-- `service_ctrl` moves on likewise. -/
theorem Inv.setCtrl {p : ServiceProcess} (hp : p.Inv) {pc : CtrlPc}
    (hpc : ∀ r, pc.call = some r → r.dwWin32ExitCode = 0) : ({ p with ctrl := pc } :
      ServiceProcess).Inv :=
  ⟨⟨hp.clean.bDebug, hp.clean.dwErr, hp.clean.dwWin32ExitCode⟩, hp.main, hpc⟩

/-- A line of a report keeps the invariant. -/
theorem Inv.report {p : ServiceProcess} (hp : p.Inv) (who : ServiceThread) {r : ReportCall}
    {ans : ServiceAnswer} (hr : r.dwWin32ExitCode = 0) (hans : ans.fResult = true) :
    (p.report who r ans).1.Inv := by
  obtain ⟨-, -, hmain, hctrl⟩ := report_frame p who r ans
  refine ⟨hp.clean.report who hr hans, ?_, ?_⟩
  · rw [hmain]
    exact hp.main
  · rw [hctrl]
    exact hp.ctrl

/-- A step of `service_main` in which `SetServiceStatus` does not fail.

**Proof sketch.** By cases on the step. A report that begins is of the code zero, or of the stored
one, which is zero. -/
theorem Inv.serviceMain {p p' : ServiceProcess} (hp : p.Inv) {ans : ServiceAnswer}
    (hans : ans.fResult = true) (h : p.serviceMain ans = some p') : p'.Inv := by
  have hclean := hp.clean
  cases serviceMain_step h with
  | registerServiceCtrlHandler =>
    refine ⟨⟨hclean.bDebug, hclean.dwErr, hclean.dwWin32ExitCode⟩, ?_, hp.ctrl⟩
    dsimp only
    split <;> simp [MainPc.call]
  | statusMembers =>
    refine ⟨⟨hclean.bDebug, hclean.dwErr, hclean.dwWin32ExitCode⟩, ?_, hp.ctrl⟩
    simp [MainPc.call, noError]
  | @line pc r hmain hpc =>
    have hcall : ∀ r, (pc r).call = some r := by
      intro r
      simp only [List.mem_cons, List.not_mem_nil, or_false] at hpc
      rcases hpc with rfl | rfl | rfl <;> rfl
    have hr : r.dwWin32ExitCode = 0 := hp.main r (by rw [hmain, hcall])
    refine (hp.report .main hr hans).setMain (fun r' hr' => ?_)
    rw [hcall, Option.some.injEq] at hr'
    rw [← hr']
    exact hr
  | @goOn pc hpc =>
    have hcall : ∀ pc ∈ betweenReports, pc.call = none := by decide
    exact hp.setMain (by simp [hcall pc hpc])
  | rpcFailed =>
    -- the failure is stored as the last-error code of the thread, and nowhere else
    exact ⟨⟨hclean.bDebug, hclean.dwErr, hclean.dwWin32ExitCode⟩, by simp [MainPc.call], hp.ctrl⟩
  | listening =>
    refine ⟨⟨hclean.bDebug, hclean.dwErr, hclean.dwWin32ExitCode⟩, ?_, hp.ctrl⟩
    simp [MainPc.call, noError]
  | cleanup =>
    refine hp.setMain (fun r hr => ?_)
    split at hr
    · obtain rfl := Option.some.inj hr
      exact hclean.dwErr
    · simp [MainPc.call] at hr
  | returned => exact hp.setMain (by simp [MainPc.call])

/-- A step of `service_ctrl` in which `SetServiceStatus` does not fail. -/
theorem Inv.serviceCtrl {p p' : ServiceProcess} (hp : p.Inv) {ans : ServiceAnswer}
    (hans : ans.fResult = true) (h : p.serviceCtrl ans = some p') : p'.Inv := by
  cases serviceCtrl_step h with
  | @line r pc hr hpc =>
    have hzero := hp.ctrl r hr
    refine (hp.report .ctrl hzero hans).setCtrl (fun r' hr' => ?_)
    rw [hpc, Option.some.injEq] at hr'
    rw [← hr']
    exact hzero
  | goOn hpc =>
    refine ⟨⟨hp.clean.bDebug, hp.clean.dwErr, hp.clean.dwWin32ExitCode⟩, hp.main, ?_⟩
    simp [hpc]

/-- A call of `service_ctrl` starts with a report of the exit code zero. -/
theorem Inv.control {p p' : ServiceProcess} (hp : p.Inv) {dwCtrlCode : UInt32}
    (h : p.control dwCtrlCode = some p') : p'.Inv := by
  unfold ServiceProcess.control at h
  split at h
  · obtain rfl := Option.some.inj h
    refine hp.setCtrl (fun r hr => ?_)
    split at hr <;> obtain rfl := Option.some.inj hr <;> rfl
  · simp at h

/-- **The exit code stays zero.** The invariant is kept by every step in which `SetServiceStatus`
does not fail. -/
theorem Inv.next {p p' : ServiceProcess} (hp : p.Inv) {e : ServiceEvent}
    (he : e.SetServiceStatusSucceeds) (h : p.next e = some p') : p'.Inv := by
  cases e with
  | main ans => exact hp.serviceMain he h
  | ctrl ans => exact hp.serviceCtrl he h
  | control dwCtrlCode => exact hp.control h

/-! ## The end of `service_main` -/

/-- The handler is registered: the last report will be made. -/
structure Registered (p : ServiceProcess) : Prop where
  main : p.main ≠ .registerServiceCtrlHandler
  sshStatusHandle : p.sshStatusHandle ≠ 0

/-- `service_main` has made its last report, or ends without one. -/
def Reported (p : ServiceProcess) : Prop :=
  p.main = .returned ∨ ∃ r fResult, p.main = .stopped r ∧ r.line = .returned fResult

/-- A step of `service_ctrl` leaves `service_main` and its handle alone. -/
theorem serviceCtrl_frame {p p' : ServiceProcess} {ans : ServiceAnswer}
    (h : p.serviceCtrl ans = some p') :
    p'.main = p.main ∧ p'.sshStatusHandle = p.sshStatusHandle := by
  cases serviceCtrl_step h with
  | @line r =>
    obtain ⟨-, hhandle, hmain, -⟩ := report_frame p .ctrl r ans
    exact ⟨hmain, hhandle⟩
  | goOn => exact ⟨rfl, rfl⟩

/-- A control leaves `service_main` and its handle alone. -/
theorem control_frame {p p' : ServiceProcess} {dwCtrlCode : UInt32}
    (h : p.control dwCtrlCode = some p') :
    p'.main = p.main ∧ p'.sshStatusHandle = p.sshStatusHandle := by
  unfold control at h
  split at h
  · obtain rfl := Option.some.inj h
    exact ⟨rfl, rfl⟩
  · simp at h

/-- Registered once, the handler stays registered.

**Proof sketch.** By cases on the step; none of them goes back to the registration. -/
theorem Registered.serviceMain {p p' : ServiceProcess} (hp : p.Registered) {ans : ServiceAnswer}
    (h : p.serviceMain ans = some p') : p'.Registered := by
  obtain ⟨hmain, hhandle⟩ := hp
  cases serviceMain_step h with
  | registerServiceCtrlHandler hbegin => exact absurd hbegin hmain
  | @line pc r _ hpc =>
    obtain ⟨-, hsame, -, -⟩ := report_frame p .main r ans
    refine ⟨?_, by simpa only [hsame] using hhandle⟩
    simp only [List.mem_cons, List.not_mem_nil, or_false] at hpc
    rcases hpc with rfl | rfl | rfl <;> simp
  | goOn hpc =>
    refine ⟨?_, hhandle⟩
    rintro rfl
    simp [betweenReports] at hpc
  | cleanup => exact ⟨by simp [hhandle], hhandle⟩
  | statusMembers | rpcFailed | listening | returned => exact ⟨by simp, hhandle⟩

/-- Outside debug mode a report returns from `SetServiceStatus` only. -/
theorem report_returned {p : ServiceProcess} (hp : p.bDebug = false) {who : ServiceThread}
    {r : ReportCall} {ans : ServiceAnswer} {b : Bool} (hr : ∀ b, r.line ≠ .returned b)
    (h : (p.report who r ans).2 = .returned b) : r.line = .setServiceStatus := by
  unfold report at h
  cases hline : r.line with
  | setServiceStatus => rfl
  | bDebug => simp [hline, hp] at h
  | returned b => exact absurd hline (hr b)
  | _ => simp [hline] at h

/-- The step of `service_main` with which its last report is made is the `SetServiceStatus` of
that report.

**Proof sketch.** By cases on the step; before its `SetServiceStatus` the last report is not made.
-/
theorem sends_of_reported {p p' : ServiceProcess} (hp : p.Registered) (hdebug : p.bDebug = false)
    {ans : ServiceAnswer} (h : p.serviceMain ans = some p') (hbefore : ¬ p.Reported)
    (hafter : p'.Reported) : ∃ r, p.main = .stopped r ∧ r.line = .setServiceStatus := by
  cases serviceMain_step h with
  | registerServiceCtrlHandler hbegin => exact absurd hbegin hp.main
  | @line pc r hmain hpc =>
    simp only [List.mem_cons, List.not_mem_nil, or_false] at hpc
    rcases hpc with rfl | rfl | rfl
    · simp [Reported] at hafter
    · simp [Reported] at hafter
    · have hline : ∀ b, r.line ≠ .returned b := fun b hb => hbefore (.inr ⟨r, b, hmain, hb⟩)
      rcases hafter with hafter | ⟨r', b, hafter, hr'⟩
      · cases hafter
      · obtain rfl := MainPc.stopped.inj hafter
        exact ⟨r, hmain, report_returned hdebug hline hr'⟩
  | goOn hpc =>
    rcases hafter with rfl | ⟨r, b, rfl, -⟩ <;> simp [betweenReports] at hpc
  | cleanup => simp [Reported, hp.sshStatusHandle] at hafter
  | returned hmain hr => exact absurd (.inr ⟨_, _, hmain, hr⟩) hbefore
  | statusMembers | rpcFailed | listening => simp [Reported] at hafter

/-- Where `service_main` can be: not begun, registered, or at its end without a handle. -/
def Begun (p : ServiceProcess) : Prop :=
  p.main = .registerServiceCtrlHandler ∨ p.Registered ∨
    p.sshStatusHandle = 0 ∧ (p.main = .cleanup ∨ p.main = .returned)

/-- At the start `service_main` has not begun. -/
theorem Begun.start : ServiceProcess.start.Begun := .inl rfl

/-- A step of the control thread, or a control, changes nothing about `service_main`. -/
theorem frame_of_next {p p' : ServiceProcess} {e : ServiceEvent} (he : ∀ ans, e ≠ .main ans)
    (h : p.next e = some p') : p'.main = p.main ∧ p'.sshStatusHandle = p.sshStatusHandle := by
  cases e with
  | main ans => exact absurd rfl (he ans)
  | ctrl ans => exact serviceCtrl_frame h
  | control dwCtrlCode => exact control_frame h

/-- A service that is registered stays so. -/
theorem Registered.next {p p' : ServiceProcess} (hp : p.Registered) {e : ServiceEvent}
    (h : p.next e = some p') : p'.Registered := by
  by_cases he : ∃ ans, e = .main ans
  · obtain ⟨ans, rfl⟩ := he
    exact hp.serviceMain h
  · obtain ⟨hmain, hhandle⟩ := frame_of_next (fun ans hans => he ⟨ans, hans⟩) h
    exact ⟨by rw [hmain]; exact hp.main, by rw [hhandle]; exact hp.sshStatusHandle⟩

/-- Every step leaves `service_main` at one of these places.

**Proof sketch.** By the place of `service_main`; the steps of the other thread leave it there. -/
theorem Begun.next {p p' : ServiceProcess} (hp : p.Begun) {e : ServiceEvent}
    (h : p.next e = some p') : p'.Begun := by
  by_cases he : ∃ ans, e = .main ans
  · obtain ⟨ans, rfl⟩ := he
    replace h : p.serviceMain ans = some p' := h
    rcases hp with hp | hp | ⟨hhandle, hp | hp⟩
    · unfold ServiceProcess.serviceMain at h
      rw [hp] at h
      obtain rfl := Option.some.inj h
      by_cases hans : ans.handle = 0
      · exact .inr (.inr ⟨hans, .inl (by simp [hans])⟩)
      · exact .inr (.inl ⟨by simp [hans], hans⟩)
    · exact .inr (.inl (hp.serviceMain h))
    · unfold ServiceProcess.serviceMain at h
      rw [hp] at h
      obtain rfl := Option.some.inj h
      exact .inr (.inr ⟨hhandle, .inr (by simp [hhandle])⟩)
    · simp [ServiceProcess.serviceMain, hp] at h
  · obtain ⟨hmain, hhandle⟩ := frame_of_next (fun ans hans => he ⟨ans, hans⟩) h
    unfold Begun
    rcases hp with hp | hp | hp
    · exact .inl (by rw [hmain, hp])
    · exact .inr (.inl (hp.next h))
    · rw [hmain, hhandle]
      exact .inr (.inr hp)

end ServiceProcess

/-! ## The last report -/

/-- The functions of the RPC runtime that `ServiceStart` calls. -/
def rpcCalls : List MainPc := [.useProtseqEp, .registerIf, .listen, .waitServerListen]

section LastReport

variable (tr : List (Step ServiceProcess ServiceEvent))

/-- The step is one of these functions, and returns this status. -/
def StepReturns (t : Step ServiceProcess ServiceEvent) (pc : MainPc) (status : UInt32) : Prop :=
  t.pre.main = pc ∧ ∃ ans, t.label = .main ans ∧ ans.status = status

/-- The step is one of these functions, and fails. -/
def StepFailed (t : Step ServiceProcess ServiceEvent) : Prop :=
  ∃ pc ∈ rpcCalls, ∃ status, status ≠ 0 ∧ StepReturns t pc status

/-- The step is the `SetServiceStatus` of the last report, which hands over the record as it is. -/
def SendsStopped (t : Step ServiceProcess ServiceEvent) : Prop :=
  (∃ ans, t.label = .main ans) ∧ ∃ r, t.pre.main = .stopped r ∧ r.line = .setServiceStatus

/-- The step is the `RpcMgmtStopServerListening` of `ServiceStop`, with the server listening. -/
def StopsListening (t : Step ServiceProcess ServiceEvent) : Prop :=
  (∃ ans, t.label = .ctrl ans) ∧ t.pre.ctrl = .serviceStop ∧ t.pre.listening = true

/-- A last report is made, and its exit code is so. -/
structure LastReport (P : UInt32 → Prop) : Prop where
  made : ∃ t ∈ tr, SendsStopped t
  exitCode : ∀ t ∈ tr, SendsStopped t → P t.pre.ssStatus.dwWin32ExitCode

/-- The last report tells the outcome: an exit code other than zero when a function of the RPC
runtime failed, and zero when all succeeded and `ServiceStop` stopped the service. -/
structure ReportsOutcome : Prop where
  failed : (∃ t ∈ tr, StepFailed t) → LastReport tr (· ≠ 0)
  stopped : (∀ pc ∈ rpcCalls, ∃ t ∈ tr, StepReturns t pc 0) → (∃ t ∈ tr, StopsListening t) →
    LastReport tr (· = 0)

variable {tr} {p : ServiceProcess}

/-- A `service_main` that has called a function of the RPC runtime makes a last report before it
returns.

**Proof sketch.** The function is called with the handler registered, so that the rest of the run
keeps it registered. At the function no last report has been made, at the end one has, and the
step between the two is its `SetServiceStatus`. -/
theorem exists_sendsStopped (h : Run ServiceProcess.next .start tr p) (hret : p.main = .returned)
    (hsucc : ∀ t ∈ tr, t.label.SetServiceStatusSucceeds)
    {u : Step ServiceProcess ServiceEvent} (hu : u ∈ tr) (hpc : u.pre.main ∈ rpcCalls) :
    ∃ t ∈ tr, SendsStopped t := by
  obtain ⟨tr₁, tr₂, rfl, h₁, hstep, h₂⟩ := h.split_of_mem hu
  have hinv : u.pre.Inv := by
    refine (h₁.forall_post_of_guard (I := ServiceProcess.Inv)
      (C := fun _ e => e.SetServiceStatusSucceeds) (fun _ _ _ hs hc hn => hs.next hc hn) .start
      fun t ht => hsucc t ?_).2
    exact List.mem_append_left _ ht
  have hreg : u.pre.Registered := by
    obtain hmain | hreg | ⟨-, hmain⟩ := (h₁.forall_step (I := ServiceProcess.Begun)
      (fun _ _ _ hs hn => hs.next hn) .start).2
    · simp [hmain, rpcCalls] at hpc
    · exact hreg
    · rcases hmain with hmain | hmain <;> simp [hmain, rpcCalls] at hpc
  have hnot : ¬ u.pre.Reported := by
    unfold ServiceProcess.Reported
    rintro (hmain | ⟨r, b, hmain, -⟩) <;> simp [hmain, rpcCalls] at hpc
  have hrun : Run ServiceProcess.next u.pre (u :: tr₂) p := .cons hstep h₂
  have hpair := hrun.forall_post_of_guard (I := fun s => s.Inv ∧ s.Registered)
    (C := fun _ e => e.SetServiceStatusSucceeds)
    (fun _ _ _ hs hc hn => ⟨hs.1.next hc hn, hs.2.next hn⟩) ⟨hinv, hreg⟩
    (fun t ht => hsucc t (List.mem_append_right _ ht))
  obtain ⟨t, ht, hbefore, hafter⟩ := hrun.exists_step_of_not hnot (.inl hret)
  refine ⟨t, List.mem_append_right _ ht, ?_⟩
  have hn := hrun.next_of_mem t ht
  obtain ⟨hti, htr⟩ := (hpair.1 t ht).1
  by_cases he : ∃ ans, t.label = .main ans
  · obtain ⟨ans, hans⟩ := he
    rw [hans] at hn
    exact ⟨⟨ans, hans⟩, ServiceProcess.sends_of_reported htr hti.clean.bDebug hn hbefore hafter⟩
  · obtain ⟨hmain, -⟩ := ServiceProcess.frame_of_next (fun ans hans => he ⟨ans, hans⟩) hn
    unfold ServiceProcess.Reported at hbefore hafter
    rw [hmain] at hafter
    exact absurd hafter hbefore

/-- Every report of a run in which `SetServiceStatus` succeeds carries the exit code zero. -/
theorem exitCode_zero (h : Run ServiceProcess.next .start tr p)
    (hsucc : ∀ t ∈ tr, t.label.SetServiceStatusSucceeds) :
    ∀ t ∈ tr, t.pre.ssStatus.dwWin32ExitCode = 0 := by
  have hinv := (h.forall_post_of_guard (I := ServiceProcess.Inv)
    (C := fun _ e => e.SetServiceStatusSucceeds) (fun _ _ _ hs hc hn => hs.next hc hn) .start
    hsucc).1
  exact fun t ht => (hinv t ht).1.clean.dwWin32ExitCode

/-- **The exit code of the service.** In every run of `service_main` to its end, outside debug mode
and with controls of any kind at any time, and with `SetServiceStatus` succeeding throughout: the
last report tells whether a function of the RPC runtime failed exactly when none did.

**Proof sketch.** A failure becomes the last-error code of the thread, which only
`AddToMessageLog` copies to `dwErr`, and only a failing `SetServiceStatus` calls that. So `dwErr`
stays zero, and with it the exit code of every report. -/
theorem reportsOutcome_iff (tr : List (Step ServiceProcess ServiceEvent)) (p : ServiceProcess)
    (h : Run ServiceProcess.next .start tr p) (hret : p.main = .returned)
    (hsucc : ∀ t ∈ tr, t.label.SetServiceStatusSucceeds) :
    ReportsOutcome tr ↔ ∀ t ∈ tr, ¬ StepFailed t := by
  have hzero := exitCode_zero h hsucc
  constructor
  · intro hout t ht hfail
    have hlast := hout.failed ⟨t, ht, hfail⟩
    obtain ⟨u, hu, hsends⟩ := hlast.made
    exact hlast.exitCode u hu hsends (hzero u hu)
  · intro hnone
    refine ⟨fun hfail => ?_, fun hcalls _ => ⟨?_, fun t ht _ => hzero t ht⟩⟩
    · obtain ⟨t, ht, hfail⟩ := hfail
      exact absurd hfail (hnone t ht)
    · obtain ⟨u, hu, hpc, -⟩ := hcalls .useProtseqEp (by simp [rpcCalls])
      exact exists_sendsStopped h hret hsucc hu (by simp [hpc, rpcCalls])

end LastReport

/-- An answer with which every function succeeds. -/
def succeeds : ServiceAnswer := ⟨1, 0, true, 0⟩

/-- `RPC_S_DUPLICATE_ENDPOINT` -/
def duplicateEndpoint : ServiceAnswer := { succeeds with status := 1740 }

/-- The steps of a service that starts, and is stopped. -/
def startAndStop : List ServiceEvent :=
  List.replicate 21 (.main succeeds) ++ .control serviceControlStop ::
    List.replicate 9 (.ctrl succeeds) ++ List.replicate 10 (.main succeeds)

/-- A service that starts and is stopped reports that it succeeded.

**Proof sketch.** The run is computed, and its calls succeed. -/
theorem reportsOutcome_startAndStop :
    ∃ tr p, Run ServiceProcess.next .start tr p ∧ (∃ t ∈ tr, StopsListening t) ∧
      ReportsOutcome tr := by
  obtain ⟨⟨tr, p⟩, hexec⟩ := Option.isSome_iff_exists.mp
    (show (exec ServiceProcess.next .start startAndStop).isSome = true by decide)
  have hrun := Run.of_exec hexec
  have hlabels : tr.map Step.label = startAndStop := Run.labels_of_exec hexec
  have hret : p.main = .returned := by
    have : (exec ServiceProcess.next .start startAndStop).map (fun r => r.2.main) =
      some .returned := by decide
    rw [hexec] at this
    exact Option.some.inj this
  have hstop : tr.any (fun t => decide (t.label = .ctrl succeeds) &&
      decide (t.pre.ctrl = .serviceStop) && t.pre.listening) = true := by
    have : (exec ServiceProcess.next .start startAndStop).map (fun r => r.1.any fun t =>
      decide (t.label = .ctrl succeeds) && decide (t.pre.ctrl = .serviceStop) &&
        t.pre.listening) = some true := by decide
    rw [hexec] at this
    exact Option.some.inj this
  have hall : ∀ t ∈ tr, t.label ∈ startAndStop := fun t ht => by
    rw [← hlabels]
    exact List.mem_map_of_mem ht
  have hsome : ∀ e ∈ startAndStop, e.SetServiceStatusSucceeds ∧
      ∀ ans, e = .main ans → ans.status = 0 := by
    simp [startAndStop, ServiceEvent.SetServiceStatusSucceeds, succeeds]
  refine ⟨tr, p, hrun, ?_, (reportsOutcome_iff tr p hrun hret fun t ht =>
    (hsome _ (hall t ht)).1).mpr ?_⟩
  · obtain ⟨t, ht, h⟩ := List.any_eq_true.mp hstop
    simp only [Bool.and_eq_true, decide_eq_true_eq] at h
    exact ⟨t, ht, ⟨_, h.1.1⟩, h.1.2, h.2⟩
  · intro t ht hfail
    obtain ⟨_, -, status, hne, -, ans, hans, rfl⟩ := hfail
    exact hne ((hsome _ (hall t ht)).2 ans hans)

/-- The steps of a service whose endpoint is in use. -/
def startFails : List ServiceEvent :=
  List.replicate 10 (.main succeeds) ++ .main duplicateEndpoint ::
    List.replicate 9 (.main succeeds)

/-- `RpcServerUseProtseqEp` fails, and the service reports that it has stopped with the exit code
zero.

**Proof sketch.** The run is computed. Every report in it has the exit code zero, so the last one
has, while a failure asks for another one. -/
theorem failure_reported_as_success :
    ∃ tr p, Run ServiceProcess.next .start tr p ∧ p.main = .returned ∧
      (∃ t ∈ tr, StepReturns t .useProtseqEp 1740) ∧ LastReport tr (· = 0) ∧
      ¬ ReportsOutcome tr := by
  obtain ⟨⟨tr, p⟩, hexec⟩ := Option.isSome_iff_exists.mp
    (show (exec ServiceProcess.next .start startFails).isSome = true by decide)
  have hrun := Run.of_exec hexec
  have hlabels : tr.map Step.label = startFails := Run.labels_of_exec hexec
  have hret : p.main = .returned := by
    have : (exec ServiceProcess.next .start startFails).map (fun r => r.2.main) =
      some .returned := by decide
    rw [hexec] at this
    exact Option.some.inj this
  have hfail : tr.any (fun t => decide (t.pre.main = .useProtseqEp) &&
      decide (t.label = .main duplicateEndpoint)) = true := by
    have : (exec ServiceProcess.next .start startFails).map (fun r => r.1.any fun t =>
      decide (t.pre.main = .useProtseqEp) && decide (t.label = .main duplicateEndpoint)) =
        some true := by decide
    rw [hexec] at this
    exact Option.some.inj this
  have hsucc : ∀ t ∈ tr, t.label.SetServiceStatusSucceeds := by
    intro t ht
    have hmem : t.label ∈ startFails := by
      rw [← hlabels]
      exact List.mem_map_of_mem ht
    have hsome : ∀ e ∈ startFails, e.SetServiceStatusSucceeds := by
      simp [startFails, ServiceEvent.SetServiceStatusSucceeds, succeeds, duplicateEndpoint]
    exact hsome _ hmem
  obtain ⟨t, ht, hstep⟩ := List.any_eq_true.mp hfail
  simp only [Bool.and_eq_true, decide_eq_true_eq] at hstep
  have hreturns : StepReturns t .useProtseqEp 1740 := ⟨hstep.1, _, hstep.2, rfl⟩
  have hzero := exitCode_zero hrun hsucc
  have hmade := exists_sendsStopped hrun hret hsucc ht (by simp [hstep.1, rpcCalls])
  refine ⟨tr, p, hrun, hret, ⟨t, ht, hreturns⟩, ⟨hmade, fun u hu _ => hzero u hu⟩, fun hout => ?_⟩
  have hlast := hout.failed ⟨t, ht, .useProtseqEp, by simp [rpcCalls], 1740, by decide, hreturns⟩
  obtain ⟨u, hu, hsends⟩ := hlast.made
  exact hlast.exitCode u hu hsends (hzero u hu)

end Nuacom
