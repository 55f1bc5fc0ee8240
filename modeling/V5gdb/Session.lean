import V5gdb.Target

/-!
The debug session: the target, the internal breakpoints and the stage of the
GDB protocol.
The protocol library is seen through its states only: a packet makes it run
callbacks of the target, and it is running once one of them resumed the program.
-/
namespace V5gdb

open RecordLayouts

inductive StopAction
  | resume
  | enterMonitor
  deriving DecidableEq, Repr

inductive InternalBreakpoint
  | systemExitRequest
  deriving DecidableEq, Repr

/-- The states of the protocol library. -/
inductive GdbState
  | idle
  | running
  | ctrlCInterrupt
  | disconnected
  deriving DecidableEq, Repr

inductive SessionStage
  | uninitialized
  | active (gdb : GdbState)
  | transitioning
  deriving DecidableEq, Repr

structure DebugSession where
  target : V5Target
  internalBreaks : Option (InternalBreakpoint × Addr)
  stage : SessionStage

/-- What the connection delivers to an idle session: nothing, or bytes whose
packet runs some callbacks. A packet that resumes nothing leaves the session idle,
interrupted or disconnected. -/
inductive GdbInput
  | nothing
  | packet (calls : List TargetCall) (next : GdbState)

inductive ReportedReason
  | exited
  | stopped (reason : StopReason)
  deriving DecidableEq, Repr

def V5Target.gdbStopReason (t : V5Target) : ReportedReason :=
  if t.monitorStatus = .exiting then .exited else .stopped t.stopReason

/-- Callbacks after which the protocol library takes the program to be running. -/
def TargetCall.resumes : TargetCall → Bool
  | resume => true
  | step => true
  | _ => false

def GdbState.afterPacket (calls : List TargetCall) (next : GdbState) : GdbState :=
  if calls.any TargetCall.resumes then .running
  else if next = .running then .idle
  else next

def V5Target.runCalls (table : TranslationTable) :
    List TargetCall → V5Target → Exec (V5Target × List (TargetCall × TargetReply))
  | [], t => .ok (t, [])
  | c :: cs, t => do
    let (t, r) ← t.applyCall table c
    let (t, rs) ← V5Target.runCalls table cs t
    return (t, (c, r) :: rs)

namespace DebugSession

def hasClient (s : DebugSession) : Bool :=
  match s.stage with
  | .active .disconnected => false
  | .active _ => true
  | _ => false

/-- Run the handler for the internal breakpoint at the current PC, if any. -/
def handleInternalBreakpoint (s : DebugSession) : DebugSession × StopAction :=
  match s.internalBreaks.filter fun b => b.2 = s.target.exceptionCtx.programCounter with
  | none => (s, .resume)
  | some (.systemExitRequest, addr) =>
    let sw := (s.target.toSwState.removeSwBreakpoint addr true).1
    let s := { s with target := { s.target with toSwState := sw } }
    if !s.hasClient then (s, .resume)
    else ({ s with target := { s.target with monitorStatus := .exiting } }, .enterMonitor)

/-- Respond to entering a breakpoint and decide whether the user should be notified of it. -/
def handleStop (s : DebugSession) (reason : StopReason) : Exec (DebugSession × StopAction) :=
  match reason with
  | .trackedSoftwareBreak id =>
    match s.target.breaks id with
    | none => .error .bkptDeleted
    | some breakpoint =>
      let (s, internalAction) :=
        if breakpoint.reason.internal then s.handleInternalBreakpoint else (s, .resume)
      -- user-requested breakpoints always need to be shown
      .ok (s, if breakpoint.reason.user then .enterMonitor else internalAction)
  | _ => .ok (s, .enterMonitor)

/-- `exitFunc` carries the Thumb bit of the function that ends the program. -/
def registerInternalBreakpoints (s : DebugSession) (exitFunc : Addr) : Exec DebugSession :=
  if s.internalBreaks.isSome then .error .internalBreaksSet
  else do
    let isThumb := exitFunc &&& 1 ≠ 0
    let addr := exitFunc &&& ~~~1
    let (sw, r) ← s.target.toSwState.registerSwBreakpoint addr isThumb true
    match r with
    | .error e => .error (.unwrapFailed e)
    | .ok () =>
      return { s with
        target := { s.target with toSwState := sw }
        internalBreaks := some (.systemExitRequest, addr) }

def boot (debugId : BitVec 32) (mmio : DebugLogic) (memory : CodeMemory) (exitFunc : Addr)
    (stopMotorsOnBreak : Bool) : Exec DebugSession := do
  let target ← V5Target.new debugId mmio memory
  let s : DebugSession := { target, internalBreaks := none, stage := .uninitialized }
  let s ← s.registerInternalBreakpoints exitFunc
  return { s with target := { s.target with stopMotorsOnBreak } }

/-- Takes the protocol state out of the session, connecting first if need be. -/
def openConsole (s : DebugSession) : Exec (GdbState × DebugSession) :=
  match s.stage with
  | .uninitialized => .ok (.idle, { s with stage := .transitioning })
  | .active gdb => .ok (gdb, { s with stage := .transitioning })
  | .transitioning => .error .transitioning

/-- One turn of the debug console's loop. Returned last are the callbacks that were run. -/
def tickStateMachine (table : TranslationTable) (gdb : GdbState) (t : V5Target)
    (input : GdbInput) : Exec (GdbState × V5Target × List (TargetCall × TargetReply)) :=
  match gdb with
  | .idle =>
    match input with
    | .nothing => .ok (.idle, t, [])
    | .packet calls next => do
      let (t, replies) ← V5Target.runCalls table calls t
      return (.afterPacket calls next, t, replies)
  | .running =>
    if t.gdbStopReason = .exited then
      .ok (.disconnected, { t with monitorStatus := .resumingProgram }, [])
    else .ok (.idle, t, [])
  | .ctrlCInterrupt => .ok (.idle, t, [])
  | .disconnected =>
    if t.monitorStatus = .exiting then
      .ok (.idle, { t with monitorStatus := .resumingProgram }, [])
    else .ok (.idle, t, [])

/-- The first half of handling a debug event, until the debug console runs or is
skipped: the flag says whether the scheduler was suspended, and the protocol
state is there if the console was opened. -/
def beginEvent (s : DebugSession) (ctx : DebugEventContext) :
    Exec (DebugSession × Bool × Option GdbState) := do
  let (target, suspends) ← s.target.enterBreakpoint ctx
  let (s, action) ← { s with target }.handleStop target.stopReason
  match action with
  | .resume => return (s, suspends, none)
  | .enterMonitor =>
    let (gdb, s) ← s.openConsole
    return (s, suspends, some gdb)

/-- The second half, after the console: the context to resume, and whether to
unpause the scheduler. -/
def endEvent (s : DebugSession) : DebugSession × DebugEventContext × Bool :=
  let (target, ctx, unpause) := s.target.leaveBreakpoint
  ({ s with target }, ctx, unpause)

inductive TickOutcome (table : TranslationTable) (t : V5Target) :
    GdbState → GdbState → V5Target → List (TargetCall × TargetReply) → Prop
  | silent : TickOutcome table t .idle .idle t []
  | packet (calls : List TargetCall) (next : GdbState) (t' : V5Target)
      (replies : List (TargetCall × TargetReply))
      (hrun : V5Target.runCalls table calls t = .ok (t', replies)) :
      TickOutcome table t .idle (.afterPacket calls next) t' replies
  | reportExit (hexit : t.monitorStatus = .exiting) :
      TickOutcome table t .running .disconnected { t with monitorStatus := .resumingProgram } []
  | report (hexit : t.monitorStatus ≠ .exiting) : TickOutcome table t .running .idle t []
  | ctrlC : TickOutcome table t .ctrlCInterrupt .idle t []
  | disconnectExit (hexit : t.monitorStatus = .exiting) :
      TickOutcome table t .disconnected .idle { t with monitorStatus := .resumingProgram } []
  | disconnect (hexit : t.monitorStatus ≠ .exiting) : TickOutcome table t .disconnected .idle t []

theorem tick_outcome {table : TranslationTable} {gdb gdb' : GdbState} {t t' : V5Target}
    {input : GdbInput} {replies : List (TargetCall × TargetReply)}
    (h : tickStateMachine table gdb t input = .ok (gdb', t', replies)) :
    TickOutcome table t gdb gdb' t' replies := by
  cases gdb with
  | idle =>
    cases input with
    | nothing =>
      obtain ⟨rfl, rfl, rfl⟩ := by simpa [tickStateMachine] using h
      exact .silent
    | packet calls next =>
      obtain ⟨⟨t₁, rs⟩, hrun, h⟩ := Exec.bind_ok.mp h
      simp only [pure, Except.pure, Except.ok.injEq, Prod.mk.injEq] at h
      obtain ⟨rfl, rfl, rfl⟩ := h
      exact .packet calls next _ _ hrun
  | running =>
    simp only [tickStateMachine, V5Target.gdbStopReason] at h
    by_cases hexit : t.monitorStatus = .exiting
    · obtain ⟨rfl, rfl, rfl⟩ := by simpa [hexit] using h
      exact .reportExit hexit
    · obtain ⟨rfl, rfl, rfl⟩ := by simpa [hexit] using h
      exact .report hexit
  | ctrlCInterrupt =>
    obtain ⟨rfl, rfl, rfl⟩ := by simpa [tickStateMachine] using h
    exact .ctrlC
  | disconnected =>
    simp only [tickStateMachine] at h
    by_cases hexit : t.monitorStatus = .exiting
    · obtain ⟨rfl, rfl, rfl⟩ := by simpa [hexit] using h
      exact .disconnectExit hexit
    · obtain ⟨rfl, rfl, rfl⟩ := by simpa [hexit] using h
      exact .disconnect hexit

theorem tick_packet {table : TranslationTable} {t t' : V5Target} {calls : List TargetCall}
    {next : GdbState} {replies : List (TargetCall × TargetReply)}
    (h : V5Target.runCalls table calls t = .ok (t', replies)) :
    tickStateMachine table .idle t (.packet calls next) =
      .ok (.afterPacket calls next, t', replies) :=
  Exec.bind_ok.mpr ⟨(t', replies), h, rfl⟩

def CTRL_C : BitVec 8 := 0x03

/-- The interrupt handler's look at the pending bytes, when it gets the session. -/
def poll (s : DebugSession) (pending : Bytes) : Exec DebugSession :=
  if s.stage = .active .running then
    if CTRL_C ∈ pending then do
      let target ← s.target.requestInterrupt
      return { s with target }
    else .ok s
  else .ok s

end DebugSession
end V5gdb
