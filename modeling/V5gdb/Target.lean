import V5gdb.Context
import V5gdb.HardwareBreakpoints
import V5gdb.MemoryAccess
import V5gdb.SoftwareBreakpoints

/-!
The debug target: what a stop does on entry and on leaving, and the callbacks
GDB reaches in between.
Single stepping and asynchronous halts are both hardware breakpoints that match
everywhere but at one address; they share the one slot that is kept from the user.
-/
namespace V5gdb

open RecordLayouts

/-- A fixed address that never matches real code. -/
def ASYNC_HALT_SENTINEL : Addr := 0xFFFFFFFC

inductive StopReason
  | hardwareBreak
  | trackedSoftwareBreak (id : Fin 16)
  | untrackedSoftwareBreak
  | interrupt
  | other
  deriving DecidableEq, Repr

structure SingleStepRequest where
  targetAddr : Addr
  kind : ArmBreakpointKind
  deriving DecidableEq, Repr

inductive MonitorStatus
  | active
  /-- The program is about to exit and the monitor intends to disconnect the client. -/
  | exiting
  | resumingProgram
  deriving DecidableEq, Repr

structure V5Target extends SwState where
  exceptionCtx : DebugEventContext
  monitorStatus : MonitorStatus
  stopReason : StopReason
  hwManager : HwBreakpointManager
  originalHwLockState : Bool
  singleStepRequest : Option SingleStepRequest
  /-- If set, the next instruction executed in user code will trigger entry into the monitor. -/
  interruptPending : Bool
  stopMotorsOnBreak : Bool

namespace V5Target

def new (debugId : BitVec 32) (mmio : DebugLogic) (memory : CodeMemory) : Exec V5Target := do
  let hwManager ← HwBreakpointManager.setup debugId mmio
  return {
    toSwState := .empty memory
    exceptionCtx := ⟨⟨0⟩, 0, 0, 0, fun _ => 0, fun _ => 0, 0⟩
    monitorStatus := .resumingProgram
    stopReason := .other
    hwManager
    originalHwLockState := false
    singleStepRequest := none
    interruptPending := false
    stopMotorsOnBreak := false }

def stepKind (ctx : DebugEventContext) : ArmBreakpointKind :=
  if ctx.cpsr.thumb then .thumb16 else .arm32

/-- Fetch the reason the last debugger entry occurred. -/
def classifyStop (t : V5Target) : V5Target :=
  { t with stopReason :=
      match t.hwManager.lastBreakReason with
      | some .breakpoint => if t.interruptPending then .interrupt else .hardwareBreak
      | some .bkptInstr =>
        match t.querySwBreakpoint t.exceptionCtx.programCounter with
        | some id => .trackedSoftwareBreak id
        | none => .untrackedSoftwareBreak
      | _ => .other }

/-- Mark the pending single step request (if any) as completed and clean up its state. -/
def finalizeSingleStep (t : V5Target) : Exec V5Target :=
  match t.singleStepRequest with
  | none => .ok t
  | some singleStep => do
    let (hwManager, _) ←
      t.hwManager.removeBreakpointAt singleStep.targetAddr .mismatching singleStep.kind
    return { t with hwManager, singleStepRequest := none }

/-- Remove a breakpoint installed by `requestInterrupt`, if any. -/
def finalizeInterrupt (t : V5Target) : Exec V5Target :=
  if t.interruptPending then do
    let (hwManager, _) ← t.hwManager.removeBreakpointAt ASYNC_HALT_SENTINEL .mismatching .arm32
    return { t with hwManager, interruptPending := false }
  else .ok t

/-- Acknowledge a manual call to `bkpt` by proceeding to the next instruction. -/
def fixupManualBkpt (t : V5Target) : Exec V5Target :=
  if t.stopReason = .untrackedSoftwareBreak then do
    let instr ← Instruction.read t.memory.data t.exceptionCtx.programCounter
      t.exceptionCtx.cpsr.thumb
    return { t with exceptionCtx :=
      { t.exceptionCtx with
        programCounter := t.exceptionCtx.programCounter + BitVec.ofNat 32 instr.size } }
  else .ok t

/-- The first half of an entry: breakpoints are paused, the debug registers are
unlocked and the stop is classified. -/
def prepareEntry (t : V5Target) (ctx : DebugEventContext) : V5Target :=
  classifyStop { t with
    toSwState := t.toSwState.setBreakpointsIgnored true
    originalHwLockState := t.hwManager.locked
    hwManager := t.hwManager.setLocked false
    exceptionCtx := ctx
    monitorStatus := .active }

/-- Activate the debugger after a breakpoint is triggered. The flag says whether
the scheduler was suspended: if a step is being completed, it already is. -/
def enterBreakpoint (t : V5Target) (ctx : DebugEventContext) : Exec (V5Target × Bool) := do
  let suspends := t.singleStepRequest.isNone
  let t := t.prepareEntry ctx
  let t ← t.finalizeSingleStep
  let t ← t.finalizeInterrupt
  let t ← t.fixupManualBkpt
  return (t, suspends)

/-- Deactivate the debugger and apply pending changes. Returned with the context to
resume is whether the scheduler should be unpaused. -/
def leaveBreakpoint (t : V5Target) : V5Target × DebugEventContext × Bool :=
  ({ t with
      hwManager := t.hwManager.setLocked t.originalHwLockState
      toSwState := t.toSwState.setBreakpointsIgnored false },
    t.exceptionCtx, t.singleStepRequest.isNone)

/-- Create a breakpoint that will stop the debugger after a single instruction. -/
def requestSingleStep (t : V5Target) : Exec (V5Target × Except BreakpointError Unit) :=
  if t.singleStepRequest.isSome then .ok (t, .ok ())
  else do
    let kind := stepKind t.exceptionCtx
    let pc := t.exceptionCtx.programCounter
    let (hwManager, r) ← t.hwManager.addBreakpointAt pc .mismatching kind
    match r with
    | .error e => return ({ t with hwManager }, .error e)
    | .ok () =>
      return ({ t with hwManager, singleStepRequest := some { targetAddr := pc, kind } }, .ok ())

/-- Removes the breakpoint of an active single step, so that its slot can be reused. -/
def releaseStepSlot (t : V5Target) (hwManager : HwBreakpointManager) :
    Exec HwBreakpointManager :=
  match t.singleStepRequest with
  | none => .ok hwManager
  | some singleStep => do
    let (hwManager, _) ←
      hwManager.removeBreakpointAt singleStep.targetAddr .mismatching singleStep.kind
    return hwManager

def requestInterrupt (t : V5Target) : Exec V5Target :=
  if t.interruptPending then .ok t
  else do
    let wasLocked := t.hwManager.locked
    let hwManager ← t.releaseStepSlot (t.hwManager.setLocked false)
    let (hwManager, result) ← hwManager.addBreakpointAt ASYNC_HALT_SENTINEL .mismatching .arm32
    let hwManager := hwManager.setLocked wasLocked
    match result with
    | .error e => .error (.unwrapFailed e)
    | .ok () => return { t with hwManager, interruptPending := true }

def addSwBreakpoint (t : V5Target) (addr : Addr) (kind : ArmBreakpointKind) :
    Exec (V5Target × Bool) := do
  let (s, r) ← t.toSwState.registerSwBreakpoint addr kind.isThumb false
  return ({ t with toSwState := s }, r.isOk)

def removeSwBreakpoint (t : V5Target) (addr : Addr) (_kind : ArmBreakpointKind) :
    V5Target × Bool :=
  let (s, changed) := t.toSwState.removeSwBreakpoint addr false
  ({ t with toSwState := s }, changed)

def addHwBreakpoint (t : V5Target) (addr : Addr) (kind : ArmBreakpointKind) :
    Exec (V5Target × Bool) := do
  let available ← t.hwManager.breakpointsAvailable
  -- one hardware breakpoint should be saved for single stepping
  if available ≤ 1 then return (t, false)
  else
    let (hwManager, r) ← t.hwManager.addBreakpointAt addr .matching kind
    return ({ t with hwManager }, r.isOk)

def removeHwBreakpoint (t : V5Target) (addr : Addr) (kind : ArmBreakpointKind) :
    Exec (V5Target × Bool) := do
  let (hwManager, didRemove) ← t.hwManager.removeBreakpointAt addr .matching kind
  return ({ t with hwManager }, didRemove)

def readAddrs (table : TranslationTable) (t : V5Target) (startAddr : Addr) (data : Bytes) :
    Except TargetError (Bytes × ℕ) :=
  let (data, bytesRead) := readMemory table t.memory.data startAddr data
  if bytesRead = 0 then .error (.errno efault) else .ok (data, bytesRead)

def writeAddrs (table : TranslationTable) (t : V5Target) (startAddr : Addr) (data : Bytes) :
    V5Target × Except TargetError Unit :=
  let (memory, written) := writeMemory table t.memory startAddr data
  ({ t with memory }, if written then .ok () else .error (.errno efault))

def mustStep (t : V5Target) : Exec V5Target := do
  let (t, r) ← t.requestSingleStep
  match r with
  | .error e => .error (.singleStepSetup e)
  | .ok () => return t

end V5Target

/-- The callbacks through which GDB inspects and changes the target, those of the
single-threaded and those of the multi-threaded interface. -/
inductive TargetCall
  | writeRegisters (regs : DebugEventContext)
  | writeRegister (regId : ArmRegisterID) (val : Bytes)
  | readAddrs (startAddr : Addr) (data : Bytes)
  | writeAddrs (startAddr : Addr) (data : Bytes)
  | addSwBreakpoint (addr : Addr) (kind : ArmBreakpointKind)
  | removeSwBreakpoint (addr : Addr) (kind : ArmBreakpointKind)
  | addHwBreakpoint (addr : Addr) (kind : ArmBreakpointKind)
  | removeHwBreakpoint (addr : Addr) (kind : ArmBreakpointKind)
  | resume
  | step
  | clearResumeActions
  | setResumeActionContinue
  /-- The flag says whether the thread to step is the current one. -/
  | setResumeActionStep (current : Bool)
  | autostop (enabled : Bool)

inductive TargetReply
  | done
  | accepted (b : Bool)
  | written (r : Except TargetError Unit)
  | read (r : Except TargetError (Bytes × ℕ))

namespace V5Target

def applyCall (table : TranslationTable) (t : V5Target) :
    TargetCall → Exec (V5Target × TargetReply)
  | .writeRegisters regs => .ok ({ t with exceptionCtx := regs }, .done)
  | .writeRegister regId val =>
    let (exceptionCtx, r) := t.exceptionCtx.writeRegister regId val
    .ok ({ t with exceptionCtx }, .written r)
  | .readAddrs startAddr data => .ok (t, .read (t.readAddrs table startAddr data))
  | .writeAddrs startAddr data =>
    let (t, r) := t.writeAddrs table startAddr data
    .ok (t, .written r)
  | .addSwBreakpoint addr kind => do
    let (t, b) ← t.addSwBreakpoint addr kind
    return (t, .accepted b)
  | .removeSwBreakpoint addr kind =>
    let (t, b) := t.removeSwBreakpoint addr kind
    .ok (t, .accepted b)
  | .addHwBreakpoint addr kind => do
    let (t, b) ← t.addHwBreakpoint addr kind
    return (t, .accepted b)
  | .removeHwBreakpoint addr kind => do
    let (t, b) ← t.removeHwBreakpoint addr kind
    return (t, .accepted b)
  | .resume => .ok ({ t with monitorStatus := .resumingProgram }, .done)
  | .step => do
    let t ← t.mustStep
    return ({ t with monitorStatus := .resumingProgram }, .done)
  | .clearResumeActions => .ok (t, .done)
  | .setResumeActionContinue => .ok (t, .done)
  | .setResumeActionStep current =>
    if current then do
      let t ← t.mustStep
      return (t, .done)
    else .error .stepOtherThread
  | .autostop enabled => .ok ({ t with stopMotorsOnBreak := enabled }, .done)

end V5Target
end V5gdb
