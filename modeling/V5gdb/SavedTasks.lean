import V5gdb.Context
import V5gdb.Instructions
import V5gdb.MemoryWords

/-!
The registers of a FreeRTOS task that is switched out.
They lie on the task's stack, in the context that the scheduler pushed. The stack
pointer is the one register that is not among them: it is the place of the
context, and writing it moves the context along.
-/
namespace V5gdb

open ByteMemory

structure ETaskState where
  raw : BitVec 32
  deriving DecidableEq, Repr

namespace ETaskState

def RUNNING : ETaskState := ⟨0⟩
def READY : ETaskState := ⟨1⟩
def BLOCKED : ETaskState := ⟨2⟩
def DELETED : ETaskState := ⟨4⟩

end ETaskState

structure TaskStatus where
  /-- The task's control block; its first word is the saved stack pointer. -/
  xHandle : Addr
  xTaskNumber : BitVec 32
  eCurrentState : ETaskState
  deriving DecidableEq, Repr

structure FreeRtosSystem where
  tasks : List TaskStatus
  memory : Mem 32

inductive SystemError
  /-- No such thread id -/
  | noSuchTid
  deriving DecidableEq, Repr

/-- How an operation on a task fails: with an error for the caller or with a panic. -/
inductive TaskError
  | system (e : SystemError)
  /-- `assert!(task.eCurrentState != eTaskState::RUNNING)` -/
  | taskRunning
  /-- "tasks without fpu contexts" -/
  | noFpuContext
  /-- "Expected u32", "Expected u64" -/
  | registerWidth
  | outOfBounds
  | overflow
  deriving DecidableEq, Repr

abbrev TaskExec := Except TaskError

inductive SavedRegister
  | u32 (v : BitVec 32)
  | u64 (v : BitVec 64)
  deriving DecidableEq, Repr

namespace SavedRegister

def unwrapU32 : SavedRegister → TaskExec (BitVec 32)
  | u32 v => .ok v
  | u64 _ => .error .registerWidth

def unwrapU64 : SavedRegister → TaskExec (BitVec 64)
  | u64 v => .ok v
  | u32 _ => .error .registerWidth

end SavedRegister

/-! Where the fields of `SavedTaskContextFPU` lie. -/

namespace SavedTaskContextFPU

def ulPortTaskHasFPUContext : ℕ := 0
def fpscr : ℕ := 4
def d16_d31 (i : ℕ) : ℕ := 8 + 8 * i
def d0_d15 (i : ℕ) : ℕ := 136 + 8 * i
def ulCriticalNesting : ℕ := 264
def gpRegisters (i : ℕ) : ℕ := 268 + 4 * i
def lr : ℕ := 320
def pc : ℕ := 324
def spsr : ℕ := 328
def size : ℕ := 332

end SavedTaskContextFPU

namespace FreeRtosSystem

def pairWords (v : BitVec 64) : List (BitVec 32) := [v.setWidth 32, (v >>> 32).setWidth 32]

def field (s : FreeRtosSystem) (ctx : Addr) (offset : ℕ) : BitVec 32 :=
  loadWord s.memory (ctx + BitVec.ofNat 32 offset)

def pairField (s : FreeRtosSystem) (ctx : Addr) (offset : ℕ) : BitVec 64 :=
  s.field ctx (offset + 4) ++ s.field ctx offset

def setField (s : FreeRtosSystem) (ctx : Addr) (offset : ℕ) (v : BitVec 32) :
    FreeRtosSystem :=
  { s with memory := storeWord s.memory (ctx + BitVec.ofNat 32 offset) v }

def setPairField (s : FreeRtosSystem) (ctx : Addr) (offset : ℕ) (v : BitVec 64) :
    FreeRtosSystem :=
  { s with memory := storeWords s.memory (ctx + BitVec.ofNat 32 offset) (pairWords v) }

/-- The status of the switched-out task with the given ID. -/
def lookupSavedTask (s : FreeRtosSystem) (tid : BitVec 32) : TaskExec TaskStatus :=
  match s.tasks.find? fun task => task.xTaskNumber = tid ∧ task.eCurrentState ≠ .DELETED with
  | none => .error (.system .noSuchTid)
  | some task => if task.eCurrentState = .RUNNING then .error .taskRunning else .ok task

def stackPtr (s : FreeRtosSystem) (task : TaskStatus) : Addr := loadWord s.memory task.xHandle

/-- The logical stack pointer of a task: its context is popped off. -/
def sp (s : FreeRtosSystem) (task : TaskStatus) : TaskExec (BitVec 32) :=
  if (s.stackPtr task).toNat + SavedTaskContextFPU.size < 2 ^ 32 then
    .ok (s.stackPtr task + BitVec.ofNat 32 SavedTaskContextFPU.size)
  else .error .overflow

def savedContext (s : FreeRtosSystem) (task : TaskStatus) : TaskExec Addr :=
  let ctx := s.stackPtr task
  if s.field ctx SavedTaskContextFPU.ulPortTaskHasFPUContext ≠ 0 then .ok ctx
  else .error .noFpuContext

/-- Sets the logical stack pointer; the old context is copied to the new stack if
`updateCtx` is set. -/
def setSp (s : FreeRtosSystem) (task : TaskStatus) (sp : BitVec 32) (updateCtx : Bool) :
    TaskExec FreeRtosSystem :=
  if sp.toNat < SavedTaskContextFPU.size then .error .overflow
  else do
    let sp := sp - BitVec.ofNat 32 SavedTaskContextFPU.size
    let oldCtx ← s.savedContext task
    let memory := storeWord s.memory task.xHandle sp
    return { s with
      memory := if updateCtx then copy memory oldCtx sp SavedTaskContextFPU.size else memory }

def readRegisters (s : FreeRtosSystem) (tid : BitVec 32) : TaskExec DebugEventContext := do
  let task ← s.lookupSavedTask tid
  let ctx ← s.savedContext task
  let stackPointer ← s.sp task
  return {
    registers := fun i => s.field ctx (SavedTaskContextFPU.gpRegisters i)
    stackPointer
    linkRegister := s.field ctx SavedTaskContextFPU.lr
    programCounter := s.field ctx SavedTaskContextFPU.pc
    cpsr := ⟨s.field ctx SavedTaskContextFPU.spsr⟩
    vfpRegisters := fun i =>
      if i.val < 16 then s.pairField ctx (SavedTaskContextFPU.d0_d15 i)
      else s.pairField ctx (SavedTaskContextFPU.d16_d31 (i - 16))
    fpscr := s.field ctx SavedTaskContextFPU.fpscr }

def contextWords (registers : DebugEventContext) (criticalNesting : BitVec 32) :
    List (BitVec 32) :=
  [1, registers.fpscr] ++
    (List.range 16).flatMap
      (fun i => pairWords (registers.vfpRegisters (Fin.ofNat 32 (16 + i)))) ++
    (List.range 16).flatMap (fun i => pairWords (registers.vfpRegisters (Fin.ofNat 32 i))) ++
    [criticalNesting] ++ (List.range 13).map (fun i => registers.registers (Fin.ofNat 13 i)) ++
    [registers.linkRegister, registers.programCounter, registers.cpsr.raw]

def recordValue (c : DebugEventContext) : ArmRegisterID → SavedRegister
  | .gpr i => .u32 (c.registers (Fin.ofNat 13 i.toNat))
  | .sp => .u32 c.stackPointer
  | .lr => .u32 c.linkRegister
  | .pc => .u32 c.programCounter
  | .cpsr => .u32 c.cpsr.raw
  | .fpr i => .u64 (c.vfpRegisters (Fin.ofNat 32 i.toNat))
  | .fpscr => .u32 c.fpscr

def writeRegisters (s : FreeRtosSystem) (tid : BitVec 32) (registers : DebugEventContext) :
    TaskExec FreeRtosSystem := do
  let task ← s.lookupSavedTask tid
  let old ← s.savedContext task
  let criticalNesting := s.field old SavedTaskContextFPU.ulCriticalNesting
  -- this changes where the context should be, so it is located once more
  let s ← s.setSp task registers.stackPointer false
  let ctx ← s.savedContext task
  return { s with memory := storeWords s.memory ctx (contextWords registers criticalNesting) }

def readSingleRegister (s : FreeRtosSystem) (tid : BitVec 32) (id : ArmRegisterID) :
    TaskExec SavedRegister := do
  let task ← s.lookupSavedTask tid
  let ctx ← s.savedContext task
  match id with
  | .gpr i =>
    if i.toNat < 13 then return .u32 (s.field ctx (SavedTaskContextFPU.gpRegisters i.toNat))
    else throw .outOfBounds
  | .lr => return .u32 (s.field ctx SavedTaskContextFPU.lr)
  | .pc => return .u32 (s.field ctx SavedTaskContextFPU.pc)
  | .cpsr => return .u32 (s.field ctx SavedTaskContextFPU.spsr)
  | .fpr i =>
    if 16 ≤ i.toNat then
      if i.toNat - 16 < 16 then
        return .u64 (s.pairField ctx (SavedTaskContextFPU.d16_d31 (i.toNat - 16)))
      else throw .outOfBounds
    else return .u64 (s.pairField ctx (SavedTaskContextFPU.d0_d15 i.toNat))
  | .fpscr => return .u32 (s.field ctx SavedTaskContextFPU.fpscr)
  | .sp => return .u32 (← s.sp task)

def writeSingleRegister (s : FreeRtosSystem) (tid : BitVec 32) (id : ArmRegisterID)
    (value : SavedRegister) : TaskExec FreeRtosSystem := do
  let task ← s.lookupSavedTask tid
  let ctx ← s.savedContext task
  match id with
  | .gpr i => do
    let v ← value.unwrapU32
    if i.toNat < 13 then return s.setField ctx (SavedTaskContextFPU.gpRegisters i.toNat) v
    else throw .outOfBounds
  | .lr => return s.setField ctx SavedTaskContextFPU.lr (← value.unwrapU32)
  | .pc => return s.setField ctx SavedTaskContextFPU.pc (← value.unwrapU32)
  | .cpsr => return s.setField ctx SavedTaskContextFPU.spsr (← value.unwrapU32)
  | .fpr i => do
    let v ← value.unwrapU64
    if 16 ≤ i.toNat then
      if i.toNat - 16 < 16 then
        return s.setPairField ctx (SavedTaskContextFPU.d16_d31 (i.toNat - 16)) v
      else throw .outOfBounds
    else return s.setPairField ctx (SavedTaskContextFPU.d0_d15 i.toNat) v
  | .fpscr => return s.setField ctx SavedTaskContextFPU.fpscr (← value.unwrapU32)
  | .sp => do
    let v ← value.unwrapU32
    s.setSp task v true

end FreeRtosSystem
end V5gdb
