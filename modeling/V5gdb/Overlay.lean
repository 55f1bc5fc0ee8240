import V5gdb.ArmState
import V5gdb.DebugFrame

/-!
The exception entry of the overlay vector table.
Prefetch and data aborts that are debug events are caught, and the state of the
program is pushed on the abort stack for the handler; every other abort is passed
on as it came. The handler and the call that resumes the scheduler are known by
what they leave alone.
-/
namespace V5gdb

open ByteMemory Arm

inductive AbortKind
  | prefetch
  | data
  deriving DecidableEq, Repr

/-- How far past the preferred return address the link register is. -/
def AbortKind.linkOffset : AbortKind → BitVec 32
  | prefetch => 4
  | data => 8

def AbortKind.faultStatusRegister (kind : AbortKind) (s : State) : BitVec 32 :=
  match kind with
  | prefetch => s.ifsr
  | data => s.dfsr

/-- `FS[4:0]`, which is in two parts. -/
def faultStatus (fsr : BitVec 32) : BitVec 5 :=
  (Bitfields.field 10 1 fsr ++ Bitfields.field 0 4 fsr : BitVec (1 + 4))

def debugEventStatus : BitVec 5 := 0b00010

/-- What is assembled: with or without `FREERTOS`, and the fields that the
assembler takes `spsr` for. -/
structure Build where
  freertos : Bool
  fields : StatusFields

inductive AbortTarget
  | originalVector
  | catchDebugEvent
  deriving DecidableEq, Repr

/-- Leaves the condition `eq` for a debug event, and the registers as they were. -/
def testFaultStatus (faultStatusRegister : State → BitVec 32) (s : State) : State :=
  -- push {r0}; mrc p15, 0, r0, c5, c0, 1 (or 0 for the data fault status)
  let s := s.push [s.gpr r0]
  let s := s.setGpr r0 (faultStatusRegister s)
  -- and r0, #0b1111; cmp r0, #0b00010; pop {r0}
  let s := s.setGpr r0 (s.gpr r0 &&& 0b1111)
  let s := s.cmp (s.gpr r0) 0b00010
  (s.setGpr r0 (s.top 0)).release 1

/-- The two abort handlers differ in the fault status register and the offset. -/
def abortHandler (faultStatusRegister : State → BitVec 32) (offset : BitVec 32) (s : State) :
    AbortTarget × State :=
  let s := testFaultStatus faultStatusRegister s
  if s.eq then (.catchDebugEvent, s.setLr (s.currentLr - offset)) else (.originalVector, s)

def prefetchAbortHandler : State → AbortTarget × State := abortHandler State.ifsr 4

def dataAbortHandler : State → AbortTarget × State := abortHandler State.dfsr 8

def AbortKind.vector : AbortKind → State → AbortTarget × State
  | prefetch => prefetchAbortHandler
  | data => dataAbortHandler

def lowerDoubles : List (Fin 32) := (List.finRange 32).take 16

def upperDoubles : List (Fin 32) := (List.finRange 32).drop 16

namespace CatchDebugEvent

def saveGeneral (s : State) : State :=
  -- push {r0-r12,lr}
  s.push ((List.finRange 13).map s.gpr ++ [s.currentLr])

def saveFloating (s : State) : State :=
  -- vpush {d16-d31}; vpush {d0-d15}; vmrs r0, fpscr; push {r0}
  let s := (s.vpush upperDoubles).vpush lowerDoubles
  let s := s.setGpr r0 s.fpscr
  s.push [s.gpr r0]

def saveUserBank (s : State) : State :=
  -- stmdb sp, {sp,lr}^; sub sp, sp, #8
  let s := s.storeUserBank
  s.setSp (s.currentSp - 8)

def saveStatus (s : State) : State :=
  -- mrs r0, spsr; push {r0}
  let s := s.mrsSpsr r0
  s.push [s.gpr r0]

/-- Up to the call of the handler, the argument of which is in r0. -/
def save (s : State) : State :=
  let s := saveStatus (saveUserBank (saveFloating (saveGeneral s)))
  -- mov r0, sp
  s.setGpr r0 s.currentSp

/-- `v5gdb_handle_debug_event` has left `c` in the struct and has returned. Nothing
is said about the registers and the memory that are not named here. -/
structure HandlerReturns (s : State) (c : DebugEventContext) (resume : Bool) (s' : State) :
    Prop where
  mode : s'.mode = s.mode
  sp : s'.sp .abort = s.sp .abort
  spsr : s'.spsr .abort = s.spsr .abort
  record : DebugEventContext.recordAt s'.mem (s.gpr r0) = c
  result : s'.gpr r0 = if resume then 1 else 0

def restoreStatus (fields : StatusFields) (s : State) : State :=
  -- cpsid i; pop {r1}; msr spsr, r1
  let s := s.cpsidI
  let s := (s.setGpr r1 (s.top 0)).release 1
  s.msrSpsr fields (s.gpr r1)

def restoreUserBank (s : State) : State :=
  -- ldm sp, {sp,lr}^; add sp, sp, #8
  s.loadUserBank.release 2

def checkResult (s : State) : State := s.cmp (s.gpr r0) 0

/-- Up to the call of `xTaskResumeAll`, on the stack of the program. -/
def enterSystemMode (s : State) : State :=
  -- cps #0b11111; mov r0, sp; bic sp, sp, #0b111; push {r0,lr}
  let s := s.cps 0b11111
  let s := s.setGpr r0 s.currentSp
  let s := s.setSp (s.currentSp &&& ~~~0b111)
  s.push [s.gpr r0, s.currentLr]

/-- `xTaskResumeAll` has returned, and no debug event was taken meanwhile. It has
left alone what lies above its stack pointer. -/
structure SchedulerResumed (s s' : State) : Prop where
  mode : s'.mode = s.mode
  sp : s'.sp .user = s.sp .user
  saved : ∀ x, Within (s.sp .user) 8 x → s'.mem x = s.mem x
  abortSp : s'.sp .abort = s.sp .abort
  spsr : s'.spsr .abort = s.spsr .abort
  frame : ∀ x, Within (s.sp .abort) 316 x → s'.mem x = s.mem x

def leaveSystemMode (s : State) : State :=
  -- pop {r0,lr}; mov sp, r0; cps #0b10111
  let s := ((s.setGpr r0 (s.top 0)).setLr (s.top 1)).release 2
  let s := s.setSp (s.gpr r0)
  s.cps 0b10111

def restoreFpscr (s : State) : State :=
  -- pop {r0}; vmsr fpscr, r0
  let s := (s.setGpr r0 (s.top 0)).release 1
  { s with fpscr := s.gpr r0 }

def restoreGeneral (s : State) : State :=
  -- vpop {d0-d15}; vpop {d16-d31}; ldm sp!, {r0-r12, pc}^
  (((restoreFpscr s).vpop lowerDoubles).vpop upperDoubles).exceptionReturn

/-- From `cpsid i` to the exception return. -/
inductive Restores (b : Build) (s : State) : State → Prop
  | withoutScheduler (hbuild : b.freertos = false) :
      Restores b s (restoreGeneral (restoreUserBank (restoreStatus b.fields s)))
  | schedulerKept (hbuild : b.freertos = true)
      (hresult : (checkResult (restoreUserBank (restoreStatus b.fields s))).eq = true) :
      Restores b s
        (restoreGeneral (checkResult (restoreUserBank (restoreStatus b.fields s))))
  | schedulerResumed (s' : State) (hbuild : b.freertos = true)
      (hresult : (checkResult (restoreUserBank (restoreStatus b.fields s))).eq = false)
      (hcall : SchedulerResumed
        (enterSystemMode (checkResult (restoreUserBank (restoreStatus b.fields s)))) s') :
      Restores b s (restoreGeneral (leaveSystemMode s'))

/-- `catch_debug_event` as a whole, where the handler leaves `c`. -/
def Run (b : Build) (s : State) (c : DebugEventContext) (resume : Bool) (s' : State) : Prop :=
  ∃ t, HandlerReturns (save s) c resume t ∧ Restores b t s'

end CatchDebugEvent

section AbortHandlers

variable {s : State} {fsr : State → BitVec 32} {offset : BitVec 32}

theorem and_low_bits (v : BitVec 32) : v &&& 0b1111 = (Bitfields.field 0 4 v).setWidth 32 := by
  apply BitVec.eq_of_getLsbD_eq
  intro i hi
  rw [BitVec.getLsbD_and, BitVec.getLsbD_setWidth, Bitfields.getLsbD_field, Nat.zero_add]
  have hmask : (0b1111 : BitVec 32).getLsbD i = decide (i < 4) := by
    revert hi i
    decide
  rw [hmask]
  simp [hi, Bool.and_comm]

/-- The comparison is with four bits of the fault status out of five. -/
theorem low_bits_eq_iff (v : BitVec 32) :
    v &&& 0b1111 = 0b00010 ↔ faultStatus v = debugEventStatus ∨ faultStatus v = 0b10010 := by
  rw [and_low_bits, faultStatus, debugEventStatus]
  generalize Bitfields.field 10 1 v = high
  generalize Bitfields.field 0 4 v = low
  revert high low
  decide

structure SameRegisters (s s' : State) : Prop where
  gpr : s'.gpr = s.gpr
  sp : s'.sp = s.sp
  lr : s'.lr = s.lr
  spsr : s'.spsr = s.spsr
  mode : s'.mode = s.mode
  fpscr : s'.fpscr = s.fpscr
  d : s'.d = s.d

theorem testFaultStatus_spec (hfsr : ∀ words, fsr (s.push words) = fsr s) :
    SameRegisters s (testFaultStatus fsr s) ∧
      (testFaultStatus fsr s).eq = decide (fsr s &&& 0b1111 = 0b00010) := by
  have hpushed := State.pushed_push s [s.gpr r0]
  let tested := (((s.push [s.gpr r0]).setGpr r0 (fsr (s.push [s.gpr r0]))).setGpr r0
    (fsr (s.push [s.gpr r0]) &&& 0b1111)).cmp (fsr (s.push [s.gpr r0]) &&& 0b1111) 0b00010
  have htested : testFaultStatus fsr s = (tested.setGpr r0 (tested.top 0)).release 1 := rfl
  have hmode : tested.mode = s.mode := State.mode_cmp _ _ _
  have hbank : tested.bank = s.bank := by rw [State.bank, hmode, State.bank]
  have hsp : tested.currentSp = s.currentSp - 4 := by
    rw [State.currentSp, hbank]
    exact hpushed.currentSp
  have htop : tested.top 0 = s.gpr r0 := by
    have hmem : tested.mem = storeWords s.mem (s.currentSp - 4) [s.gpr r0] := rfl
    rw [State.top, hsp, hmem]
    exact loadWord_storeWords s.mem _ (by simp) rfl
  have hfault : tested.eq = decide (fsr s &&& 0b1111 = 0b00010) := by
    rw [← hfsr [s.gpr r0]]
    exact State.eq_cmp _ _ _
  rw [htested]
  refine ⟨?_, hfault⟩
  constructor
  case gpr =>
    have hgpr : tested.gpr = Function.update (Function.update s.gpr r0 _) r0 _ := rfl
    have hpop : ((tested.setGpr r0 (tested.top 0)).release 1).gpr =
        Function.update tested.gpr r0 (tested.top 0) := rfl
    rw [hpop, htop, hgpr, Function.update_idem, Function.update_idem, Function.update_eq_self]
  case sp =>
    have hpop : ((tested.setGpr r0 (tested.top 0)).release 1).sp =
        Function.update tested.sp tested.bank (tested.currentSp + BitVec.ofNat 32 (4 * 1)) := rfl
    have hback : s.currentSp - 4 + BitVec.ofNat 32 (4 * 1) = s.currentSp :=
      BitVec.sub_add_cancel _ _
    have hpush : tested.sp = Function.update s.sp s.bank (s.currentSp - 4) := rfl
    rw [hpop, hbank, hsp, hback, hpush, Function.update_idem, State.currentSp,
      Function.update_eq_self]
  case mode => exact hmode
  all_goals rfl

end AbortHandlers

namespace CatchDebugEvent

variable {s s' t : State} {c : DebugEventContext} {a status : BitVec 32}
def savedContext (s : State) : DebugEventContext where
  cpsr := ⟨s.spsr .abort⟩
  stackPointer := s.sp .user
  linkRegister := s.lr .user
  fpscr := s.fpscr
  vfpRegisters := s.d
  registers := s.gpr
  programCounter := s.lr .abort

theorem pushed_saveFloating (s : State) :
    State.Pushed s (s.fpscr :: (List.finRange 32).flatMap fun i => doubleWords (s.d i))
      (saveFloating s) := by
  have hupper := State.pushed_vpush s upperDoubles
  have hlower := State.pushed_vpush (s.vpush upperDoubles) lowerDoubles
  have hstatus := State.pushed_through_r0 ((s.vpush upperDoubles).vpush lowerDoubles) s.fpscr
  have hwords := (hupper.trans hlower).trans hstatus
  rw [hupper.d, ← List.flatMap_append, lowerDoubles, upperDoubles,
    List.take_append_drop] at hwords
  exact hwords

theorem pushed_saveUserBank (s : State) :
    State.Pushed s [s.sp .user, s.lr .user] (saveUserBank s) where
  gpr := fun _ _ => rfl
  sp := rfl
  lr := rfl
  spsr := rfl
  cpsr := rfl
  fpscr := rfl
  d := rfl
  mem := rfl

theorem pushed_saveStatus (s : State) : State.Pushed s [s.spsr s.bank] (saveStatus s) :=
  State.pushed_through_r0 s (s.spsr s.bank)

/-- The pushes build the struct from its end. -/
theorem pushed_save (hbank : s.bank = .abort) :
    State.Pushed s (savedContext s).frameWords
      (saveStatus (saveUserBank (saveFloating (saveGeneral s)))) := by
  have hgeneral : State.Pushed s ((List.finRange 13).map s.gpr ++ [s.currentLr])
      (saveGeneral s) := State.pushed_push s _
  have hfloating := hgeneral.trans (pushed_saveFloating (saveGeneral s))
  have huser := hfloating.trans (pushed_saveUserBank _)
  have hstatus := huser.trans (pushed_saveStatus _)
  have hsp : (saveFloating (saveGeneral s)).sp .user = s.sp .user := by
    rw [hfloating.sp, hbank]
    rfl
  rw [huser.bank, hbank, huser.spsr, hsp, hfloating.lr, hgeneral.fpscr, hgeneral.d,
    State.currentLr, hbank] at hstatus
  rw [DebugEventContext.frameWords_eq]
  simpa [savedContext] using hstatus

theorem save_spec (hbank : s.bank = .abort) :
    (save s).gpr r0 = s.sp .abort - 328 ∧ (save s).sp .abort = s.sp .abort - 328 ∧
      (save s).spsr = s.spsr ∧ (save s).mode = s.mode ∧
      DebugEventContext.recordAt (save s).mem ((save s).gpr r0) = savedContext s := by
  have hpushed := pushed_save hbank
  have hplace : s.currentSp - BitVec.ofNat 32 (4 * (savedContext s).frameWords.length) =
      s.sp .abort - 328 := by
    rw [DebugEventContext.length_frameWords, State.currentSp, hbank]
    rfl
  have hsp := hpushed.sp
  have hcurrent := hpushed.currentSp
  have hmem := hpushed.mem
  rw [hplace] at hsp hcurrent hmem
  have hr0 : (save s).gpr r0 = s.sp .abort - 328 := hcurrent
  refine ⟨hr0, ?_, hpushed.spsr, ?_, ?_⟩
  · exact (congrFun hsp .abort).trans (by rw [hbank]; rfl)
  · exact congrArg (Bitfields.field 0 5) hpushed.cpsr
  · rw [hr0]
    exact (congrArg (DebugEventContext.recordAt · _) hmem).trans
      (DebugEventContext.recordAt_storeWords ..)

end CatchDebugEvent
end V5gdb
