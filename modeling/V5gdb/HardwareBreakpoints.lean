import V5gdb.DebugRegisters
import V5gdb.SlotLoops

/-!
The hardware breakpoint manager.
Its bookkeeping is kept twice: in `usedBreakpoints` and in the enable bits of the
control registers. Only the first `numBreakpoints` of the 16 slots exist. Every
function that changes a breakpoint panics while the debug registers are locked.
-/
namespace V5gdb

open SlotLoops

inductive ArmBreakpointKind
  | thumb16
  | thumb32
  | arm32
  deriving DecidableEq, Repr

/-- Both sizes of Thumb instruction are treated alike. -/
def ArmBreakpointKind.isThumb : ArmBreakpointKind → Bool
  | thumb16 => true
  | thumb32 => true
  | arm32 => false

inductive Specificity
  /-- Triggered at the specified address. -/
  | matching
  /-- Triggered at every other address. -/
  | mismatching
  deriving DecidableEq, Repr

def Specificity.breakpointType : Specificity → BreakpointType
  | matching => .unlinkedInstrAddressMatch
  | mismatching => .unlinkedInstrAddressMismatch

theorem Specificity.breakpointType_injective {a b : Specificity}
    (h : a.breakpointType = b.breakpointType) : a = b := by
  cases a <;> cases b <;> simp_all [breakpointType]

/-- The word containing an address, and the select bits of the bytes that the
instruction takes up in it. -/
def splitAddr (addr : Addr) (kind : ArmBreakpointKind) :
    Except BreakpointError (BitVec 32 × BitVec 4) :=
  let word := addr &&& ~~~0b11
  match kind with
  | .arm32 =>
    if addr.toNat % 4 = 0 then .ok (word, 0b1111) else .error .notAlignedCorrectly
  | .thumb16 | .thumb32 =>
    if addr.toNat % 2 = 0 then
      if addr.toNat % 4 = 0 then .ok (word, 0b0011) else .ok (word, 0b1100)
    else .error .notAlignedCorrectly

structure HardwareCapabilities where
  numBreakpoints : ℕ
  numWatchpoints : ℕ
  numBreakpoints_pos : 0 < numBreakpoints
  numBreakpoints_le : numBreakpoints ≤ 16
  numWatchpoints_le : numWatchpoints ≤ 16

/-- The fields `brps` and `wrps` of the debug ID count one less than there are. -/
def HardwareCapabilities.ofDebugId (id : BitVec 32) : HardwareCapabilities where
  numBreakpoints := (Bitfields.field 24 4 id).toNat + 1
  numWatchpoints := (Bitfields.field 28 4 id).toNat + 1
  numBreakpoints_pos := Nat.succ_pos _
  numBreakpoints_le := (Bitfields.field 24 4 id).isLt
  numWatchpoints_le := (Bitfields.field 28 4 id).isLt

structure HwBreakpointManager where
  capabilities : HardwareCapabilities
  mmio : DebugLogic
  usedBreakpoints : Fin 16 → Bool

namespace HwBreakpointManager

def locked (m : HwBreakpointManager) : Bool := m.mmio.softwareLockStatus

def setLocked (m : HwBreakpointManager) (locked : Bool) : HwBreakpointManager :=
  { m with mmio := m.mmio.writeLockAccess (if locked then 0 else DEBUG_UNLOCK_MAGIC) }

/-- A value that clearly is not a real address. -/
def RESET_SENTINEL : BitVec 32 := 0xf0f0f0f0

def resetBreakpoint (d : DebugLogic) (i : Fin 16) : DebugLogic :=
  (d.writeBreakpointCtrl i .DISABLED).writeBreakpointValue i RESET_SENTINEL

def resetWatchpoint (d : DebugLogic) (i : Fin 16) : DebugLogic :=
  (d.writeWatchpointCtrl i 0).writeWatchpointValue i RESET_SENTINEL

/-- Disable all existing breakpoints and enable Monitor (debug exception) hardware debug mode. -/
def reset (m : HwBreakpointManager) : Exec HwBreakpointManager :=
  if m.locked then .error .registersLocked
  else
    let breaks := (below 16 m.capabilities.numBreakpoints).foldl resetBreakpoint m.mmio
    let watches := (below 16 m.capabilities.numWatchpoints).foldl resetWatchpoint breaks
    .ok { m with
      mmio := watches.modifyStatusControlExt fun ctrl =>
        (ctrl.withHaltingDebugMode false).withMonitorDebugMode true
      usedBreakpoints := fun _ => false }

/-- Takes the debug registers over in whatever state they are, and leaves them locked. -/
def setup (debugId : BitVec 32) (mmio : DebugLogic) : Exec HwBreakpointManager := do
  let manager : HwBreakpointManager :=
    { capabilities := .ofDebugId debugId, mmio, usedBreakpoints := fun _ => false }
  let manager ← (manager.setLocked false).reset
  return manager.setLocked true

def configuredAs (m : HwBreakpointManager) (word : BitVec 32) (bas : BitVec 4)
    (specificity : Specificity) (i : Fin 16) : Bool :=
  (m.mmio.breakpointCtrl i).enabled &&
    (m.mmio.breakpointCtrl i).breakpointType = some specificity.breakpointType &&
    (m.mmio.breakpointCtrl i).byteAddressSelect = bas &&
    m.mmio.breakpointValue i = word

/-- A slot that is both paused and not in use. -/
def isFree (m : HwBreakpointManager) (i : Fin 16) : Bool :=
  !(m.mmio.breakpointCtrl i).enabled && !m.usedBreakpoints i

def enableSlot (m : HwBreakpointManager) (word : BitVec 32) (bas : BitVec 4)
    (specificity : Specificity) (i : Fin 16) : HwBreakpointManager :=
  { m with
    mmio := (m.mmio.writeBreakpointValue i word).modifyBreakpointCtrl i fun bkpt =>
      bkpt.arm bas specificity.breakpointType
    usedBreakpoints := Function.update m.usedBreakpoints i true }

def addBreakpointAt (m : HwBreakpointManager) (addr : Addr) (specificity : Specificity)
    (kind : ArmBreakpointKind) : Exec (HwBreakpointManager × Except BreakpointError Unit) :=
  if m.locked then .error .registersLocked
  else
    match splitAddr addr kind with
    | .error e => .ok (m, .error e)
    | .ok (newWord, newBas) =>
      let duplicate := fun i =>
        if m.configuredAs newWord newBas specificity i then some () else none
      match scan duplicate m.isFree none (below 16 m.capabilities.numBreakpoints) with
      | .hit _ _ => .ok (m, .error .alreadyExists)
      | .miss none => .ok (m, .error .noSpace)
      | .miss (some i) => .ok (m.enableSlot newWord newBas specificity i, .ok ())

/-- One turn of the removal loop; the flag says whether anything was removed so far. -/
def disableSlot (word : BitVec 32) (bas : BitVec 4) (specificity : Specificity)
    (acc : HwBreakpointManager × Bool) (i : Fin 16) : HwBreakpointManager × Bool :=
  let (m, _) := acc
  if m.configuredAs word bas specificity i then
    ({ m with
      mmio := m.mmio.writeBreakpointCtrl i ((m.mmio.breakpointCtrl i).withEnabled false)
      usedBreakpoints := Function.update m.usedBreakpoints i false }, true)
  else acc

/-- Removes all breakpoints at the given address with the given kind and type;
true if any changes were made. -/
def removeBreakpointAt (m : HwBreakpointManager) (addr : Addr) (specificity : Specificity)
    (kind : ArmBreakpointKind) : Exec (HwBreakpointManager × Bool) :=
  if m.locked then .error .registersLocked
  else
    match splitAddr addr kind with
    | .error _ => .ok (m, false)
    | .ok (searchWord, bas) =>
      .ok ((below 16 m.capabilities.numBreakpoints).foldl
        (disableSlot searchWord bas specificity) (m, false))

def breakpointsAvailable (m : HwBreakpointManager) : Exec ℕ :=
  let breaksUsed := (List.finRange 16).countP m.usedBreakpoints
  let totalBreaks := m.capabilities.numBreakpoints
  if breaksUsed ≤ totalBreaks then .ok (totalBreaks - breaksUsed) else .error .slotUnderflow

def lastBreakReason (m : HwBreakpointManager) : Option DebugEventReason :=
  m.mmio.statusControlExt.methodOfEntry

@[simp] theorem locked_setLocked (m : HwBreakpointManager) (b : Bool) :
    (m.setLocked b).locked = b := by
  cases b <;> simp [locked, setLocked, DebugLogic.writeLockAccess, DEBUG_UNLOCK_MAGIC]

end HwBreakpointManager
end V5gdb
