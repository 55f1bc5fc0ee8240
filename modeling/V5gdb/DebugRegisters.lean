import V5gdb.Bitfields
import V5gdb.Instructions
import Mathlib.Logic.Function.Basic

/-!
The memory-mapped debug registers.
A breakpoint control register is a word with named fields; reading and setting
them is translated bit by bit. Writes are ignored while the software lock is on,
apart from writes of the lock itself.
-/
namespace V5gdb

open Bitfields

inductive BreakpointType
  | unlinkedInstrAddressMatch
  | linkedInstrAddressMatch
  | unlinkedContextIDMatch
  | linkedContextIDMatch
  | unlinkedInstrAddressMismatch
  | linkedInstrAddressMismatch
  deriving DecidableEq, Repr

namespace BreakpointType

def raw : BreakpointType → BitVec 4
  | unlinkedInstrAddressMatch => 0b0000
  | linkedInstrAddressMatch => 0b0001
  | unlinkedContextIDMatch => 0b0010
  | linkedContextIDMatch => 0b0011
  | unlinkedInstrAddressMismatch => 0b0100
  | linkedInstrAddressMismatch => 0b0101

def ofRaw (x : BitVec 4) : Option BreakpointType :=
  [unlinkedInstrAddressMatch, linkedInstrAddressMatch, unlinkedContextIDMatch,
    linkedContextIDMatch, unlinkedInstrAddressMismatch, linkedInstrAddressMismatch].find?
      fun t => t.raw = x

@[simp] theorem ofRaw_raw (t : BreakpointType) : ofRaw t.raw = some t := by
  cases t <;> decide

end BreakpointType

inductive SecurityFilter
  | all
  | notSecureOnly
  | secureOnly
  deriving DecidableEq, Repr

def SecurityFilter.raw : SecurityFilter → BitVec 2
  | all => 0b00
  | notSecureOnly => 0b01
  | secureOnly => 0b10

inductive PrivilegeModeFilter
  | userSystemSupervisorOnly
  | level1Only
  | userOnly
  | all
  deriving DecidableEq, Repr

def PrivilegeModeFilter.raw : PrivilegeModeFilter → BitVec 2
  | userSystemSupervisorOnly => 0b00
  | level1Only => 0b01
  | userOnly => 0b10
  | all => 0b11

structure BreakpointControl where
  raw : BitVec 32
  deriving DecidableEq, Repr

namespace BreakpointControl

def enabled (c : BreakpointControl) : Bool := field 0 1 c.raw = 1
def byteAddressSelect (c : BreakpointControl) : BitVec 4 := field 5 4 c.raw
def breakpointType (c : BreakpointControl) : Option BreakpointType :=
  BreakpointType.ofRaw (field 20 4 c.raw)

def withEnabled (c : BreakpointControl) (b : Bool) : BreakpointControl :=
  ⟨setField 0 c.raw (BitVec.ofBool b)⟩

def withPrivilegedModeCtrl (c : BreakpointControl) (f : PrivilegeModeFilter) :
    BreakpointControl := ⟨setField 1 c.raw f.raw⟩

def withByteAddressSelect (c : BreakpointControl) (bas : BitVec 4) : BreakpointControl :=
  ⟨setField 5 c.raw bas⟩

def withSecurityStateCtrl (c : BreakpointControl) (f : SecurityFilter) : BreakpointControl :=
  ⟨setField 14 c.raw f.raw⟩

def withLinkedBreakpointIndex (c : BreakpointControl) (idx : BitVec 4) : BreakpointControl :=
  ⟨setField 16 c.raw idx⟩

def withBreakpointType (c : BreakpointControl) (t : BreakpointType) : BreakpointControl :=
  ⟨setField 20 c.raw t.raw⟩

def withAddressRangeMask (c : BreakpointControl) (mask : BitVec 5) : BreakpointControl :=
  ⟨setField 24 c.raw mask⟩

def DISABLED : BreakpointControl := withEnabled ⟨0⟩ false

def arm (c : BreakpointControl) (bas : BitVec 4) (t : BreakpointType) : BreakpointControl :=
  (((((((c.withEnabled true).withByteAddressSelect bas).withAddressRangeMask 0b00000
    ).withLinkedBreakpointIndex 0).withBreakpointType t
    ).withPrivilegedModeCtrl .userSystemSupervisorOnly).withSecurityStateCtrl .all)

def Reserved (i : ℕ) : Prop := i = 3 ∨ i = 4 ∨ (9 ≤ i ∧ i < 14) ∨ 29 ≤ i

def Blank (c : BreakpointControl) : Prop :=
  ∀ i, i < 32 → Reserved i → c.raw.getLsbD i = false

@[simp] theorem enabled_arm (c : BreakpointControl) (bas : BitVec 4) (t : BreakpointType) :
    (c.arm bas t).enabled = true := by
  simp (disch := omega) only [enabled, arm, withSecurityStateCtrl, withPrivilegedModeCtrl,
    withBreakpointType, withLinkedBreakpointIndex, withAddressRangeMask, withByteAddressSelect,
    withEnabled, field_setField_of_disjoint, field_setField_self]
  rfl

@[simp] theorem byteAddressSelect_arm (c : BreakpointControl) (bas : BitVec 4)
    (t : BreakpointType) : (c.arm bas t).byteAddressSelect = bas := by
  simp (disch := omega) only [byteAddressSelect, arm, withSecurityStateCtrl,
    withPrivilegedModeCtrl, withBreakpointType, withLinkedBreakpointIndex, withAddressRangeMask,
    withByteAddressSelect, field_setField_of_disjoint, field_setField_self]

@[simp] theorem breakpointType_arm (c : BreakpointControl) (bas : BitVec 4)
    (t : BreakpointType) : (c.arm bas t).breakpointType = some t := by
  simp (disch := omega) only [breakpointType, arm, withSecurityStateCtrl, withPrivilegedModeCtrl,
    withBreakpointType, field_setField_of_disjoint, field_setField_self, BreakpointType.ofRaw_raw]

@[simp] theorem enabled_withEnabled (c : BreakpointControl) (b : Bool) :
    (c.withEnabled b).enabled = b := by
  rw [enabled, withEnabled, field_setField_self _ _ (by omega)]
  cases b <;> rfl

theorem blank_withEnabled {c : BreakpointControl} (hc : c.Blank) (b : Bool) :
    (c.withEnabled b).Blank := by
  intro i hi hres
  rw [withEnabled, getLsbD_setField _ _ _ _ hi, if_neg, hc i hi hres]
  unfold Reserved at hres
  omega

theorem blank_disabled : DISABLED.Blank := by
  refine blank_withEnabled ?_ false
  intro i _ _
  exact BitVec.getLsbD_zero

theorem blank_arm {c : BreakpointControl} (hc : c.Blank) (bas : BitVec 4) (t : BreakpointType) :
    (c.arm bas t).Blank := by
  intro i hi hres
  have h := hc i hi hres
  unfold Reserved at hres
  simp only [arm, withSecurityStateCtrl, withPrivilegedModeCtrl, withBreakpointType,
    withLinkedBreakpointIndex, withAddressRangeMask, withByteAddressSelect, withEnabled,
    getLsbD_setField _ _ _ _ hi]
  repeat rw [if_neg (by omega)]
  exact h

/-- An armed register does not depend on what the fields held before. -/
theorem arm_eq_of_blank {c d : BreakpointControl} (hc : c.Blank) (hd : d.Blank) (bas : BitVec 4)
    (t : BreakpointType) : c.arm bas t = d.arm bas t := by
  have hraw : (c.arm bas t).raw = (d.arm bas t).raw := by
    apply BitVec.eq_of_getLsbD_eq
    intro i hi
    simp only [arm, withSecurityStateCtrl, withPrivilegedModeCtrl, withBreakpointType,
      withLinkedBreakpointIndex, withAddressRangeMask, withByteAddressSelect, withEnabled,
      getLsbD_setField _ _ _ _ hi]
    split_ifs
    all_goals first
      | rfl
      | rw [hc i hi (by unfold Reserved; omega), hd i hi (by unfold Reserved; omega)]
  exact congrArg BreakpointControl.mk hraw

end BreakpointControl

inductive DebugEventReason
  | haltReq
  | breakpoint
  | asyncWatchpoint
  | bkptInstr
  | extDebugReq
  | vectorCatch
  | osUnlock
  | syncWatchpoint
  deriving DecidableEq, Repr

namespace DebugEventReason

def raw : DebugEventReason → BitVec 4
  | haltReq => 0b0000
  | breakpoint => 0b0001
  | asyncWatchpoint => 0b0010
  | bkptInstr => 0b0011
  | extDebugReq => 0b0100
  | vectorCatch => 0b0101
  | osUnlock => 0b1000
  | syncWatchpoint => 0b1010

def ofRaw (x : BitVec 4) : Option DebugEventReason :=
  [haltReq, breakpoint, asyncWatchpoint, bkptInstr, extDebugReq, vectorCatch, osUnlock,
    syncWatchpoint].find? fun r => r.raw = x

@[simp] theorem ofRaw_raw (r : DebugEventReason) : ofRaw r.raw = some r := by
  cases r <;> decide

end DebugEventReason

structure DebugStatusControl where
  raw : BitVec 32
  deriving DecidableEq, Repr

namespace DebugStatusControl

def methodOfEntry (c : DebugStatusControl) : Option DebugEventReason :=
  DebugEventReason.ofRaw (field 2 4 c.raw)

def withHaltingDebugMode (c : DebugStatusControl) (b : Bool) : DebugStatusControl :=
  ⟨setField 14 c.raw (BitVec.ofBool b)⟩

def withMonitorDebugMode (c : DebugStatusControl) (b : Bool) : DebugStatusControl :=
  ⟨setField 15 c.raw (BitVec.ofBool b)⟩

end DebugStatusControl

/-- Writing this value to the lock access register enables writing to debug registers. -/
def DEBUG_UNLOCK_MAGIC : BitVec 32 := 0xC5ACCE55

structure DebugLogic where
  statusControlExt : DebugStatusControl
  breakpointValue : Fin 16 → BitVec 32
  breakpointCtrl : Fin 16 → BreakpointControl
  watchpointValue : Fin 16 → BitVec 32
  watchpointCtrl : Fin 16 → BitVec 32
  softwareLockStatus : Bool

namespace DebugLogic

/-- A register write, which has no effect while the software lock is on. -/
def whenUnlocked (d d' : DebugLogic) : DebugLogic := if d.softwareLockStatus then d else d'

def writeBreakpointValue (d : DebugLogic) (i : Fin 16) (v : BitVec 32) : DebugLogic :=
  d.whenUnlocked { d with breakpointValue := Function.update d.breakpointValue i v }

def writeBreakpointCtrl (d : DebugLogic) (i : Fin 16) (c : BreakpointControl) : DebugLogic :=
  d.whenUnlocked { d with breakpointCtrl := Function.update d.breakpointCtrl i c }

def modifyBreakpointCtrl (d : DebugLogic) (i : Fin 16)
    (f : BreakpointControl → BreakpointControl) : DebugLogic :=
  d.writeBreakpointCtrl i (f (d.breakpointCtrl i))

def writeWatchpointValue (d : DebugLogic) (i : Fin 16) (v : BitVec 32) : DebugLogic :=
  d.whenUnlocked { d with watchpointValue := Function.update d.watchpointValue i v }

def writeWatchpointCtrl (d : DebugLogic) (i : Fin 16) (c : BitVec 32) : DebugLogic :=
  d.whenUnlocked { d with watchpointCtrl := Function.update d.watchpointCtrl i c }

def modifyStatusControlExt (d : DebugLogic) (f : DebugStatusControl → DebugStatusControl) :
    DebugLogic :=
  d.whenUnlocked { d with statusControlExt := f d.statusControlExt }

def writeLockAccess (d : DebugLogic) (v : BitVec 32) : DebugLogic :=
  { d with softwareLockStatus := v ≠ DEBUG_UNLOCK_MAGIC }

theorem writeBreakpointValue_of_unlocked {d : DebugLogic} (h : d.softwareLockStatus = false)
    (i : Fin 16) (v : BitVec 32) :
    d.writeBreakpointValue i v =
      { d with breakpointValue := Function.update d.breakpointValue i v } := by
  simp [writeBreakpointValue, whenUnlocked, h]

theorem writeBreakpointCtrl_of_unlocked {d : DebugLogic} (h : d.softwareLockStatus = false)
    (i : Fin 16) (c : BreakpointControl) :
    d.writeBreakpointCtrl i c =
      { d with breakpointCtrl := Function.update d.breakpointCtrl i c } := by
  simp [writeBreakpointCtrl, whenUnlocked, h]

structure SameBreakpoints (d d' : DebugLogic) : Prop where
  value : d'.breakpointValue = d.breakpointValue
  ctrl : d'.breakpointCtrl = d.breakpointCtrl
  lock : d'.softwareLockStatus = d.softwareLockStatus

theorem SameBreakpoints.trans {d d' d'' : DebugLogic} (h : d.SameBreakpoints d')
    (h' : d'.SameBreakpoints d'') : d.SameBreakpoints d'' :=
  ⟨h'.value.trans h.value, h'.ctrl.trans h.ctrl, h'.lock.trans h.lock⟩

theorem writeWatchpointValue_same (d : DebugLogic) (i : Fin 16) (v : BitVec 32) :
    d.SameBreakpoints (d.writeWatchpointValue i v) := by
  unfold writeWatchpointValue whenUnlocked
  split_ifs <;> exact ⟨rfl, rfl, rfl⟩

theorem writeWatchpointCtrl_same (d : DebugLogic) (i : Fin 16) (c : BitVec 32) :
    d.SameBreakpoints (d.writeWatchpointCtrl i c) := by
  unfold writeWatchpointCtrl whenUnlocked
  split_ifs <;> exact ⟨rfl, rfl, rfl⟩

theorem modifyStatusControlExt_same (d : DebugLogic)
    (f : DebugStatusControl → DebugStatusControl) :
    d.SameBreakpoints (d.modifyStatusControlExt f) := by
  unfold modifyStatusControlExt whenUnlocked
  split_ifs <;> exact ⟨rfl, rfl, rfl⟩

end DebugLogic
end V5gdb
