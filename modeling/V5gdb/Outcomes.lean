import Mathlib.Data.BitVec

/-!
How the debugger's functions end.
A Rust panic is an error of `Exec`; a Rust `Result` or `bool` that the caller
gets to see is part of the returned value.
-/
namespace V5gdb

inductive BreakpointError
  | cannotWrite
  | alreadyExists
  | noSpace
  | notAlignedCorrectly
  deriving DecidableEq, Repr

/-- The panics of the modelled functions, one constructor for each source of them. -/
inductive Panic
  /-- `assert!(addr.is_aligned())` of an instruction fetch. -/
  | unalignedInstruction
  /-- "Debug registers must be unlocked" -/
  | registersLocked
  /-- `total_breaks - breaks_used` below zero. -/
  | slotUnderflow
  /-- `unwrap` of a failed registration. -/
  | unwrapFailed (e : BreakpointError)
  /-- "Couldn't set up single step" -/
  | singleStepSetup (e : BreakpointError)
  /-- "Can't single step a different thread" -/
  | stepOtherThread
  /-- "bkpt deleted before it could be handled" -/
  | bkptDeleted
  /-- `assert!(self.internal_breaks.is_none())` -/
  | internalBreaksSet
  /-- "Cannot resume from transitioning state" -/
  | transitioning
  /-- `copy_from_slice` between slices of different lengths. -/
  | sliceLength
  deriving DecidableEq, Repr

abbrev Exec := Except Panic

theorem Exec.bind_ok {α β : Type} {x : Exec α} {f : α → Exec β} {b : β} :
    (x >>= f) = .ok b ↔ ∃ a, x = .ok a ∧ f a = .ok b := by
  cases x with
  | error e => simp [bind, Except.bind]
  | ok a => simp [bind, Except.bind]

theorem Exec.bind_error {α β : Type} {x : Exec α} {f : α → Exec β} {e : Panic} :
    (x >>= f) = .error e ↔ x = .error e ∨ ∃ a, x = .ok a ∧ f a = .error e := by
  cases x with
  | error e => simp [bind, Except.bind]
  | ok a => simp [bind, Except.bind]

inductive TargetError
  | nonFatal
  | errno (code : BitVec 8)
  deriving DecidableEq, Repr

def efault : BitVec 8 := 14

end V5gdb
