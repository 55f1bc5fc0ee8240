import V5gdb.BreakpointTable
import V5gdb.HardwareKeys
import V5gdb.System

/-!
The state the debugger starts in.
Every run begins with a session that was booted: its debug registers are locked
and hold no breakpoint, and its table holds the internal breakpoint alone.
-/
namespace V5gdb.DebugSession

open RecordLayouts Transitions

structure Booted (debugId : BitVec 32) (mmio : DebugLogic) (memory : CodeMemory)
    (exitFunc : Addr) (s : DebugSession) : Prop where
  manager : HwBreakpointManager.setup debugId mmio = .ok s.target.hwManager
  registered : (SwState.empty memory).registerSwBreakpoint (exitFunc &&& ~~~1)
    (exitFunc &&& 1 ≠ 0) true = .ok (s.target.toSwState, .ok ())
  internalBreaks : s.internalBreaks = some (.systemExitRequest, exitFunc &&& ~~~1)
  stage : s.stage = .uninitialized
  status : s.target.monitorStatus = .resumingProgram
  request : s.target.singleStepRequest = none
  pending : s.target.interruptPending = false

variable {debugId : BitVec 32} {mmio : DebugLogic} {memory : CodeMemory} {exitFunc : Addr}
  {stopMotorsOnBreak : Bool} {s : DebugSession}

theorem booted_of_boot (h : boot debugId mmio memory exitFunc stopMotorsOnBreak = .ok s) :
    s.Booted debugId mmio memory exitFunc := by
  obtain ⟨t, htarget, h⟩ := Exec.bind_ok.mp h
  obtain ⟨hw, hsetup, htarget⟩ := Exec.bind_ok.mp htarget
  obtain rfl := Except.ok.inj htarget
  obtain ⟨s₁, hreg, h⟩ := Exec.bind_ok.mp h
  obtain rfl := Except.ok.inj h
  obtain ⟨⟨sw, r⟩, hsw, hreg⟩ := Exec.bind_ok.mp hreg
  cases r with
  | error e => cases hreg
  | ok u =>
    obtain rfl := Except.ok.inj hreg
    exact ⟨hsetup, hsw, rfl, rfl, rfl, rfl, rfl⟩

/-- The debugger can be installed in a program whose exit function is in writable memory. -/
theorem exists_boot (debugId : BitVec 32) (mmio : DebugLogic) (memory : CodeMemory)
    (stopMotorsOnBreak : Bool)
    (hlow : ¬ (exitFunc &&& ~~~1) < 0x03000000)
    (haligned : Instruction.AlignedFor (exitFunc &&& 1 ≠ 0) (exitFunc &&& ~~~1)) :
    ∃ s, boot debugId mmio memory exitFunc stopMotorsOnBreak = .ok s := by
  obtain ⟨hw, hsetup, _⟩ := HwBreakpointManager.exists_setup debugId mmio
  obtain ⟨sw, r, hreg⟩ := (SwState.empty memory).exists_register true haligned
  have hr : r = .ok () := by
    cases SwState.register_outcome hreg with
    | cannotWrite h => exact absurd h hlow
    | alreadyExists i b _ hb => cases hb
    | claimed => rfl
    | noSpace _ _ hfull => exact absurd rfl (hfull 0)
    | installed => rfl
  subst hr
  rw [boot, V5Target.new, hsetup]
  simp only [registerInternalBreakpoints, bind, Except.bind, pure, Except.pure,
    Option.isSome_none, Bool.false_eq_true, if_false]
  rw [hreg]
  exact ⟨_, rfl⟩

def clearedLogic : DebugLogic := ⟨⟨0⟩, fun _ => 0, fun _ => ⟨0⟩, fun _ => 0, fun _ => 0, true⟩

/-- A boot on a processor with a single hardware breakpoint. -/
theorem exists_boot_one_slot :
    ∃ s, boot 0 clearedLogic ⟨fun _ => 0, fun _ => 0⟩ 0x03800000 false = .ok s :=
  exists_boot 0 clearedLogic _ false (by decide) (by decide)

end V5gdb.DebugSession
