import V5gdb.Instructions
import V5gdb.SlotLoops

/-!
The table of software breakpoints and the memory it patches.
A tracked breakpoint keeps the instruction it replaces; enabling it writes a
`bkpt`, disabling it writes the instruction back. Registration, removal and
pausing are translated as loops over the 16 slots, and each has one lemma that
lists everything it can do.
-/
namespace V5gdb

open ByteMemory SlotLoops

structure BreakpointReason where
  user : Bool
  internal : Bool
  deriving DecidableEq, Repr

namespace BreakpointReason

def new (internal : Bool) : BreakpointReason := { internal, user := !internal }

def unwanted (r : BreakpointReason) : Bool := !r.user && !r.internal

def owns (r : BreakpointReason) (internal : Bool) : Bool :=
  if internal then r.internal else r.user

def set (r : BreakpointReason) (internal value : Bool) : BreakpointReason :=
  if internal then { r with internal := value } else { r with user := value }

@[simp] theorem owns_new (internal owner : Bool) :
    (new internal).owns owner = decide (owner = internal) := by
  cases internal <;> cases owner <;> rfl

@[simp] theorem owns_set (r : BreakpointReason) (internal value owner : Bool) :
    (r.set internal value).owns owner = if owner = internal then value else r.owns owner := by
  cases internal <;> cases owner <;> rfl

theorem unwanted_eq (r : BreakpointReason) : r.unwanted = (!r.owns false && !r.owns true) := rfl

/-- Releasing one owner leaves a breakpoint unwanted if the other does not hold it. -/
theorem unwanted_set_false (r : BreakpointReason) (internal : Bool) :
    (r.set internal false).unwanted = !r.owns (!internal) := by
  cases internal <;> simp [unwanted, set, owns]

theorem unwanted_set_true (r : BreakpointReason) (internal : Bool) :
    (r.set internal true).unwanted = false := by
  cases internal <;> simp [unwanted, set]

@[simp] theorem unwanted_new (internal : Bool) : (new internal).unwanted = false := by
  cases internal <;> rfl

end BreakpointReason

structure SwBreakpoint where
  enabled : Bool
  instrAddr : Addr
  instrBackup : Instruction
  reason : BreakpointReason
  deriving DecidableEq, Repr

namespace SwBreakpoint

def armInstr : Instruction := .arm 0xE1200070

def thumbInstr : Instruction := .thumb16 0xBE00

/-- The replacement must be of the instruction set of the instruction it replaces. -/
def bkptInstr (b : SwBreakpoint) : Instruction :=
  if b.instrBackup.isThumb then thumbInstr else armInstr

def new (m : Mem 32) (addr : Addr) (thumb internal : Bool) : Exec SwBreakpoint := do
  let instrBackup ← Instruction.read m addr thumb
  return { enabled := false, instrAddr := addr, instrBackup, reason := .new internal }

def setEnabled (b : SwBreakpoint) (enabled : Bool) (m : CodeMemory) : SwBreakpoint × CodeMemory :=
  if b.enabled = enabled then (b, m)
  else
    ({ b with enabled },
      if enabled then b.bkptInstr.writeTo m b.instrAddr else b.instrBackup.writeTo m b.instrAddr)

def cacheTarget (b : SwBreakpoint) : CacheTarget := .address b.instrAddr

@[simp] theorem bkptInstr_isThumb (b : SwBreakpoint) :
    b.bkptInstr.isThumb = b.instrBackup.isThumb := by
  cases hb : b.instrBackup <;>
    simp [bkptInstr, hb, Instruction.isThumb, armInstr, thumbInstr]

/-- The `bkpt` never reaches beyond the instruction it replaces. -/
theorem bkptInstr_size_le (b : SwBreakpoint) : b.bkptInstr.size ≤ b.instrBackup.size := by
  cases hb : b.instrBackup <;>
    simp [bkptInstr, hb, Instruction.isThumb, armInstr, thumbInstr, Instruction.size]

theorem bkptInstr_size_pos (b : SwBreakpoint) : 0 < b.bkptInstr.size := by
  cases h : b.instrBackup.isThumb <;> simp [bkptInstr, h, armInstr, thumbInstr, Instruction.size]

@[simp] theorem setEnabled_fst (b : SwBreakpoint) (enabled : Bool) (m : CodeMemory) :
    (b.setEnabled enabled m).1 = { b with enabled } := by
  by_cases h : b.enabled = enabled
  · subst h
    simp [setEnabled]
  · simp [setEnabled, h]

/-- The owners play no part in what is written. -/
theorem setEnabled_snd_reason (b : SwBreakpoint) (r : BreakpointReason) (enabled : Bool)
    (m : CodeMemory) :
    (({ b with reason := r } : SwBreakpoint).setEnabled enabled m).2 =
      (b.setEnabled enabled m).2 := by
  by_cases h : b.enabled = enabled
  · simp [setEnabled, h]
  · simp [setEnabled, h, bkptInstr]

theorem setEnabled_noop {b : SwBreakpoint} {enabled : Bool} (m : CodeMemory)
    (h : b.enabled = enabled) : (b.setEnabled enabled m).2 = m := by
  simp [setEnabled, h]

theorem enable_data {b : SwBreakpoint} (m : CodeMemory) (h : b.enabled = false) :
    (b.setEnabled true m).2.data = write m.data b.instrAddr b.bkptInstr.bytes := by
  simp [setEnabled, h, Instruction.writeTo]

theorem disable_data {b : SwBreakpoint} (m : CodeMemory) (h : b.enabled = true) :
    (b.setEnabled false m).2.data = write m.data b.instrAddr b.instrBackup.bytes := by
  simp [setEnabled, h, Instruction.writeTo]

theorem new_spec {m : Mem 32} {addr : Addr} {thumb internal : Bool} {b : SwBreakpoint}
    (h : new m addr thumb internal = .ok b) :
    b.enabled = false ∧ b.instrAddr = addr ∧ b.reason = .new internal ∧
      Instruction.read m addr thumb = .ok b.instrBackup := by
  cases hread : Instruction.read m addr thumb with
  | error e =>
    rw [new, hread] at h
    cases h
  | ok instr =>
    rw [new, hread] at h
    obtain rfl := Except.ok.inj h
    exact ⟨rfl, rfl, rfl, rfl⟩

theorem exists_new (m : Mem 32) {addr : Addr} {thumb : Bool} (internal : Bool)
    (h : Instruction.AlignedFor thumb addr) : ∃ b, new m addr thumb internal = .ok b := by
  obtain ⟨instr, hread⟩ := Instruction.exists_read m h
  rw [new, hread]
  exact ⟨_, rfl⟩

end SwBreakpoint

/-- The fields of the target that manage software breakpoints, with the memory they patch. -/
structure SwState where
  memory : CodeMemory
  /-- If set, enabling new software breakpoints is delayed until breakpoints are unpaused. -/
  breaksPaused : Bool
  breaks : Fin 16 → Option SwBreakpoint

namespace SwState

def setSlot (s : SwState) (i : Fin 16) (slot : Option SwBreakpoint) : SwState :=
  { s with breaks := Function.update s.breaks i slot }

def probe (s : SwState) (addr : Addr) (i : Fin 16) : Option SwBreakpoint :=
  (s.breaks i).filter fun b => b.instrAddr = addr

/-- A new breakpoint is only armed at once while breakpoints are not paused. -/
def install (s : SwState) (i : Fin 16) (b : SwBreakpoint) : SwState :=
  if s.breaksPaused then s.setSlot i (some b)
  else
    let (b, memory) := b.setEnabled true s.memory
    { s.setSlot i (some b) with memory := memory.syncInstruction b.cacheTarget }

/-- Registers and enables a new software breakpoint. -/
def registerSwBreakpoint (s : SwState) (addr : Addr) (thumb internal : Bool) :
    Exec (SwState × Except BreakpointError Unit) :=
  if addr < 0x03000000 then .ok (s, .error .cannotWrite)
  else
    -- one pass both looks for a duplicate and remembers the first inactive slot
    match scan (s.probe addr) (fun i => (s.breaks i).isNone) none (List.finRange 16) with
    | .hit i b =>
      if internal && !b.reason.internal then
        .ok (s.setSlot i (some { b with reason := { b.reason with internal := true } }), .ok ())
      else if !internal && !b.reason.user then
        .ok (s.setSlot i (some { b with reason := { b.reason with user := true } }), .ok ())
      else .ok (s, .error .alreadyExists)
    | .miss none => .ok (s, .error .noSpace)
    | .miss (some i) => do
      let b ← SwBreakpoint.new s.memory.data addr thumb internal
      return (s.install i b, .ok ())

/-- One turn of the removal loop; the flag says whether any slot was freed so far. -/
def removeSlot (addr : Addr) (internal : Bool) (acc : SwState × Bool) (i : Fin 16) :
    SwState × Bool :=
  match acc.1.breaks i with
  | none => acc
  | some b =>
    let b := if b.instrAddr = addr then { b with reason := b.reason.set internal false } else b
    if b.reason.unwanted then
      let (_, memory) := b.setEnabled false acc.1.memory
      ({ acc.1.setSlot i none with memory }, true)
    else (acc.1.setSlot i (some b), acc.2)

/-- Removes the software breakpoint at the given address; true if a slot was freed. -/
def removeSwBreakpoint (s : SwState) (addr : Addr) (internal : Bool) : SwState × Bool :=
  let (s, changesMade) := sweep (removeSlot addr internal) (s, false)
  (if changesMade then { s with memory := s.memory.syncInstruction (.address addr) } else s,
    changesMade)

def querySwBreakpoint (s : SwState) (addr : Addr) : Option (Fin 16) :=
  (List.finRange 16).find? fun i => (s.probe addr i).isSome

def ignoreSlot (ignored : Bool) (s : SwState) (i : Fin 16) : SwState :=
  match s.breaks i with
  | none => s
  | some b =>
    let (b, memory) := b.setEnabled (!ignored) s.memory
    { s.setSlot i (some b) with memory := memory.syncInstruction b.cacheTarget }

def setBreakpointsIgnored (s : SwState) (ignored : Bool) : SwState :=
  sweep (ignoreSlot ignored) { s with breaksPaused := ignored }

def empty (memory : CodeMemory) : SwState :=
  { memory, breaksPaused := false, breaks := fun _ => none }

end SwState
end V5gdb
