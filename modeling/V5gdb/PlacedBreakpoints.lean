import V5gdb.Startup
import V5gdb.TargetSoftware

/-!
Where breakpoints can be.
Registration refuses the reserved low addresses, and the read of the instruction
to back up fails at an address that is misaligned for its set. So whatever is
tracked is at a high address that suits the set of its backup.
-/
namespace V5gdb

open ByteMemory Transitions

structure SwBreakpoint.WellPlaced (b : SwBreakpoint) : Prop where
  high : ¬b.instrAddr < 0x03000000
  aligned : Instruction.AlignedFor b.instrBackup.isThumb b.instrAddr

namespace SwState

variable {s s' : SwState} {addr : Addr} {thumb internal : Bool}

def AllPlaced (s : SwState) : Prop := ∀ i b, s.breaks i = some b → b.WellPlaced

theorem empty_allPlaced (m : CodeMemory) : (empty m).AllPlaced := by
  intro i b hb
  cases hb

theorem AllPlaced.pause (h : s.AllPlaced) (ignored : Bool) :
    (s.setBreakpointsIgnored ignored).AllPlaced := by
  intro i c hc
  obtain ⟨b, hb, rfl⟩ := setBreakpointsIgnored_some hc
  exact ⟨(h i b hb).high, (h i b hb).aligned⟩

theorem AllPlaced.setReason (h : s.AllPlaced) {i : Fin 16} {b : SwBreakpoint}
    (hb : s.breaks i = some b) (r : BreakpointReason) :
    (s.setSlot i (some { b with reason := r })).AllPlaced := by
  intro j c hc
  rw [setSlot_breaks] at hc
  split_ifs at hc with hj
  · obtain rfl := Option.some.inj hc
    exact ⟨(h i b hb).high, (h i b hb).aligned⟩
  · exact h j c hc

theorem AllPlaced.remove {r : Bool} (hs : s.TableInv) (h : s.AllPlaced)
    (hrem : s.removeSwBreakpoint addr internal = (s', r)) : s'.AllPlaced := by
  cases remove_outcome hs hrem with
  | absent => exact h
  | kept i b hb ha ho => exact h.setReason hb _
  | freed i b hb ha ho =>
    intro j c hc
    rw [freeSlot_breaks] at hc
    split_ifs at hc with hj
    exact h j c hc

theorem wellPlaced_of_new {m : Mem 32} {b : SwBreakpoint} (hlow : ¬addr < 0x03000000)
    (hnew : SwBreakpoint.new m addr thumb internal = .ok b) : b.WellPlaced := by
  obtain ⟨_, haddr, _, hread⟩ := SwBreakpoint.new_spec hnew
  obtain ⟨hal, hthumb, _⟩ := Instruction.read_spec hread
  constructor
  · rw [haddr]
    exact hlow
  · rw [haddr, hthumb]
    exact hal

theorem AllPlaced.register {r : Except BreakpointError Unit} (h : s.AllPlaced)
    (hreg : s.registerSwBreakpoint addr thumb internal = .ok (s', r)) : s'.AllPlaced := by
  cases register_outcome hreg with
  | cannotWrite => exact h
  | alreadyExists => exact h
  | noSpace => exact h
  | claimed i b hlow hb ha ho => exact h.setReason hb _
  | installed i b hlow habsent hfree hnew =>
    have hplaced := wellPlaced_of_new hlow hnew
    intro j c hc
    rw [install_breaks _ _ _ _ (SwBreakpoint.new_spec hnew).1] at hc
    split_ifs at hc with hj
    · obtain rfl := Option.some.inj hc
      exact ⟨hplaced.high, hplaced.aligned⟩
    · exact h j c hc

/-- A reserved address is never tracked. -/
theorem AllPlaced.absent_of_low (h : s.AllPlaced) (hlow : addr < 0x03000000) : s.Absent addr := by
  intro i b hb ha
  exact (h i b hb).high (ha.symm ▸ hlow)

theorem allPlaced_kept (table : TranslationTable) :
    KeptByStops table (fun _ => True) (fun _ _ => True) AllPlaced where
  pause := fun _ ignored _ h => h.pause ignored
  remove := fun _ _ _ _ _ h hrem => h.holds.remove h.table hrem
  register := fun _ _ _ _ _ h hreg => h.holds.register hreg
  write := fun _ _ _ _ _ _ h => h.holds
  run := fun _ _ _ h => h.holds

end SwState

/-- What the registration of the boot establishes and the steps of the system keep
holds of every table that a booted system reaches. -/
theorem KeptByStops.keeps_of_boot {table : TranslationTable} {P : SwState → Prop}
    (hP : KeptByStops table (fun _ => True) (fun _ _ => True) P) {debugId : BitVec 32}
    {mmio : DebugLogic} {memory : CodeMemory} {exitFunc : Addr} {stopMotorsOnBreak : Bool}
    {session : DebugSession} {es : List SysEvent} {s : Sys}
    (hboot : DebugSession.boot debugId mmio memory exitFunc stopMotorsOnBreak = .ok session)
    (hstart : P session.target.toSwState) (hrun : Run (Sys.Step table) (Sys.start session) es s) :
    s.session.target.toSwState.Keeps P s.inMonitor := by
  have hbooted := DebugSession.booted_of_boot hboot
  have hkeeps : session.target.toSwState.Keeps P false :=
    ⟨SwState.register_tableInv (SwState.empty_tableInv memory) hbooted.registered,
      SwState.register_breaksPaused hbooted.registered, hstart⟩
  have hinv := hrun.invariant
    (P := fun es s => s.Holding (HardwareCapabilities.ofDebugId debugId).numBreakpoints
      (userKeys es) true ∧ s.session.target.toSwState.Keeps P s.inMonitor)
    ⟨Sys.holding_start hbooted, hkeeps⟩ (by
      intro es t e t' ⟨hhold, hkept⟩ hstep
      rw [userKeys_append]
      refine ⟨hhold.step hstep, hP.step hhold hkept hstep ?_⟩
      cases e <;> simp [Admits])
  exact hinv.2

theorem Sys.allPlaced_of_run {table : TranslationTable} {debugId : BitVec 32} {mmio : DebugLogic}
    {memory : CodeMemory} {exitFunc : Addr} {stopMotorsOnBreak : Bool} {session : DebugSession}
    {es : List SysEvent} {s : Sys}
    (hboot : DebugSession.boot debugId mmio memory exitFunc stopMotorsOnBreak = .ok session)
    (hrun : Run (Step table) (start session) es s) :
    s.session.target.toSwState.Keeps SwState.AllPlaced s.inMonitor :=
  (SwState.allPlaced_kept table).keeps_of_boot hboot
    ((SwState.empty_allPlaced memory).register (DebugSession.booted_of_boot hboot).registered)
    hrun

end V5gdb
