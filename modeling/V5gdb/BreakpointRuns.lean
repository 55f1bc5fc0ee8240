import V5gdb.PatchedMemory
import V5gdb.Transitions

/-!
Runs of calls on the breakpoint table.
A stop pauses breakpoints, makes any calls and unpauses them again. Along every
run of stops the program's memory is what it was while paused, and is patched
only under tracked breakpoints while the program runs.
-/
namespace V5gdb

open ByteMemory Transitions

inductive TableCall
  | register (addr : Addr) (thumb internal : Bool)
  | remove (addr : Addr) (internal : Bool)
  | setIgnored (ignored : Bool)

inductive TableReply
  | registered (r : Except BreakpointError Unit)
  | removed (changesMade : Bool)
  | done

def TableCall.Aligned : TableCall → Prop
  | register addr thumb _ => Instruction.AlignedFor thumb addr
  | remove _ _ => True
  | setIgnored _ => True

namespace SwState

def applyCall (s : SwState) : TableCall → Exec (SwState × TableReply)
  | .register addr thumb internal => do
    let (s, r) ← s.registerSwBreakpoint addr thumb internal
    return (s, .registered r)
  | .remove addr internal =>
    let (s, changesMade) := s.removeSwBreakpoint addr internal
    .ok (s, .removed changesMade)
  | .setIgnored ignored => .ok (s.setBreakpointsIgnored ignored, .done)

theorem applyCall_register {s s' : SwState} {addr : Addr} {thumb internal : Bool}
    {reply : TableReply} (h : s.applyCall (.register addr thumb internal) = .ok (s', reply)) :
    ∃ r, s.registerSwBreakpoint addr thumb internal = .ok (s', r) ∧ reply = .registered r := by
  cases hreg : s.registerSwBreakpoint addr thumb internal with
  | error e =>
    rw [applyCall, hreg] at h
    cases h
  | ok p =>
    rw [applyCall, hreg] at h
    obtain ⟨rfl, rfl⟩ := Prod.mk.inj (Except.ok.inj h)
    exact ⟨p.2, rfl, rfl⟩

theorem applyCall_remove {s s' : SwState} {addr : Addr} {internal : Bool} {reply : TableReply}
    (h : s.applyCall (.remove addr internal) = .ok (s', reply)) :
    ∃ r, s.removeSwBreakpoint addr internal = (s', r) ∧ reply = .removed r := by
  obtain ⟨rfl, rfl⟩ := Prod.mk.inj (Except.ok.inj h)
  exact ⟨_, rfl, rfl⟩

theorem applyCall_setIgnored {s s' : SwState} {ignored : Bool} {reply : TableReply}
    (h : s.applyCall (.setIgnored ignored) = .ok (s', reply)) :
    s' = s.setBreakpointsIgnored ignored ∧ reply = .done := by
  obtain ⟨rfl, rfl⟩ := Prod.mk.inj (Except.ok.inj h)
  exact ⟨rfl, rfl⟩

/-- Every aligned call is answered. -/
theorem exists_applyCall (s : SwState) {c : TableCall} (hc : c.Aligned) :
    ∃ s' r, s.applyCall c = .ok (s', r) := by
  cases c with
  | register addr thumb internal =>
    obtain ⟨s', r, h⟩ := s.exists_register internal hc
    exact ⟨s', .registered r, by rw [applyCall, h]; rfl⟩
  | remove addr internal => exact ⟨_, _, rfl⟩
  | setIgnored ignored => exact ⟨_, _, rfl⟩

theorem applyCall_tableInv {s s' : SwState} {c : TableCall} {r : TableReply} (hs : s.TableInv)
    (h : s.applyCall c = .ok (s', r)) : s'.TableInv := by
  cases c with
  | register addr thumb internal =>
    obtain ⟨_, hreg, _⟩ := applyCall_register h
    exact register_tableInv hs hreg
  | remove addr internal =>
    obtain ⟨_, hrem, _⟩ := applyCall_remove h
    exact remove_tableInv hs hrem
  | setIgnored ignored =>
    obtain ⟨rfl, _⟩ := applyCall_setIgnored h
    exact setBreakpointsIgnored_tableInv hs ignored

/-- The calls a stop may make: it pauses the running program, and only touches
the table or unpauses while paused. -/
def InStop (s : SwState) : TableCall → Prop
  | .register _ _ _ => s.breaksPaused = true
  | .remove _ _ => s.breaksPaused = true
  | .setIgnored ignored => s.breaksPaused = !ignored

def StopStep (s : SwState) (e : TableCall × TableReply) (s' : SwState) : Prop :=
  e.1.Aligned ∧ s.InStop e.1 ∧ CallStep applyCall s e s'

/-- What the program's memory must look like, seen from the memory `M` it
would have without any breakpoints. -/
structure Hidden (M : Mem 32) (s : SwState) : Prop where
  paused : s.breaksPaused = true → s.memory.data = M
  under : s.breaksPaused = false → ∀ x, s.memory.data x ≠ M x →
    ∃ i b, s.breaks i = some b ∧ Within b.instrAddr b.bkptInstr.size x
  planted : s.breaksPaused = false → s.DisjointRanges → s.Planted

/-- The invariant behind `Hidden`, with the whole memory as its region. -/
structure StopInv (M : Mem 32) (s : SwState) : Prop where
  table : s.TableInv
  backed : s.BackedOn (fun _ => True) M
  planted : s.breaksPaused = false → s.DisjointRanges → s.Planted

theorem StopInv.hidden {M : Mem 32} {s : SwState} (h : s.StopInv M) : s.Hidden M where
  paused := fun hp => funext fun x => h.backed.data_of_paused h.table hp trivial
  under := by
    intro _ x hne
    obtain ⟨i, b, hi, _, hin⟩ := h.backed.patched x trivial hne
    exact ⟨i, b, hi, hin⟩
  planted := h.planted

theorem boot_stopInv {m : CodeMemory} {s : SwState} {addr : Addr} {thumb internal : Bool}
    {r : Except BreakpointError Unit}
    (h : (empty m).registerSwBreakpoint addr thumb internal = .ok (s, r)) :
    s.StopInv m.data where
  table := register_tableInv (empty_tableInv m) h
  backed := register_backedOn_of_empty h
  planted := by
    intro _ _ j c hc
    cases register_outcome h with
    | cannotWrite => cases hc
    | alreadyExists => cases hc
    | noSpace => cases hc
    | claimed i b hlow hi => cases hi
    | installed i b hlow habsent hfree hnew =>
      have hdis := (SwBreakpoint.new_spec hnew).1
      rw [install_breaks _ _ _ _ hdis] at hc
      split_ifs at hc with hj
      · obtain rfl := Option.some.inj hc
        rw [install_data_of_unpaused i rfl hdis]
        have hlen : b.bkptInstr.bytes.length ≤ 2 ^ 32 := by
          rw [Instruction.length_bytes]
          exact bkptInstr_size_le_four b
        have hread := read_write_self (empty m).memory.data b.instrAddr hlen
        rw [Instruction.length_bytes] at hread
        exact hread
      · cases hc

theorem stopStep_stopInv {M : Mem 32} {s s' : SwState} {e : TableCall × TableReply}
    (hs : s.StopInv M) (h : StopStep s e s') : s'.StopInv M := by
  obtain ⟨c, r⟩ := e
  obtain ⟨hal, hin, happ⟩ := h
  have htable : s'.TableInv := applyCall_tableInv hs.table happ
  cases c with
  | register addr thumb internal =>
    have hp : s.breaksPaused = true := hin
    obtain ⟨r', hreg, _⟩ := applyCall_register happ
    refine ⟨htable, register_backedOn_of_paused hs.table hp hs.backed hreg, ?_⟩
    intro hrun
    rw [register_breaksPaused hreg, hp] at hrun
    cases hrun
  | remove addr internal =>
    have hp : s.breaksPaused = true := hin
    obtain ⟨r', hrem, _⟩ := applyCall_remove happ
    refine ⟨htable, remove_backedOn_of_paused hs.table hp hs.backed hrem, ?_⟩
    intro hrun
    rw [remove_breaksPaused hs.table hrem, hp] at hrun
    cases hrun
  | setIgnored ignored =>
    have hp : s.breaksPaused = !ignored := hin
    obtain ⟨rfl, _⟩ := applyCall_setIgnored happ
    refine ⟨htable, setBreakpointsIgnored_backedOn hs.backed ignored, ?_⟩
    intro hrun hdisj
    cases ignored with
    | true => simp at hrun
    | false =>
      exact unpause_planted hs.table hp (disjointRanges_setBreakpointsIgnored false hdisj)

/-- Software breakpoints are invisible while paused: whatever stops follow the
registration of the first breakpoint, memory is never seen patched by the
monitor and never patched elsewhere than under a tracked breakpoint. -/
theorem breakpoints_hidden (m : CodeMemory) (addr : Addr) (thumb : Bool) (boot : SwState)
    (r : Except BreakpointError Unit)
    (hboot : (empty m).registerSwBreakpoint addr thumb true = .ok (boot, r))
    (es : List (TableCall × TableReply)) (s : SwState) (hrun : Run StopStep boot es s) :
    s.Hidden m.data := by
  have hinv : s.StopInv m.data :=
    hrun.invariant (P := fun _ t => t.StopInv m.data) (boot_stopInv hboot)
      fun _ _ _ _ ht hstep => stopStep_stopInv ht hstep
  exact hinv.hidden

/-- One stop that pauses and adds a second breakpoint in the middle of the first
one's word, from zeroed memory. -/
theorem breakpoints_hidden_one_stop :
    ∃ (boot s : SwState) (r : Except BreakpointError Unit) (r' : TableReply),
      (empty ⟨fun _ => 0, fun _ => 0⟩).registerSwBreakpoint 0x03800000 false true =
        .ok (boot, r) ∧
      Run StopStep boot
        [(.setIgnored true, .done), (.register 0x03800002 true false, r')] s ∧
      s.Hidden fun _ => 0 := by
  have hal0 : Instruction.AlignedFor false 0x03800000 := by decide
  obtain ⟨boot, r, hboot⟩ := exists_register (empty ⟨fun _ => 0, fun _ => 0⟩) true hal0
  have hpause : StopStep boot (.setIgnored true, .done) (boot.setBreakpointsIgnored true) :=
    ⟨trivial, register_breaksPaused hboot, rfl⟩
  have hal : Instruction.AlignedFor true 0x03800002 := by decide
  obtain ⟨s, r', hreg⟩ := exists_applyCall (boot.setBreakpointsIgnored true)
    (c := .register 0x03800002 true false) hal
  have hcall : StopStep (boot.setBreakpointsIgnored true)
      (.register 0x03800002 true false, r') s :=
    ⟨hal, setBreakpointsIgnored_breaksPaused boot true, hreg⟩
  have hrun := (Run.single hpause).snoc hcall
  exact ⟨boot, s, r, r', hboot, hrun, breakpoints_hidden _ _ _ boot r hboot _ s hrun⟩

end SwState
end V5gdb
