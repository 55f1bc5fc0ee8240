import V5gdb.BreakpointSets
import V5gdb.UnattendedResume

/-!
Histories of the breakpoint table.
Both owners register and remove breakpoints in any order, breakpoints are paused
and unpaused, and memory is stored to by others. An owner has a breakpoint at an
address exactly if it registered one there and has not removed it since. What the
table goes through in a run of the whole system is such a history.
-/
namespace V5gdb

open RecordLayouts Transitions

inductive TableEvent
  | call (c : TableCall) (r : TableReply)
  /-- Somebody else has stored to memory. -/
  | memory (m : CodeMemory)

def TableEvent.Places (addr : Addr) (internal : Bool) (e : TableEvent) : Prop :=
  ∃ thumb, e = .call (.register addr thumb internal) (.registered (.ok ()))

def TableEvent.Removes (addr : Addr) (internal : Bool) (e : TableEvent) : Prop :=
  ∃ r, e = .call (.remove addr internal) r

/-- The owner has placed a breakpoint at `addr` and not removed it since. -/
def Placed (addr : Addr) (internal : Bool) : List TableEvent → Prop :=
  Since (TableEvent.Places addr internal) (TableEvent.Removes addr internal)

namespace AddrSets

def EventStep (a : AddrSets) (e : TableEvent) (a' : AddrSets) : Prop :=
  match e with
  | .call c r => a.Step (c, r) a'
  | .memory _ => a' = a

variable {a a' : AddrSets} {addr x : Addr} {internal o : Bool}

/-- What an answered registration says about the sets. -/
theorem register_step {thumb : Bool} {reply : TableReply}
    (h : a.Step (.register addr thumb internal, reply) a') :
    (x ∈ a'.owned o ↔
      (x = addr ∧ o = internal ∧ reply = .registered (.ok ())) ∨ x ∈ a.owned o) := by
  simp only [Step, applyCall] at h
  cases hreg : a.register addr internal with
  | error e =>
    rw [hreg] at h
    obtain ⟨rfl, rfl⟩ := Prod.mk.inj h
    simp
  | ok b =>
    rw [hreg] at h
    obtain ⟨rfl, rfl⟩ := Prod.mk.inj h
    unfold register at hreg
    split_ifs at hreg with hlow hmem hroom
    obtain rfl := Except.ok.inj hreg
    simp [mem_insert]

theorem remove_step {reply : TableReply} (h : a.Step (.remove addr internal, reply) a') :
    (∀ x o, x ∈ a'.owned o ↔ ¬(x = addr ∧ o = internal) ∧ x ∈ a.owned o) ∧
      reply = .removed (decide (addr ∈ a.owned internal ∧ addr ∉ a.owned (!internal))) := by
  obtain ⟨rfl, rfl⟩ := Prod.mk.inj h
  exact ⟨fun _ _ => mem_erase, rfl⟩

/-- The sets after one more event. -/
theorem mem_owned_step {e : TableEvent} (h : a.EventStep e a') (addr : Addr) (o : Bool) :
    addr ∈ a'.owned o ↔ e.Places addr o ∨ (addr ∈ a.owned o ∧ ¬e.Removes addr o) := by
  cases e with
  | memory m =>
    obtain rfl : a' = a := h
    simp [TableEvent.Places, TableEvent.Removes]
  | call c r =>
    cases c with
    | register addr' thumb internal =>
      rw [register_step h]
      simp only [TableEvent.Places, TableEvent.Removes, TableEvent.call.injEq,
        TableCall.register.injEq, reduceCtorEq, false_and, exists_false, not_false_eq_true,
        and_true]
      constructor
      · rintro (⟨rfl, rfl, rfl⟩ | hmem)
        · exact .inl ⟨thumb, ⟨rfl, rfl, rfl⟩, rfl⟩
        · exact .inr hmem
      · rintro (⟨thumb', ⟨rfl, rfl, rfl⟩, rfl⟩ | hmem)
        · exact .inl ⟨rfl, rfl, rfl⟩
        · exact .inr hmem
    | remove addr' internal =>
      rw [(remove_step h).1 addr o]
      simp only [TableEvent.Places, TableEvent.Removes, TableEvent.call.injEq,
        TableCall.remove.injEq, reduceCtorEq, false_and, exists_false, false_or,
        exists_and_left, exists_eq', and_true]
      rw [and_comm, eq_comm, @eq_comm _ o]
    | setIgnored ignored =>
      obtain ⟨rfl, _⟩ := Prod.mk.inj h
      simp [TableEvent.Places, TableEvent.Removes]

theorem mem_owned_iff_placed {es : List TableEvent} (hrun : Run EventStep empty es a)
    (addr : Addr) (o : Bool) : addr ∈ a.owned o ↔ Placed addr o es := by
  refine hrun.invariant (P := fun es a => addr ∈ a.owned o ↔ Placed addr o es) ?_ ?_
  · simp [empty, Placed, not_since_nil]
  · intro es a e a' h hstep
    rw [Placed, since_snoc, mem_owned_step hstep, h, Placed]

end AddrSets

namespace SwState

def EventStep (s : SwState) (e : TableEvent) (s' : SwState) : Prop :=
  match e with
  | .call c r => CallStep applyCall s (c, r) s'
  | .memory m => s' = { s with memory := m }

theorem event_simulation : Simulation EventStep AddrSets.EventStep Represents where
  matched := by
    intro s a e s' h hstep
    cases e with
    | call c r => exact table_simulation.matched h hstep
    | memory m =>
      obtain rfl : s' = { s with memory := m } := hstep
      exact ⟨a, rfl, h.table.setMemory m, h.mem_owned⟩

/-- The table after a history stands for the owners' breakpoints. -/
theorem exists_sets {m : CodeMemory} {es : List TableEvent} {s : SwState}
    (hrun : Run EventStep (empty m) es s) :
    ∃ a, s.Represents a ∧ ∀ addr o, addr ∈ a.owned o ↔ Placed addr o es := by
  obtain ⟨a, hspec, hrep⟩ := event_simulation.run hrun (empty_represents m)
  exact ⟨a, hrep, AddrSets.mem_owned_iff_placed hspec⟩

end SwState

/-! The history of the table in a run of the system. -/

def SysEvent.replies : SysEvent → List (TargetCall × TargetReply)
  | .tick _ replies => replies
  | _ => []

def PlacedByGdb (addr : Addr) : List (TargetCall × TargetReply) → Prop :=
  Since (fun p => ∃ kind, p = (.addSwBreakpoint addr kind, .accepted true))
    fun p => ∃ kind r, p = (.removeSwBreakpoint addr kind, r)

def TargetCall.patches : TargetCall → Bool
  | addSwBreakpoint _ _ => true
  | removeSwBreakpoint _ _ => true
  | _ => false

def TableEvent.Quiet (e : TableEvent) : Prop :=
  ∀ addr, ¬e.Places addr false ∧ ¬e.Removes addr false

namespace SwState

/-- The state has a history from `s₀` in which the user did what GDB did. -/
def HasHistory (s₀ : SwState) (ps : List (TargetCall × TargetReply)) (s : SwState) : Prop :=
  ∃ es, Run EventStep s₀ es s ∧ ∀ addr, Placed addr false es ↔ PlacedByGdb addr ps

variable {s₀ s s' : SwState} {ps : List (TargetCall × TargetReply)}

theorem HasHistory.quiet (h : HasHistory s₀ ps s) (es : List TableEvent)
    (hrun : Run EventStep s es s') (hquiet : ∀ e ∈ es, e.Quiet) : HasHistory s₀ ps s' := by
  obtain ⟨fs, hfs, hplaced⟩ := h
  refine ⟨fs ++ es, hfs.trans hrun, ?_⟩
  intro addr
  rw [← hplaced addr]
  exact since_append_of_quiet fun e he => hquiet e he addr

theorem HasHistory.append_nil (h : HasHistory s₀ ps s) : HasHistory s₀ (ps ++ []) s := by
  rwa [List.append_nil]

theorem HasHistory.pause (h : HasHistory s₀ ps s) (ignored : Bool) :
    HasHistory s₀ ps (s.setBreakpointsIgnored ignored) := by
  refine h.quiet [.call (.setIgnored ignored) .done] (.single rfl) ?_
  intro e he addr
  obtain rfl := List.mem_singleton.mp he
  simp [TableEvent.Places, TableEvent.Removes]

theorem HasHistory.setMemory (h : HasHistory s₀ ps s) (m : CodeMemory) :
    HasHistory s₀ ps { s with memory := m } := by
  refine h.quiet [.memory m] (.single rfl) ?_
  intro e he addr
  obtain rfl := List.mem_singleton.mp he
  simp [TableEvent.Places, TableEvent.Removes]

theorem HasHistory.removeInternal (h : HasHistory s₀ ps s) {addr : Addr} {r : Bool}
    (hrem : s.removeSwBreakpoint addr true = (s', r)) : HasHistory s₀ ps s' := by
  refine h.quiet [.call (.remove addr true) (.removed r)] (.single ?_) ?_
  · rw [EventStep, CallStep, SwState.applyCall, hrem]
  · intro e he addr'
    obtain rfl := List.mem_singleton.mp he
    simp [TableEvent.Places, TableEvent.Removes]

/-- A callback is in the table's history what it is in GDB's. -/
theorem HasHistory.applyCall {table : TranslationTable} {t t' : V5Target} {c : TargetCall}
    {r : TargetReply} (h : HasHistory s₀ ps t.toSwState)
    (happ : t.applyCall table c = .ok (t', r)) : HasHistory s₀ (ps ++ [(c, r)]) t'.toSwState := by
  have hother : ∀ {s' : SwState}, HasHistory s₀ ps s' → c.patches = false →
      HasHistory s₀ (ps ++ [(c, r)]) s' := by
    rintro s' ⟨es, hes, hplaced⟩ hc
    refine ⟨es, hes, ?_⟩
    intro addr
    rw [hplaced addr, PlacedByGdb, since_snoc]
    cases c <;> simp_all [TargetCall.patches]
  cases c with
  | addSwBreakpoint addr kind =>
    obtain ⟨⟨t₁, b⟩, hadd, happ⟩ := Exec.bind_ok.mp happ
    obtain ⟨⟨sw, r'⟩, hreg, hadd⟩ := Exec.bind_ok.mp hadd
    obtain ⟨rfl, rfl⟩ := Prod.mk.inj (Except.ok.inj hadd)
    obtain ⟨rfl, rfl⟩ := Prod.mk.inj (Except.ok.inj happ)
    obtain ⟨es, hes, hplaced⟩ := h
    refine ⟨es ++ [.call (.register addr kind.isThumb false) (.registered r')], hes.snoc ?_, ?_⟩
    · rw [EventStep, CallStep, SwState.applyCall, hreg]
      rfl
    · intro x
      rw [Placed, PlacedByGdb, since_snoc, since_snoc, ← Placed, hplaced x, ← PlacedByGdb]
      cases r' with
      | ok u => simp [TableEvent.Places, TableEvent.Removes, Except.isOk, Except.toBool]
      | error e => simp [TableEvent.Places, TableEvent.Removes, Except.isOk, Except.toBool]
  | removeSwBreakpoint addr kind =>
    cases hrem : t.toSwState.removeSwBreakpoint addr false with
    | mk sw b =>
    rw [V5Target.applyCall, V5Target.removeSwBreakpoint, hrem] at happ
    obtain ⟨rfl, rfl⟩ := Prod.mk.inj (Except.ok.inj happ)
    obtain ⟨es, hes, hplaced⟩ := h
    refine ⟨es ++ [.call (.remove addr false) (.removed b)], hes.snoc ?_, ?_⟩
    · rw [EventStep, CallStep, SwState.applyCall, hrem]
    intro x
    rw [Placed, PlacedByGdb, since_snoc, since_snoc, ← Placed, hplaced x, ← PlacedByGdb]
    simp [TableEvent.Places, TableEvent.Removes]
  | writeAddrs addr data =>
    refine hother ?_ rfl
    cases V5Target.applyCall_effect happ with
    | write _ _ memory hwrite => exact h.setMemory memory
    | _ => exact h
  | _ =>
    refine hother ?_ rfl
    cases V5Target.applyCall_effect happ <;> exact h

theorem HasHistory.runCalls {table : TranslationTable} {t t' : V5Target} {calls : List TargetCall}
    {replies : List (TargetCall × TargetReply)} (h : HasHistory s₀ ps t.toSwState)
    (hrun : V5Target.runCalls table calls t = .ok (t', replies)) :
    HasHistory s₀ (ps ++ replies) t'.toSwState := by
  induction calls generalizing t ps replies with
  | nil =>
    obtain ⟨rfl, rfl⟩ := Prod.mk.inj (Except.ok.inj hrun)
    exact h.append_nil
  | cons c cs ih =>
    obtain ⟨t₁, r, rs, happ, hrest, rfl⟩ := V5Target.runCalls_cons hrun
    rw [List.append_cons]
    exact ih (h.applyCall happ) hrest

theorem HasHistory.tick {table : TranslationTable} {t t' : V5Target} {gdb gdb' : GdbState}
    {input : GdbInput} {replies : List (TargetCall × TargetReply)}
    (h : HasHistory s₀ ps t.toSwState)
    (htick : DebugSession.tickStateMachine table gdb t input = .ok (gdb', t', replies)) :
    HasHistory s₀ (ps ++ replies) t'.toSwState := by
  cases DebugSession.tick_outcome htick with
  | packet calls next t' replies hrun => exact h.runCalls hrun
  | _ => exact h.append_nil

theorem HasHistory.beginEvent {n : ℕ} {user : Finset HwKey} {d d' : DebugSession}
    {ctx : DebugEventContext} {suspends : Bool} {gdb? : Option GdbState}
    (hacc : d.target.Accounted n user) (h : HasHistory s₀ ps d.target.toSwState)
    (hbegin : d.beginEvent ctx = .ok (d', suspends, gdb?)) :
    HasHistory s₀ ps d'.target.toSwState := by
  obtain ⟨t, d₁, action, henter, hstop, hcase⟩ := DebugSession.beginEvent_ok hbegin
  obtain ⟨hsw, _⟩ := V5Target.enterBreakpoint_sw hacc henter
  have ht : HasHistory s₀ ps t.toSwState := hsw ▸ h.pause true
  have hd₁ : HasHistory s₀ ps d₁.target.toSwState := by
    generalize t.stopReason = reason at hstop
    cases DebugSession.handleStop_outcome hstop with
    | exit id b sw r hb hint hrem => exact ht.removeInternal hrem
    | exitWithClient id b sw r hb hint hrem => exact ht.removeInternal hrem
    | _ => exact ht
  rcases hcase with ⟨_, _, rfl⟩ | ⟨_, gdb, _, hopen⟩
  · exact hd₁
  · rw [DebugSession.openConsole_target hopen]
    exact hd₁

end SwState

namespace Sys

variable {table : TranslationTable} {s s' : Sys} {s₀ : SwState}
  {ps : List (TargetCall × TargetReply)}

theorem hasHistory_step {n : ℕ} {user : Finset HwKey} {lock : Bool} {e : SysEvent}
    (hhold : s.Holding n user lock) (h : SwState.HasHistory s₀ ps s.session.target.toSwState)
    (hstep : Step table s e s') :
    SwState.HasHistory s₀ (ps ++ e.replies) s'.session.target.toSwState := by
  cases hstep with
  | @unattended _ status _ _ hphase hbegin =>
    have hacc := DebugSession.signal_accounted hhold.accounted status
    exact (h.beginEvent hacc hbegin).append_nil.pause false
  | @attended _ status _ _ _ hphase hbegin =>
    have hacc := DebugSession.signal_accounted hhold.accounted status
    exact (h.beginEvent hacc hbegin).append_nil
  | tick hphase htick => exact h.tick htick
  | lastTick hphase htick => exact (h.tick htick).pause false
  | «return» hphase => exact h.append_nil
  | poll hphase hpoll =>
    obtain ⟨hw, interruptPending, rfl⟩ := DebugSession.poll_frame hpoll
    exact h.append_nil
  | pollBusy => exact h.append_nil
  | run hphase => exact (h.setMemory _).append_nil

/-- The table of a booted system has a history from the empty table, and in it the
user did what GDB did. -/
theorem hasHistory_of_run {debugId : BitVec 32} {mmio : DebugLogic} {memory : CodeMemory}
    {exitFunc : Addr} {stopMotorsOnBreak : Bool} {session : DebugSession} {es : List SysEvent}
    (hboot : DebugSession.boot debugId mmio memory exitFunc stopMotorsOnBreak = .ok session)
    (hrun : Run (Step table) (start session) es s) :
    SwState.HasHistory (.empty memory) (es.flatMap SysEvent.replies)
      s.session.target.toSwState := by
  have hbooted := DebugSession.booted_of_boot hboot
  have hstart : SwState.HasHistory (.empty memory) [] session.target.toSwState := by
    have hempty : SwState.HasHistory (.empty memory) [] (.empty memory) :=
      ⟨[], .nil _, fun addr => iff_of_false not_since_nil not_since_nil⟩
    refine hempty.quiet [.call (.register (exitFunc &&& ~~~1) (exitFunc &&& 1 ≠ 0) true)
      (.registered (.ok ()))] (.single ?_) ?_
    · rw [SwState.EventStep, CallStep, SwState.applyCall, hbooted.registered]
      rfl
    · intro e he addr
      obtain rfl := List.mem_singleton.mp he
      simp [TableEvent.Places, TableEvent.Removes]
  have hinv : (∃ user,
        s.Holding (HardwareCapabilities.ofDebugId debugId).numBreakpoints user true) ∧
      SwState.HasHistory (.empty memory) (es.flatMap SysEvent.replies)
        s.session.target.toSwState := by
    refine hrun.invariant
      (P := fun (es : List SysEvent) (s : Sys) =>
        (∃ user, s.Holding (HardwareCapabilities.ofDebugId debugId).numBreakpoints user true) ∧
          SwState.HasHistory (.empty memory) (es.flatMap SysEvent.replies)
            s.session.target.toSwState) ⟨⟨∅, holding_start hbooted⟩, hstart⟩ ?_
    rintro es t e t' ⟨⟨user, hhold⟩, h⟩ hstep
    refine ⟨⟨_, hhold.step hstep⟩, ?_⟩
    rw [List.flatMap_append, List.flatMap_singleton]
    exact hasHistory_step hhold h hstep
  exact hinv.2

end Sys
end V5gdb
