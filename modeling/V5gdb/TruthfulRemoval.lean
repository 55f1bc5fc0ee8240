import V5gdb.MemoryWrites
import V5gdb.TableHistory

/-!
What the removal of a software breakpoint answers.
The answer is whether a slot was freed. Where only one owner has a breakpoint this
is whether anything has changed, and for an owner whether its breakpoint was there.
Where both have one, the removal takes a flag away and answers that it did nothing.
-/
namespace V5gdb

open RecordLayouts Transitions

namespace SwState

variable {s s' : SwState} {a : AddrSets} {addr : Addr} {internal r : Bool}

def SharedAt (s : SwState) (addr : Addr) : Prop :=
  ∃ i b, s.breaks i = some b ∧ b.instrAddr = addr ∧ b.reason.user = true ∧
    b.reason.internal = true

/-- The answer to a removal, against the table and whether its owner `placed` a
breakpoint at the address that it has not removed since. -/
structure TruthfulRemoval (placed : Prop) (s : SwState) (addr : Addr) (internal : Bool) :
    Prop where
  /-- "Returns whether any changes were made." -/
  changes : (s.removeSwBreakpoint addr internal).2 = true ↔
    (s.removeSwBreakpoint addr internal).1.breaks ≠ s.breaks
  present : placed → (s.removeSwBreakpoint addr internal).2 = true
  absent : ¬placed → s.removeSwBreakpoint addr internal = (s, false)

theorem Represents.sharedAt_iff (h : s.Represents a) (addr : Addr) :
    s.SharedAt addr ↔ addr ∈ a.owned false ∧ addr ∈ a.owned true := by
  constructor
  · rintro ⟨i, b, hb, rfl, huser, hint⟩
    exact ⟨(h.owners hb false).mp huser, (h.owners hb true).mp hint⟩
  · rintro ⟨huser, hint⟩
    obtain ⟨i, b, hb, rfl, hown⟩ := (h.mem_owned addr false).mp huser
    exact ⟨i, b, hb, rfl, hown, (h.owners hb true).mpr hint⟩

/-- A removal answers whether it gave up the address altogether. -/
theorem Represents.remove_answer (h : s.Represents a)
    (hrem : s.removeSwBreakpoint addr internal = (s', r)) :
    r = true ↔ addr ∈ a.owned internal ∧ addr ∉ a.owned (!internal) := by
  obtain ⟨hstep, _⟩ := remove_represents h hrem
  have hreply := TableReply.removed.inj (AddrSets.remove_step hstep).2
  rw [hreply, decide_eq_true_iff]

/-- A removal changes the table exactly where the owner has a breakpoint. -/
theorem Represents.remove_changes (h : s.Represents a)
    (hrem : s.removeSwBreakpoint addr internal = (s', r)) :
    (s'.breaks ≠ s.breaks ↔ addr ∈ a.owned internal) ∧ (addr ∉ a.owned internal → s' = s) := by
  cases remove_outcome h.table hrem with
  | absent habsent =>
    have hnot : addr ∉ a.owned internal := fun hmem =>
      h.absent habsent (AddrSets.mem_tracked.mpr ⟨internal, hmem⟩)
    exact ⟨iff_of_false (fun hne => hne rfl) hnot, fun _ => rfl⟩
  | kept i b hb ha ho =>
    have hmem : addr ∈ a.owned internal ↔ b.reason.owns internal = true := by
      rw [h.owners hb, ha]
    cases hown : b.reason.owns internal with
    | false =>
      have hsame : b.reason.set internal false = b.reason := by
        cases internal
        · exact congrArg (BreakpointReason.mk · b.reason.internal) hown.symm
        · exact congrArg (BreakpointReason.mk b.reason.user) hown.symm
      have hself : s.setSlot i (some { b with reason := b.reason.set internal false }) = s :=
        setSlot_eq_self (by rw [hsame, hb])
      have hnot : addr ∉ a.owned internal := by simp [hmem, hown]
      rw [hself]
      exact ⟨iff_of_false (fun hne => hne rfl) hnot, fun _ => rfl⟩
    | true =>
      have hin : addr ∈ a.owned internal := hmem.mpr hown
      refine ⟨iff_of_true ?_ hin, fun hnot => absurd hin hnot⟩
      intro heq
      have hslot := congrFun heq i
      rw [setSlot_breaks, if_pos rfl, hb] at hslot
      have hflag := congrArg (fun c => c.reason.owns internal) (Option.some.inj hslot)
      simp [hown] at hflag
  | freed i b hb ha ho =>
    have hanswer := (h.remove_answer hrem).mp rfl
    refine ⟨iff_of_true ?_ hanswer.1, fun hnot => absurd hanswer.1 hnot⟩
    intro heq
    have hslot := congrFun heq i
    rw [freeSlot_breaks, if_pos rfl, hb] at hslot
    cases hslot

theorem Represents.truthful_iff {placed : Prop} (h : s.Represents a)
    (hplaced : addr ∈ a.owned internal ↔ placed) :
    TruthfulRemoval placed s addr internal ↔ ¬s.SharedAt addr := by
  obtain ⟨⟨s', r⟩, hrem⟩ : ∃ p, s.removeSwBreakpoint addr internal = p := ⟨_, rfl⟩
  have hanswer := h.remove_answer hrem
  obtain ⟨hchanges, hsame⟩ := h.remove_changes hrem
  rw [h.sharedAt_iff]
  constructor
  · rintro ⟨htrue, _, _⟩ ⟨huser, hint⟩
    rw [hrem, hanswer, hchanges] at htrue
    cases internal
    · exact (htrue.mpr huser).2 hint
    · exact (htrue.mpr hint).2 huser
  · intro hnot
    have hone : addr ∈ a.owned internal → addr ∉ a.owned (!internal) := by
      cases internal
      · exact fun huser hint => hnot ⟨huser, hint⟩
      · exact fun hint huser => hnot ⟨huser, hint⟩
    refine ⟨?_, ?_, ?_⟩
    · rw [hrem, hanswer, hchanges]
      exact ⟨And.left, fun hmem => ⟨hmem, hone hmem⟩⟩
    · intro hp
      have hmem := hplaced.mpr hp
      rw [hrem]
      exact hanswer.mpr ⟨hmem, hone hmem⟩
    · intro hp
      have hmem : addr ∉ a.owned internal := fun hmem => hp (hplaced.mp hmem)
      have hfalse : r = false := by
        rw [← Bool.not_eq_true, hanswer]
        exact fun h => hmem h.1
      rw [hrem, hsame hmem, hfalse]

/-- After any history of both owners a removal answers truthfully, for its owner, if and
only if the other owner does not have a breakpoint at the same address too. -/
theorem removal_truthful_iff (m : CodeMemory) (es : List TableEvent) (s : SwState)
    (hrun : Run EventStep (empty m) es s) (addr : Addr) (internal : Bool) :
    TruthfulRemoval (Placed addr internal es) s addr internal ↔ ¬s.SharedAt addr := by
  obtain ⟨a, hrep, hplaced⟩ := exists_sets hrun
  exact hrep.truthful_iff (hplaced addr internal)

/-- The user places a breakpoint that the debugger does not have, and removes it. -/
theorem removal_truthful_of_placed :
    ∃ s s' : SwState,
      Run EventStep (empty ⟨fun _ => 0, fun _ => 0⟩)
        [.call (.register 0x03900000 false false) (.registered (.ok ()))] s ∧
      s.removeSwBreakpoint 0x03900000 false = (s', true) ∧
      TruthfulRemoval (Placed 0x03900000 false
        [.call (.register 0x03900000 false false) (.registered (.ok ()))]) s 0x03900000 false ∧
      TruthfulRemoval (Placed 0x03900000 false
        [.call (.register 0x03900000 false false) (.registered (.ok ())),
          .call (.remove 0x03900000 false) (.removed true)]) s' 0x03900000 false := by
  have hal : Instruction.AlignedFor false 0x03900000 := by decide
  obtain ⟨s, r, hreg⟩ := (empty ⟨fun _ => 0, fun _ => 0⟩).exists_register false hal
  have habsent : (empty ⟨fun _ => 0, fun _ => 0⟩).Absent 0x03900000 := by
    intro i b hb
    cases hb
  obtain ⟨_, _, rfl⟩ := new_of_register (k := 0) (by decide) habsent rfl hreg
  have hplace : Run EventStep (empty ⟨fun _ => 0, fun _ => 0⟩)
      [.call (.register 0x03900000 false false) (.registered (.ok ()))] s :=
    .single (by rw [EventStep, CallStep, applyCall, hreg]; rfl)
  have halone : ∀ {es : List TableEvent} {t : SwState},
      Run EventStep (empty ⟨fun _ => 0, fun _ => 0⟩) es t → ¬Placed 0x03900000 true es →
        ¬t.SharedAt 0x03900000 := by
    intro es t hrun hnot hshared
    obtain ⟨a, hrep, hsets⟩ := exists_sets hrun
    exact hnot ((hsets _ true).mp ((hrep.sharedAt_iff _).mp hshared).2)
  have hother : ¬Placed 0x03900000 true
      [.call (.register 0x03900000 false false) (.registered (.ok ()))] := by
    rw [Placed, ← List.nil_append [TableEvent.call _ _], since_snoc]
    simp [TableEvent.Places, not_since_nil]
  have hbefore := (removal_truthful_iff _ _ s hplace 0x03900000 false).mpr (halone hplace hother)
  have hanswer : (s.removeSwBreakpoint 0x03900000 false).2 = true := by
    apply hbefore.present
    rw [Placed, ← List.nil_append [TableEvent.call _ _], since_snoc]
    exact .inl ⟨false, rfl⟩
  obtain ⟨s', hrem⟩ : ∃ s', s.removeSwBreakpoint 0x03900000 false = (s', true) :=
    ⟨_, Prod.ext rfl hanswer⟩
  have hstep : EventStep s (.call (.remove 0x03900000 false) (.removed true)) s' := by
    rw [EventStep, CallStep, applyCall, hrem]
  have hremove := hplace.snoc hstep
  have hafter := (removal_truthful_iff _ _ _ hremove 0x03900000 false).mpr (halone hremove (by
    rw [Placed, since_snoc]
    rintro (⟨_, hplaces⟩ | ⟨hplaced, _⟩)
    · cases hplaces
    · exact hother hplaced))
  exact ⟨s, s', hplace, hrem, hbefore, hafter⟩

end SwState

namespace Sys

variable {table : TranslationTable} {debugId : BitVec 32} {mmio : DebugLogic}
  {memory : CodeMemory} {exitFunc : Addr} {stopMotorsOnBreak : Bool} {session : DebugSession}
  {es : List SysEvent} {s : Sys}

/-- What GDB is told about a removal is true, in every state of the system, of exactly
the addresses that it does not share with the debugger. -/
theorem gdb_removal_truthful_iff
    (hboot : DebugSession.boot debugId mmio memory exitFunc stopMotorsOnBreak = .ok session)
    (hrun : Run (Step table) (start session) es s) (addr : Addr) :
    SwState.TruthfulRemoval (PlacedByGdb addr (es.flatMap SysEvent.replies))
        s.session.target.toSwState addr false ↔
      ¬s.session.target.toSwState.SharedAt addr := by
  obtain ⟨fs, hfs, hplaced⟩ := hasHistory_of_run hboot hrun
  obtain ⟨a, hrep, hsets⟩ := SwState.exists_sets hfs
  exact hrep.truthful_iff ((hsets addr false).trans (hplaced addr))

/-- GDB places a breakpoint at the exit function, where the debugger has one, and
removes it: the breakpoint of the user is gone, but the answer is that there was none. -/
theorem shared_removal_denied :
    ∃ (session : DebugSession) (es : List SysEvent) (s : Sys) (t : V5Target),
      DebugSession.boot 0 DebugSession.clearedLogic ⟨fun _ => 0, fun _ => 0⟩ 0x03800000 false =
        .ok session ∧
      Run (Step openTable) (start session) es s ∧ s.inMonitor = true ∧
      PlacedByGdb 0x03800000 (es.flatMap SysEvent.replies) ∧
      s.session.target.removeSwBreakpoint 0x03800000 .arm32 = (t, false) ∧
      t.breaks ≠ s.session.target.breaks ∧
      ¬SwState.TruthfulRemoval (PlacedByGdb 0x03800000 (es.flatMap SysEvent.replies))
        s.session.target.toSwState 0x03800000 false := by
  obtain ⟨session, ctx, s₁, sw₁, hboot, hstop, hphase, _, _, hfirst, hsw⟩ :=
    exists_first_stop openTable
  obtain ⟨hlow, i, b₀, hb₀, ha₀, hint₀, _⟩ := SwState.exists_internal_of_register hfirst
  have hal : Instruction.AlignedFor ArmBreakpointKind.arm32.isThumb 0x03800000 := by decide
  obtain ⟨sw, r, hreg⟩ := s₁.session.target.toSwState.exists_register false hal
  have hcalls : V5Target.runCalls openTable [.addSwBreakpoint 0x03800000 .arm32]
      s₁.session.target = .ok ({ s₁.session.target with toSwState := sw },
        [(.addSwBreakpoint 0x03800000 .arm32, .accepted r.isOk)]) := by
    simp only [V5Target.runCalls, V5Target.applyCall, V5Target.addSwBreakpoint, hreg, bind,
      Except.bind, pure, Except.pure]
  have hexit := exitInv_of_run hboot (.single hstop)
  have hactive : s₁.session.target.monitorStatus ≠ .resumingProgram := by
    rcases hexit.status .idle hphase with hstatus | ⟨hstatus, _⟩
    · rw [hstatus]
      decide
    · rw [hstatus]
      decide
  obtain ⟨s₂, htick, hphase₂, htarget⟩ := exists_tick hphase hcalls hactive
  have hrun := Run.cons hstop (.single htick)
  obtain ⟨fs, hfs, hplaced⟩ := hasHistory_of_run hboot hrun
  obtain ⟨a, hrep, hsets⟩ := SwState.exists_sets hfs
  have hb₁ : s₁.session.target.breaks i = some { b₀ with enabled := false } := by
    rw [hsw]
    exact SwState.setBreakpointsIgnored_of_some true hb₀
  obtain ⟨c, hc, hca, huser, hint⟩ :=
    SwState.register_shared hexit.keeps.table hlow hb₁ ha₀ hreg
  have hc₂ : s₂.session.target.breaks i = some c := by rw [htarget]; exact hc
  have hshared : s₂.session.target.toSwState.SharedAt 0x03800000 :=
    ⟨i, c, hc₂, hca, huser, hint.trans hint₀⟩
  obtain ⟨hown, hown'⟩ := (hrep.sharedAt_iff _).mp hshared
  obtain ⟨⟨sw', r'⟩, hrem⟩ :
      ∃ p, s₂.session.target.toSwState.removeSwBreakpoint 0x03800000 false = p := ⟨_, rfl⟩
  have hfalse : r' = false := by
    rw [← Bool.not_eq_true, hrep.remove_answer hrem]
    exact fun h => h.2 hown'
  subst hfalse
  refine ⟨session, _, s₂, { s₂.session.target with toSwState := sw' }, hboot, hrun, ?_, ?_, ?_,
    (hrep.remove_changes hrem).1.mpr hown, ?_⟩
  · rw [inMonitor, hphase₂]
  · exact ((hsets _ false).trans (hplaced _)).mp hown
  · rw [V5Target.removeSwBreakpoint, hrem]
  · rw [gdb_removal_truthful_iff hboot hrun]
    exact fun hnot => hnot hshared

end Sys
end V5gdb
