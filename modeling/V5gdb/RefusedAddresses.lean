import V5gdb.MemoryWrites
import V5gdb.PlacedBreakpoints

/-!
Addresses that are misaligned for what is asked at them.
The hardware path refuses them. The software path only looks at the address when
it reads the instruction to back up, where it asserts the alignment: the request
is refused if it does not get that far, and panics if it does. A step asserts
that its hardware breakpoint was accepted.
-/
namespace V5gdb

open LittleEndian RecordLayouts SlotLoops Transitions

namespace SwState

variable {s s' : SwState} {addr : Addr} {thumb : Bool}

theorem not_new_of_misaligned {m : ByteMemory.Mem 32} {internal : Bool} {b : SwBreakpoint}
    (hal : ¬Instruction.AlignedFor thumb addr) :
    SwBreakpoint.new m addr thumb internal ≠ .ok b := by
  intro hnew
  obtain ⟨_, _, _, hread⟩ := SwBreakpoint.new_spec hnew
  exact hal (Instruction.read_spec hread).1

theorem register_cannotWrite (s : SwState) (thumb internal : Bool) (hlow : addr < 0x03000000) :
    s.registerSwBreakpoint addr thumb internal = .ok (s, .error .cannotWrite) := by
  rw [registerSwBreakpoint, if_pos hlow]

theorem register_noSpace (thumb internal : Bool) (hlow : ¬addr < 0x03000000)
    (habsent : s.Absent addr) (hfull : ∀ i, s.breaks i ≠ none) :
    s.registerSwBreakpoint addr thumb internal = .ok (s, .error .noSpace) := by
  unfold registerSwBreakpoint
  rw [if_neg hlow]
  split
  · next i b hscan =>
    obtain ⟨hb, ha⟩ := probe_eq_some.mp (scan_hit hscan).2
    exact absurd ha (habsent i b hb)
  · rfl
  · next i hscan =>
    rcases scan_miss_some hscan with hnext | ⟨_, hfree⟩
    · cases hnext
    · exact absurd (by simpa using hfree) (hfull i)

theorem remove_of_absent {internal : Bool} (hs : s.TableInv) (habsent : s.Absent addr) :
    s.removeSwBreakpoint addr internal = (s, false) := by
  obtain ⟨⟨s', r⟩, hrem⟩ : ∃ p, s.removeSwBreakpoint addr internal = p := ⟨_, rfl⟩
  rw [hrem]
  cases remove_outcome hs hrem with
  | absent => rfl
  | kept i b hb ha => exact absurd ha (habsent i b hb)
  | freed i b hb ha => exact absurd ha (habsent i b hb)

/-- A removal that does nothing found no breakpoint of its owner. -/
theorem not_owned_of_remove {internal : Bool} (hs : s.TableInv)
    (hrem : s.removeSwBreakpoint addr internal = (s, false)) {i : Fin 16} {b : SwBreakpoint}
    (hb : s.breaks i = some b) (ha : b.instrAddr = addr) : b.reason.owns internal = false := by
  generalize hs' : s = s' at hrem
  nth_rewrite 1 [← hs'] at hrem
  cases remove_outcome hs hrem with
  | absent habsent => exact absurd ha (habsent i b hb)
  | kept j c hc hca ho =>
    obtain rfl := hs.distinct i j b c hb hc (ha.trans hca.symm)
    obtain rfl := Option.some.inj (hb.symm.trans hc)
    have hslot := congrArg (fun t : SwState => t.breaks i) hs'
    simp only [setSlot_breaks, if_true, hb] at hslot
    have hflag := congrArg (fun c => c.reason.owns internal) (Option.some.inj hslot)
    simpa using hflag

/-- Both requests at an address are refused, and change nothing, exactly if nothing is
tracked there and the registration does not come to the instruction. -/
theorem refused_iff (thumb : Bool) (hs : s.TableInv) (hplaced : s.AllPlaced) :
    ((∃ e, s.registerSwBreakpoint addr thumb false = .ok (s, .error e)) ∧
        s.removeSwBreakpoint addr false = (s, false)) ↔
      s.Absent addr ∧ (addr < 0x03000000 ∨ ∀ i, s.breaks i ≠ none) := by
  constructor
  · rintro ⟨⟨e, hreg⟩, hrem⟩
    have hfree := fun i b => not_owned_of_remove hs hrem (i := i) (b := b)
    clear hrem
    generalize hs' : s = s' at hreg
    nth_rewrite 1 [← hs'] at hreg
    cases register_outcome hreg with
    | cannotWrite hlow => exact ⟨hplaced.absent_of_low hlow, .inl hlow⟩
    | alreadyExists i b hlow hb ha ho =>
      rw [hfree i b hb ha] at ho
      cases ho
    | noSpace hlow habsent hfull => exact ⟨habsent, .inr hfull⟩
  · rintro ⟨habsent, hroom⟩
    refine ⟨?_, remove_of_absent hs habsent⟩
    by_cases hlow : addr < 0x03000000
    · exact ⟨_, register_cannotWrite s thumb false hlow⟩
    · exact ⟨_, register_noSpace thumb false hlow habsent (hroom.resolve_left hlow)⟩

end SwState

namespace V5Target

variable {n : ℕ} {user : Finset HwKey} {lock : Bool} {t : V5Target} {a : Addr}
  {kind : ArmBreakpointKind}

def withPc (t : V5Target) (a : Addr) : V5Target :=
  { t with exceptionCtx := { t.exceptionCtx with programCounter := a } }

theorem applyCall_writePc (table : TranslationTable) (t : V5Target) (a : Addr) :
    t.applyCall table (.writeRegister .pc (toLe 4 a)) = .ok (t.withPc a, .written (.ok ())) := by
  have hlen : 8 * (toLe 4 a).length = 32 := by rw [length_toLe]
  simp only [applyCall, DebugEventContext.writeRegister, DebugEventContext.writeReg, if_pos hlen]
  rw [fromLe_toLe a (by decide)]
  rfl

theorem requestSingleStep_misaligned (h : t.Ready n user lock) (hreq : t.singleStepRequest = none)
    (hal : ¬t.PcAligned) : t.requestSingleStep = .ok (t, .error .notAlignedCorrectly) := by
  have hkey : HwKey.of? t.exceptionCtx.programCounter .mismatching (stepKind t.exceptionCtx) =
      none := by
    rw [HwKey.of?_eq_none, stepKind_isThumb]
    exact hal
  have hadd : t.hwManager.addBreakpointAt t.exceptionCtx.programCounter .mismatching
      (stepKind t.exceptionCtx) = .ok (t.hwManager, .error .notAlignedCorrectly) := by
    rw [HwBreakpointManager.addBreakpointAt, h.unlocked, if_neg (by simp),
      HwKey.splitAddr_of_misaligned hkey]
  simp only [requestSingleStep, hreq, Option.isSome_none, Bool.false_eq_true, if_false, hadd,
    bind, Except.bind]
  rw [← hreq]
  rfl

/-- The set-up of a step returns where the PC is aligned, or a step is already set up. -/
theorem mustStep_returns_iff (h : t.Ready n user lock) :
    (∃ t', t.mustStep = .ok t') ↔ t.PcAligned ∨ t.singleStepRequest.isSome := by
  constructor
  · rintro ⟨t', hok⟩
    by_contra hnot
    push Not at hnot
    have hnone : t.singleStepRequest = none := Option.not_isSome_iff_eq_none.mp hnot.2
    rw [mustStep, requestSingleStep_misaligned h hnone hnot.1] at hok
    cases hok
  · rintro (hal | hsome)
    · rcases mustStep_cases h with ⟨hmis, _⟩ | ⟨t', hok, _⟩
      · exact absurd hal hmis
      · exact ⟨t', hok⟩
    · rw [mustStep, requestSingleStep, if_pos hsome]
      exact ⟨t, rfl⟩

theorem step_returns_iff (table : TranslationTable) (h : t.Ready n user lock) (a : Addr)
    {c : TargetCall} (hc : c = .step ∨ c = .setResumeActionStep true) :
    (∃ t' replies, runCalls table [.writeRegister .pc (toLe 4 a), c] t = .ok (t', replies)) ↔
      Instruction.AlignedFor t.exceptionCtx.cpsr.thumb a ∨ t.singleStepRequest.isSome := by
  have hready : (t.withPc a).Ready n user lock := h.congr ⟨rfl, rfl, rfl, rfl⟩
  refine Iff.trans ?_ (mustStep_returns_iff hready)
  simp only [runCalls, applyCall_writePc, bind, Except.bind]
  cases hstep : (t.withPc a).mustStep with
  | error e => rcases hc with rfl | rfl <;> simp [applyCall, hstep, bind, Except.bind]
  | ok t' =>
    rcases hc with rfl | rfl <;>
      simp [applyCall, hstep, bind, Except.bind, pure, Except.pure]

structure Withstands (table : TranslationTable) (t : V5Target) (a : Addr)
    (kind : ArmBreakpointKind) : Prop where
  addSw : ∃ t' b, t.addSwBreakpoint a kind = .ok (t', b)
  addHw : ∃ t' b, t.addHwBreakpoint a kind = .ok (t', b)
  removeHw : ∃ t' b, t.removeHwBreakpoint a kind = .ok (t', b)
  step : ∀ c, c = .step ∨ c = .setResumeActionStep true →
    ∃ t' replies, runCalls table [.writeRegister .pc (toLe 4 a), c] t = .ok (t', replies)
  refused : ¬Instruction.AlignedFor kind.isThumb a →
    t.addSwBreakpoint a kind = .ok (t, false) ∧ t.removeSwBreakpoint a kind = (t, false) ∧
      t.addHwBreakpoint a kind = .ok (t, false) ∧ t.removeHwBreakpoint a kind = .ok (t, false)

theorem hw_refused (h : t.Ready n user lock) (hal : ¬Instruction.AlignedFor kind.isThumb a) :
    t.addHwBreakpoint a kind = .ok (t, false) ∧ t.removeHwBreakpoint a kind = .ok (t, false) := by
  have hkey : HwKey.of? a .matching kind = none := HwKey.of?_eq_none.mpr hal
  have hsplit := HwKey.splitAddr_of_misaligned hkey
  obtain ⟨k, ha, _⟩ := h.accounted.hasKeys
  constructor
  · have hadd : t.hwManager.addBreakpointAt a .matching kind =
        .ok (t.hwManager, .error .notAlignedCorrectly) := by
      rw [HwBreakpointManager.addBreakpointAt, h.unlocked, if_neg (by simp), hsplit]
    rw [addHwBreakpoint, ha.mirrors.available]
    simp only [bind, Except.bind, hadd]
    split_ifs <;> rfl
  · have hrem : t.hwManager.removeBreakpointAt a .matching kind = .ok (t.hwManager, false) := by
      rw [HwBreakpointManager.removeBreakpointAt, h.unlocked, if_neg (by simp), hsplit]
    rw [removeHwBreakpoint, hrem]
    rfl

/-- The requests of the software path at an address that is misaligned for the set. -/
theorem sw_refused_iff (h : t.toSwState.Keeps SwState.AllPlaced true) :
    (t.addSwBreakpoint a kind = .ok (t, false) ∧ t.removeSwBreakpoint a kind = (t, false)) ↔
      t.toSwState.Absent a ∧ (a < 0x03000000 ∨ ∀ i, t.breaks i ≠ none) := by
  rw [← SwState.refused_iff kind.isThumb h.table h.holds]
  refine and_congr ?_ ?_
  · unfold addSwBreakpoint
    cases t.toSwState.registerSwBreakpoint a kind.isThumb false with
    | error e =>
      refine iff_of_false ?_ ?_
      · intro h
        cases h
      · rintro ⟨_, h⟩
        cases h
    | ok p =>
      obtain ⟨sw, r⟩ := p
      constructor
      · intro h
        obtain ⟨ht, hr⟩ := Prod.mk.inj (Except.ok.inj h)
        have hsame : sw = t.toSwState := congrArg V5Target.toSwState ht
        cases r with
        | ok u => cases hr
        | error e => exact ⟨e, by rw [hsame]⟩
      · rintro ⟨e, h⟩
        obtain ⟨rfl, rfl⟩ := Prod.mk.inj (Except.ok.inj h)
        rfl
  · unfold removeSwBreakpoint
    generalize t.toSwState.removeSwBreakpoint a false = p
    obtain ⟨sw, r⟩ := p
    constructor
    · intro h
      obtain ⟨ht, rfl⟩ := Prod.mk.inj h
      have hsame : sw = t.toSwState := congrArg V5Target.toSwState ht
      rw [hsame]
    · intro h
      obtain ⟨rfl, rfl⟩ := Prod.mk.inj h
      rfl

/-- What a reachable target withstands at an address. -/
theorem withstands_iff_of_ready (table : TranslationTable) (h : t.Ready n user lock)
    (hsw : t.toSwState.Keeps SwState.AllPlaced true) :
    t.Withstands table a kind ↔
      (Instruction.AlignedFor kind.isThumb a ∨
        (t.toSwState.Absent a ∧ (a < 0x03000000 ∨ ∀ i, t.breaks i ≠ none))) ∧
      (Instruction.AlignedFor t.exceptionCtx.cpsr.thumb a ∨ t.singleStepRequest.isSome) := by
  constructor
  · intro hw
    refine ⟨?_, (step_returns_iff table h a (.inl rfl)).mp (hw.step .step (.inl rfl))⟩
    by_cases hal : Instruction.AlignedFor kind.isThumb a
    · exact .inl hal
    · obtain ⟨hadd, hrem, _⟩ := hw.refused hal
      exact .inr ((sw_refused_iff hsw).mp ⟨hadd, hrem⟩)
  · rintro ⟨haddr, hstep⟩
    have hrefused : ¬Instruction.AlignedFor kind.isThumb a →
        t.addSwBreakpoint a kind = .ok (t, false) ∧ t.removeSwBreakpoint a kind = (t, false) :=
      fun hal => (sw_refused_iff hsw).mpr (haddr.resolve_left hal)
    constructor
    case addSw =>
      by_cases hal : Instruction.AlignedFor kind.isThumb a
      · obtain ⟨sw, r, hreg⟩ := t.toSwState.exists_register false hal
        rw [addSwBreakpoint, hreg]
        exact ⟨_, _, rfl⟩
      · exact ⟨t, false, (hrefused hal).1⟩
    case addHw =>
      obtain ⟨t', b, hadd, _⟩ := addHwBreakpoint_spec h a kind
      exact ⟨t', b, hadd⟩
    case removeHw =>
      obtain ⟨t', b, hrem, _⟩ := removeHwBreakpoint_spec h a kind
      exact ⟨t', b, hrem⟩
    case step =>
      intro c hc
      exact (step_returns_iff table h a hc).mpr hstep
    case refused =>
      intro hal
      exact ⟨(hrefused hal).1, (hrefused hal).2, hw_refused h hal⟩

end V5Target

namespace Sys

/-- In every state of the monitor, no request at an address panics and misaligned ones are
refused, if and only if the address is aligned for the requested set or its registration is
turned down before the instruction is read, and it is aligned for the set of the stopped
program or a step is set up already. -/
theorem addresses_withstood_iff (table : TranslationTable) (debugId : BitVec 32)
    (mmio : DebugLogic) (memory : CodeMemory) (exitFunc : Addr) (stopMotorsOnBreak : Bool)
    (session : DebugSession)
    (hboot : DebugSession.boot debugId mmio memory exitFunc stopMotorsOnBreak = .ok session)
    (es : List SysEvent) (s : Sys) (hrun : Run (Step table) (start session) es s)
    (hmon : s.inMonitor = true) (a : Addr) (kind : ArmBreakpointKind) :
    s.session.target.Withstands table a kind ↔
      (Instruction.AlignedFor kind.isThumb a ∨
        (s.session.target.toSwState.Absent a ∧
          (a < 0x03000000 ∨ ∀ i, s.session.target.breaks i ≠ none))) ∧
      (Instruction.AlignedFor s.session.target.exceptionCtx.cpsr.thumb a ∨
        s.session.target.singleStepRequest.isSome) := by
  have hkeeps := allPlaced_of_run hboot hrun
  rw [hmon] at hkeeps
  exact V5Target.withstands_iff_of_ready table ((holding_of_run hboot hrun).stopped hmon) hkeeps

/-- In the first stop there is the breakpoint of the boot alone. -/
theorem exists_stopped_one_slot (table : TranslationTable) :
    ∃ (session : DebugSession) (es : List SysEvent) (s : Sys) (i : Fin 16),
      DebugSession.boot 0 DebugSession.clearedLogic ⟨fun _ => 0, fun _ => 0⟩ 0x03800000 false =
        .ok session ∧
      Run (Step table) (start session) es s ∧ s.phase = .monitor .idle ∧
      s.session.target.exceptionCtx.cpsr.thumb = false ∧
      s.session.target.exceptionCtx.programCounter = 0x03900000 ∧
      (∀ j, j ≠ i → s.session.target.breaks j = none) ∧
      ∀ j b, s.session.target.breaks j = some b → b.instrAddr = 0x03800000 := by
  obtain ⟨session, ctx, s, sw, hboot, hstop, hphase, rfl, hctx, hreg, hsw⟩ :=
    exists_first_stop table
  obtain ⟨_, i, _, _, _, _, halone, _⟩ := SwState.exists_internal_of_register hreg
  have hnone : ∀ j, j ≠ i → s.session.target.breaks j = none := by
    intro j hj
    rw [hsw]
    exact SwState.setBreakpointsIgnored_of_none true (halone j hj)
  refine ⟨session, _, s, i, hboot, .single hstop, hphase, ?_, ?_, hnone, ?_⟩
  · rw [hctx]
    decide
  · rw [hctx]
  · intro j c hc
    rw [hsw] at hc
    obtain ⟨d, hd, rfl⟩ := SwState.setBreakpointsIgnored_some hc
    have haddr : d.instrAddr = 0x03800000 := SwState.instrAddr_of_register hreg hd
    exact haddr

theorem addresses_withstood_iff_word :
    ∃ s : Sys, s.session.target.Withstands openTable 0x03900000 .arm32 := by
  obtain ⟨session, es, s, _, hboot, hrun, hphase, hthumb, _⟩ :=
    exists_stopped_one_slot openTable
  exact ⟨s, (addresses_withstood_iff openTable _ _ _ _ _ session hboot es s hrun
    (by rw [inMonitor, hphase]) 0x03900000 .arm32).mpr
      ⟨.inl (by decide), .inl (by rw [hthumb]; decide)⟩⟩

/-- GDB asks for an ARM breakpoint at an odd address of accessible memory. -/
theorem misaligned_request_panics :
    ∃ (session : DebugSession) (es : List SysEvent) (s : Sys),
      DebugSession.boot 0 DebugSession.clearedLogic ⟨fun _ => 0, fun _ => 0⟩ 0x03800000 false =
        .ok session ∧
      Run (Step openTable) (start session) es s ∧ s.inMonitor = true ∧
      openTable.canAccess 0x03900001 true = true ∧
      s.session.target.addSwBreakpoint 0x03900001 .arm32 = .error .unalignedInstruction ∧
      s.session.target.addHwBreakpoint 0x03900001 .arm32 = .ok (s.session.target, false) ∧
      ¬s.session.target.Withstands openTable 0x03900001 .arm32 := by
  obtain ⟨session, es, s, i, hboot, hrun, hphase, _, _, hnone, haddr⟩ :=
    exists_stopped_one_slot openTable
  have hmon : s.inMonitor = true := by rw [inMonitor, hphase]
  have hal : ¬Instruction.AlignedFor ArmBreakpointKind.arm32.isThumb 0x03900001 := by decide
  have hpanic : s.session.target.addSwBreakpoint 0x03900001 .arm32 =
      .error .unalignedInstruction := by
    unfold V5Target.addSwBreakpoint
    cases hreg : s.session.target.toSwState.registerSwBreakpoint 0x03900001
        ArmBreakpointKind.arm32.isThumb false with
    | error e =>
      obtain rfl := SwState.register_error hreg
      rfl
    | ok p =>
      obtain ⟨sw, r⟩ := p
      have habsent : s.session.target.Absent 0x03900001 := by
        intro j b hb
        rw [haddr j b hb]
        decide
      have hother : ∀ i : Fin 16, ∃ j, j ≠ i := by decide
      obtain ⟨j, hj⟩ := hother i
      obtain ⟨b, hnew, _⟩ := SwState.new_of_register (by decide) habsent (hnone j hj) hreg
      exact absurd hnew (SwState.not_new_of_misaligned hal)
  have hready := (holding_of_run hboot hrun).stopped hmon
  refine ⟨session, es, s, hboot, hrun, hmon, openTable_access _ _, hpanic,
    (V5Target.hw_refused hready hal).1, ?_⟩
  intro hw
  obtain ⟨t', b, hadd⟩ := hw.addSw
  rw [hpanic] at hadd
  cases hadd

end Sys
end V5gdb
