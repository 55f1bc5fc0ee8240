import V5gdb.TargetSoftware

/-!
The internal breakpoint at the exit function.
It is registered once, at the boot, and given up when it fires. A client that is
attached at that moment is told that the program exits, and the monitor is left
without a word from GDB.
-/
namespace V5gdb

open RecordLayouts

namespace SwState

variable {s s' : SwState} {Q : Addr → Prop}

def InternalOnly (Q : Addr → Prop) (s : SwState) : Prop :=
  ∀ i b, s.breaks i = some b → b.reason.internal = true → Q b.instrAddr

theorem internalOnly_pause (h : s.InternalOnly Q) (ignored : Bool) :
    (s.setBreakpointsIgnored ignored).InternalOnly Q := by
  intro i c hc hint
  obtain ⟨b, hb, rfl⟩ := setBreakpointsIgnored_some hc
  exact h i b hb hint

theorem internalOnly_remove {addr : Addr} {internal r : Bool} (hs : s.TableInv)
    (h : s.InternalOnly Q) (hrem : s.removeSwBreakpoint addr internal = (s', r)) :
    s'.InternalOnly Q := by
  cases remove_outcome hs hrem with
  | absent => exact h
  | kept i b hb ha ho =>
    intro j c hc hint
    rw [setSlot_breaks] at hc
    split_ifs at hc with hj
    · obtain rfl := Option.some.inj hc
      cases internal with
      | true => cases hint
      | false => exact h i b hb hint
    · exact h j c hc hint
  | freed i b hb ha ho =>
    intro j c hc hint
    rw [freeSlot_breaks] at hc
    split_ifs at hc with hj
    exact h j c hc hint

/-- GDB never registers an internal breakpoint. -/
theorem internalOnly_register {addr : Addr} {thumb : Bool} {r : Except BreakpointError Unit}
    (h : s.InternalOnly Q) (hreg : s.registerSwBreakpoint addr thumb false = .ok (s', r)) :
    s'.InternalOnly Q := by
  cases register_outcome hreg with
  | cannotWrite => exact h
  | alreadyExists => exact h
  | noSpace => exact h
  | claimed i b hlow hb ha ho =>
    intro j c hc hint
    rw [setSlot_breaks] at hc
    split_ifs at hc with hj
    · obtain rfl := Option.some.inj hc
      exact h i b hb hint
    · exact h j c hc hint
  | installed i b hlow habsent hfree hnew =>
    obtain ⟨hdis, _, hreason, _⟩ := SwBreakpoint.new_spec hnew
    intro j c hc hint
    rw [install_breaks _ _ _ _ hdis] at hc
    split_ifs at hc with hj
    · obtain rfl := Option.some.inj hc
      simp [hreason, BreakpointReason.new] at hint
    · exact h j c hc hint

theorem internalOnly_register_empty {m : CodeMemory} {addr : Addr} {thumb internal : Bool}
    {r : Except BreakpointError Unit}
    (hreg : (empty m).registerSwBreakpoint addr thumb internal = .ok (s', r)) :
    s'.InternalOnly (· = addr) := by
  intro j c hc _
  cases register_outcome hreg with
  | cannotWrite => cases hc
  | alreadyExists => cases hc
  | noSpace => cases hc
  | claimed i b hlow hb => cases hb
  | installed i b hlow habsent hfree hnew =>
    obtain ⟨hdis, haddr, _⟩ := SwBreakpoint.new_spec hnew
    rw [install_breaks _ _ _ _ hdis] at hc
    split_ifs at hc with hj
    · obtain rfl := Option.some.inj hc
      exact haddr
    · cases hc

/-- The breakpoint of the boot is alone in the table. -/
theorem exists_internal_of_register {m : CodeMemory} {addr : Addr} {thumb : Bool}
    (hreg : (empty m).registerSwBreakpoint addr thumb true = .ok (s', .ok ())) :
    ¬ addr < 0x03000000 ∧ ∃ i b, s'.breaks i = some b ∧ b.instrAddr = addr ∧
      b.reason.internal = true ∧ (∀ j, j ≠ i → s'.breaks j = none) ∧
      b.instrBackup.bytes = ByteMemory.read m.data addr b.instrBackup.size := by
  generalize hr : (Except.ok () : Except BreakpointError Unit) = r at hreg
  cases register_outcome hreg with
  | cannotWrite => cases hr
  | alreadyExists => cases hr
  | noSpace => cases hr
  | claimed i b hlow hb => cases hb
  | installed i b hlow habsent hfree hnew =>
    obtain ⟨hdis, haddr, hreason, hread⟩ := SwBreakpoint.new_spec hnew
    refine ⟨hlow, i, { b with enabled := true }, ?_, haddr, ?_, ?_, ?_⟩
    · rw [install_breaks _ _ _ _ hdis, if_pos rfl]
      rfl
    · simp [hreason, BreakpointReason.new]
    · intro j hj
      rw [install_breaks _ _ _ _ hdis, if_neg hj]
      rfl
    · exact (Instruction.read_spec hread).2.2

/-- It is the only one. -/
theorem instrAddr_of_register {m : CodeMemory} {addr : Addr} {thumb : Bool}
    (hreg : (empty m).registerSwBreakpoint addr thumb true = .ok (s', .ok ())) {j : Fin 16}
    {c : SwBreakpoint} (hc : s'.breaks j = some c) : c.instrAddr = addr := by
  obtain ⟨_, i, b, hb, haddr, _, halone, _⟩ := exists_internal_of_register hreg
  by_cases hj : j = i
  · obtain rfl := Option.some.inj ((hj ▸ hc).symm.trans hb)
    exact haddr
  · rw [halone j hj] at hc
    cases hc

/-- The user can share a breakpoint that is already tracked. -/
theorem register_shared {addr : Addr} {thumb : Bool} {r : Except BreakpointError Unit}
    {i : Fin 16} {b : SwBreakpoint} (hs : s.TableInv) (hlow : ¬ addr < 0x03000000)
    (hb : s.breaks i = some b) (ha : b.instrAddr = addr)
    (hreg : s.registerSwBreakpoint addr thumb false = .ok (s', r)) :
    ∃ c, s'.breaks i = some c ∧ c.instrAddr = addr ∧ c.reason.user = true ∧
      c.reason.internal = b.reason.internal := by
  cases register_outcome hreg with
  | cannotWrite h => exact absurd h hlow
  | noSpace _ habsent => exact absurd ha (habsent i b hb)
  | installed _ _ _ habsent => exact absurd ha (habsent i b hb)
  | alreadyExists j c _ hc hca ho =>
    obtain rfl := hs.distinct i j b c hb hc (ha.trans hca.symm)
    obtain rfl := Option.some.inj (hb.symm.trans hc)
    exact ⟨b, hb, ha, ho, rfl⟩
  | claimed j c _ hc hca ho =>
    obtain rfl := hs.distinct i j b c hb hc (ha.trans hca.symm)
    obtain rfl := Option.some.inj (hb.symm.trans hc)
    refine ⟨{ b with reason := b.reason.set false true }, ?_, ha, rfl, rfl⟩
    rw [setSlot_breaks, if_pos rfl]

theorem internalOnly_kept (table : TranslationTable) (Q : Addr → Prop) :
    KeptByStops table (fun _ => True) (fun _ _ => True) (InternalOnly Q) where
  pause := fun _ ignored _ h => internalOnly_pause h ignored
  remove := fun _ _ _ _ _ h hrem => internalOnly_remove h.table h.holds hrem
  register := fun _ _ _ _ _ h hreg => internalOnly_register h.holds hreg
  write := fun _ _ _ _ _ _ h => h.holds
  run := fun _ _ _ h => h.holds

theorem absent_pause (s : SwState) (addr : Addr) (ignored : Bool) :
    (s.setBreakpointsIgnored ignored).Absent addr ↔ s.Absent addr := by
  constructor
  · intro h i b hb
    exact h i { b with enabled := !ignored } (setBreakpointsIgnored_of_some ignored hb)
  · intro h i c hc
    obtain ⟨b, hb, rfl⟩ := setBreakpointsIgnored_some hc
    exact h i b hb

theorem exists_query {i : Fin 16} {b : SwBreakpoint} (hb : s.breaks i = some b) :
    ∃ id, s.querySwBreakpoint b.instrAddr = some id := by
  apply Option.isSome_iff_exists.mp
  rw [querySwBreakpoint, List.find?_isSome]
  exact ⟨i, List.mem_finRange i, by rw [probe_eq_some.mpr ⟨hb, rfl⟩]; rfl⟩

/-- The internal owner gives a breakpoint up: it is gone unless the user has it too. -/
theorem remove_internal {i : Fin 16} {b : SwBreakpoint} {r : Bool} (hs : s.TableInv)
    (hb : s.breaks i = some b) (hrem : s.removeSwBreakpoint b.instrAddr true = (s', r)) :
    (s'.Absent b.instrAddr ↔ b.reason.user = false) ∧
      ∀ j c, s'.breaks j = some c → c.instrAddr = b.instrAddr → c.reason.internal = false := by
  cases remove_outcome hs hrem with
  | absent habsent => exact absurd rfl (habsent i b hb)
  | kept j c hc ha ho =>
    obtain rfl := hs.distinct j i c b hc hb ha
    obtain rfl := Option.some.inj (hc.symm.trans hb)
    have huser : c.reason.user = true := ho
    constructor
    · constructor
      · intro habsent
        refine absurd rfl (habsent j { c with reason := c.reason.set true false } ?_)
        rw [setSlot_breaks, if_pos rfl]
      · intro hnot
        rw [huser] at hnot
        cases hnot
    · intro k d hd hda
      rw [setSlot_breaks] at hd
      split_ifs at hd with hk
      · obtain rfl := Option.some.inj hd
        rfl
      · exact absurd hda (hs.others hb k d hk hd)
  | freed j c hc ha ho =>
    obtain rfl := hs.distinct j i c b hc hb ha
    obtain rfl := Option.some.inj (hc.symm.trans hb)
    have huser : c.reason.user = false := ho
    have hgone : (s.freeSlot j c).Absent c.instrAddr := by
      intro k d hd
      rw [freeSlot_breaks] at hd
      split_ifs at hd with hk
      exact hs.others hb k d hk hd
    exact ⟨⟨fun _ => huser, fun _ => hgone⟩, fun k d hd hda => absurd hda (hgone k d hd)⟩

/-- The only internal breakpoint leaves none behind. -/
theorem no_internal_left {addr : Addr} {i : Fin 16} {b : SwBreakpoint} {r : Bool}
    (hs : s.TableInv) (honly : s.InternalOnly (· = addr)) (hb : s.breaks i = some b)
    (ha : b.instrAddr = addr) (hrem : s.removeSwBreakpoint b.instrAddr true = (s', r)) :
    s'.InternalOnly fun _ => False := by
  intro j c hc hint
  have hca : c.instrAddr = b.instrAddr :=
    (internalOnly_remove hs honly hrem j c hc hint).trans ha.symm
  rw [(remove_internal hs hb hrem).2 j c hc hca] at hint
  cases hint

end SwState

namespace DebugSession

variable {s s' : DebugSession}

def withSw (s : DebugSession) (sw : SwState) : DebugSession :=
  { s with target := { s.target with toSwState := sw } }

def exiting (s : DebugSession) : DebugSession :=
  { s with target := { s.target with monitorStatus := .exiting } }

theorem handleInternalBreakpoint_cases (s : DebugSession) :
    ((∀ addr, s.internalBreaks = some (.systemExitRequest, addr) →
        addr ≠ s.target.exceptionCtx.programCounter) ∧
      s.handleInternalBreakpoint = (s, .resume)) ∨
    ∃ sw r, s.target.toSwState.removeSwBreakpoint s.target.exceptionCtx.programCounter true =
        (sw, r) ∧
      ((s.hasClient = false ∧ s.handleInternalBreakpoint = (s.withSw sw, .resume)) ∨
        (s.hasClient = true ∧
          s.handleInternalBreakpoint = ((s.withSw sw).exiting, .enterMonitor))) := by
  unfold handleInternalBreakpoint
  cases hfind : s.internalBreaks.filter
      fun b => b.2 = s.target.exceptionCtx.programCounter with
  | none =>
    refine Or.inl ⟨?_, rfl⟩
    intro addr haddr hpc
    rw [haddr, Option.filter_some, if_pos (by simpa using hpc)] at hfind
    cases hfind
  | some b =>
    obtain ⟨⟨⟩, addr⟩ := b
    obtain ⟨_, hpc⟩ := Option.filter_eq_some_iff.mp hfind
    obtain rfl : addr = s.target.exceptionCtx.programCounter := by simpa using hpc
    refine Or.inr ⟨_, _, rfl, ?_⟩
    cases hclient : s.hasClient with
    | false =>
      have hsame : (s.withSw (s.target.toSwState.removeSwBreakpoint
        s.target.exceptionCtx.programCounter true).1).hasClient = false := hclient
      refine Or.inl ⟨rfl, ?_⟩
      exact if_pos (by rw [Bool.not_eq_true']; exact hsame)
    | true =>
      have hsame : (s.withSw (s.target.toSwState.removeSwBreakpoint
        s.target.exceptionCtx.programCounter true).1).hasClient = true := hclient
      refine Or.inr ⟨rfl, ?_⟩
      exact if_neg (by rw [Bool.not_eq_true', Bool.not_eq_false]; exact hsame)

inductive StopOutcome (s : DebugSession) : StopReason → DebugSession → StopAction → Prop
  | untracked {reason : StopReason} (h : ∀ id, reason ≠ .trackedSoftwareBreak id) :
      StopOutcome s reason s .enterMonitor
  | userOnly (id : Fin 16) (b : SwBreakpoint) (hb : s.target.breaks id = some b)
      (hint : b.reason.internal = false) :
      StopOutcome s (.trackedSoftwareBreak id) s
        (if b.reason.user then .enterMonitor else .resume)
  | stray (id : Fin 16) (b : SwBreakpoint) (hb : s.target.breaks id = some b)
      (hpc : ∀ addr, s.internalBreaks = some (.systemExitRequest, addr) →
        addr ≠ s.target.exceptionCtx.programCounter) :
      StopOutcome s (.trackedSoftwareBreak id) s
        (if b.reason.user then .enterMonitor else .resume)
  | exit (id : Fin 16) (b : SwBreakpoint) (sw : SwState) (r : Bool)
      (hb : s.target.breaks id = some b) (hint : b.reason.internal = true)
      (hrem : s.target.toSwState.removeSwBreakpoint s.target.exceptionCtx.programCounter true =
        (sw, r)) (hclient : s.hasClient = false) :
      StopOutcome s (.trackedSoftwareBreak id) (s.withSw sw)
        (if b.reason.user then .enterMonitor else .resume)
  | exitWithClient (id : Fin 16) (b : SwBreakpoint) (sw : SwState) (r : Bool)
      (hb : s.target.breaks id = some b) (hint : b.reason.internal = true)
      (hrem : s.target.toSwState.removeSwBreakpoint s.target.exceptionCtx.programCounter true =
        (sw, r)) (hclient : s.hasClient = true) :
      StopOutcome s (.trackedSoftwareBreak id) (s.withSw sw).exiting .enterMonitor

theorem handleStop_outcome {reason : StopReason} {action : StopAction}
    (h : s.handleStop reason = .ok (s', action)) : StopOutcome s reason s' action := by
  unfold handleStop at h
  split at h
  · next id =>
    split at h
    · cases h
    · next b hb =>
      cases hint : b.reason.internal with
      | false =>
        simp only [hint, Bool.false_eq_true, if_false] at h
        obtain ⟨rfl, rfl⟩ := Prod.mk.inj (Except.ok.inj h)
        exact .userOnly id b hb hint
      | true =>
        simp only [hint, if_true] at h
        rcases s.handleInternalBreakpoint_cases with
          ⟨hpc, hstray⟩ | ⟨sw, r, hrem, ⟨hclient, hexit⟩ | ⟨hclient, hexit⟩⟩
        · rw [hstray] at h
          obtain ⟨rfl, rfl⟩ := Prod.mk.inj (Except.ok.inj h)
          exact .stray id b hb hpc
        · rw [hexit] at h
          obtain ⟨rfl, rfl⟩ := Prod.mk.inj (Except.ok.inj h)
          exact .exit id b sw r hb hint hrem hclient
        · rw [hexit, ite_self] at h
          obtain ⟨rfl, rfl⟩ := Prod.mk.inj (Except.ok.inj h)
          exact .exitWithClient id b sw r hb hint hrem hclient
  · next hnot =>
    obtain ⟨rfl, rfl⟩ := Prod.mk.inj (Except.ok.inj h)
    exact .untracked hnot

def FiresAt (s : DebugSession) (ctx : DebugEventContext) (b : SwBreakpoint) : Prop :=
  ∃ i, s.target.breaks i = some b ∧ b.instrAddr = ctx.programCounter

/-- A stop is only classified as tracked by a breakpoint at the PC. -/
theorem querySwBreakpoint_of_reason {t : V5Target} {ctx : DebugEventContext} {id : Fin 16}
    (h : (t.prepareEntry ctx).stopReason = .trackedSoftwareBreak id) :
    (t.toSwState.setBreakpointsIgnored true).querySwBreakpoint ctx.programCounter = some id := by
  unfold V5Target.prepareEntry V5Target.classifyStop at h
  simp only at h
  split at h
  · split_ifs at h
  · split at h
    · next hquery =>
      obtain rfl := StopReason.trackedSoftwareBreak.inj h
      exact hquery
    · cases h
  · cases h

inductive EventResult (s : DebugSession) (ctx : DebugEventContext) :
    DebugSession → Option GdbState → Prop
  | shown {s' : DebugSession} (gdb : GdbState) (hstatus : s'.target.monitorStatus = .active) :
      EventResult s ctx s' (some gdb)
  | passedOver {s' : DebugSession} (b : SwBreakpoint) (hfires : s.FiresAt ctx b)
      (huser : b.reason.user = false) (hctx : s'.target.exceptionCtx = ctx)
      (hgone : s'.target.Absent ctx.programCounter) : EventResult s ctx s' none
  | exiting {s' : DebugSession} (gdb : GdbState) (b : SwBreakpoint) (hfires : s.FiresAt ctx b)
      (hint : b.reason.internal = true) (hclient : s.hasClient = true)
      (hstage : s.stage = .active gdb) (hstatus : s'.target.monitorStatus = .exiting)
      (hctx : s'.target.exceptionCtx = ctx)
      (hgone : s'.target.Absent ctx.programCounter ↔ b.reason.user = false)
      (hlast : s'.target.InternalOnly fun _ => False) : EventResult s ctx s' (some gdb)

/-- Taking the console over changes the stage alone. -/
theorem openConsole_cases {gdb : GdbState} (h : s.openConsole = .ok (gdb, s')) :
    s' = { s with stage := .transitioning } ∧
      ((s.stage = .uninitialized ∧ gdb = .idle) ∨ s.stage = .active gdb) := by
  unfold openConsole at h
  split at h
  · next hstage =>
    obtain ⟨rfl, rfl⟩ := Prod.mk.inj (Except.ok.inj h)
    exact ⟨rfl, Or.inl ⟨hstage, rfl⟩⟩
  · next hstage =>
    obtain ⟨rfl, rfl⟩ := Prod.mk.inj (Except.ok.inj h)
    exact ⟨rfl, Or.inr hstage⟩
  · cases h

/-- Once the user has a breakpoint, a stop at it is shown. -/
theorem eventResult_of_flag {s₁ : DebugSession} {ctx : DebugEventContext} {user : Bool}
    {gdb? : Option GdbState} (hstatus : s₁.target.monitorStatus = .active)
    (hcase : ((if user then StopAction.enterMonitor else .resume) = .resume ∧ gdb? = none ∧
        s' = s₁) ∨
      ((if user then StopAction.enterMonitor else .resume) = .enterMonitor ∧
        ∃ gdb, gdb? = some gdb ∧ s₁.openConsole = .ok (gdb, s')))
    (hpassed : user = false → EventResult s ctx s₁ none) : EventResult s ctx s' gdb? := by
  rcases hcase with ⟨haction, rfl, rfl⟩ | ⟨haction, gdb, rfl, hopen⟩
  · cases user with
    | false => exact hpassed rfl
    | true => cases haction
  · exact .shown gdb (by rw [openConsole_target hopen, hstatus])

/-- An entry leaves the list of internal breakpoints alone, and the stage too unless
it opens the console. -/
theorem beginEvent_stage {ctx : DebugEventContext} {suspends : Bool} {gdb? : Option GdbState}
    (hbegin : s.beginEvent ctx = .ok (s', suspends, gdb?)) :
    s'.internalBreaks = s.internalBreaks ∧ (gdb? = none → s'.stage = s.stage) := by
  obtain ⟨t, s₁, action, _, hstop, hcase⟩ := beginEvent_ok hbegin
  have hsame : s₁.internalBreaks = s.internalBreaks ∧ s₁.stage = s.stage := by
    have hout := handleStop_outcome hstop
    generalize t.stopReason = reason at hout
    cases hout <;> exact ⟨rfl, rfl⟩
  rcases hcase with ⟨_, _, rfl⟩ | ⟨_, gdb, rfl, hopen⟩
  · exact ⟨hsame.1, fun _ => hsame.2⟩
  · obtain ⟨rfl, _⟩ := openConsole_cases hopen
    exact ⟨hsame.1, nofun⟩

theorem beginEvent_result {n : ℕ} {user : Finset HwKey} {addr : Addr} {ctx : DebugEventContext}
    {suspends paused : Bool} {gdb? : Option GdbState} (hacc : s.target.Accounted n user)
    (hkeeps : s.target.toSwState.Keeps (SwState.InternalOnly (· = addr)) paused)
    (hreg : s.internalBreaks = some (.systemExitRequest, addr))
    (hbegin : s.beginEvent ctx = .ok (s', suspends, gdb?)) : EventResult s ctx s' gdb? := by
  obtain ⟨t, s₁, action, henter, hstop, hcase⟩ := beginEvent_ok hbegin
  obtain ⟨hsw, hstatus, hreason, hctx⟩ := V5Target.enterBreakpoint_sw hacc henter
  have hpaused := (SwState.internalOnly_kept ⟨fun _ => ⟨0⟩⟩ (· = addr)).keeps_pause hkeeps true
  rw [← hsw] at hpaused
  have hout := handleStop_outcome hstop
  generalize hr : t.stopReason = reason at hout
  -- a tracked breakpoint is the one at the PC, now paused
  have htracked : ∀ id c, reason = .trackedSoftwareBreak id → t.breaks id = some c →
      t.exceptionCtx = ctx ∧ c.instrAddr = ctx.programCounter ∧
        ∃ b, s.FiresAt ctx b ∧ b.reason = c.reason := by
    rintro id c rfl hc
    have hquery := querySwBreakpoint_of_reason (hreason.symm.trans hr)
    rw [← hsw] at hquery
    obtain ⟨d, hd, hda⟩ := SwState.querySwBreakpoint_some hquery
    obtain rfl := Option.some.inj (hc.symm.trans hd)
    rw [hsw] at hc
    obtain ⟨b, hb, rfl⟩ := SwState.setBreakpointsIgnored_some hc
    exact ⟨hctx (by rw [hr]; nofun), hda, b, ⟨id, hb, hda⟩, rfl⟩
  cases hout with
  | untracked hnot =>
    rcases hcase with ⟨haction, _⟩ | ⟨_, gdb, rfl, hopen⟩
    · cases haction
    · exact .shown gdb (by rw [openConsole_target hopen, hstatus])
  | userOnly id c hc hint =>
    refine eventResult_of_flag hstatus hcase fun hnot => ?_
    have hwanted := hpaused.table.wanted id c hc
    simp [BreakpointReason.unwanted, hint, hnot] at hwanted
  | stray id c hc hpc =>
    refine eventResult_of_flag hstatus hcase fun hnot => ?_
    obtain ⟨hsame, hca, _⟩ := htracked id c rfl hc
    have hint : c.reason.internal = true := by
      have hwanted := hpaused.table.wanted id c hc
      simpa [BreakpointReason.unwanted, hnot] using hwanted
    have haddr : c.instrAddr = addr := hpaused.holds id c hc hint
    refine absurd ?_ (hpc addr hreg)
    show addr = t.exceptionCtx.programCounter
    rw [hsame, ← haddr, hca]
  | exit id c sw r hc hint hrem hclient =>
    refine eventResult_of_flag hstatus hcase fun hnot => ?_
    obtain ⟨hsame, hca, b, hfires, hbr⟩ := htracked id c rfl hc
    rw [hsame, ← hca] at hrem
    obtain ⟨hgone, _⟩ := SwState.remove_internal hpaused.table hc hrem
    rw [hca] at hgone
    exact .passedOver b hfires (by rw [hbr]; exact hnot) hsame (hgone.mpr hnot)
  | exitWithClient id c sw r hc hint hrem hclient =>
    obtain ⟨hsame, hca, b, hfires, hbr⟩ := htracked id c rfl hc
    rw [hsame, ← hca] at hrem
    obtain ⟨hgone, _⟩ := SwState.remove_internal hpaused.table hc hrem
    rw [hca, ← hbr] at hgone
    rcases hcase with ⟨haction, _⟩ | ⟨_, gdb, rfl, hopen⟩
    · cases haction
    · obtain ⟨rfl, hstage⟩ := openConsole_cases hopen
      have hactive : s.stage = .active gdb := by
        rcases hstage with ⟨huninit, _⟩ | hactive
        · have hstage' : s.stage = .uninitialized := huninit
          simp [hasClient, hstage'] at hclient
        · exact hactive
      exact .exiting gdb b hfires (by rw [hbr]; exact hint) hclient hactive rfl hsame hgone
        (SwState.no_internal_left hpaused.table hpaused.holds hc (hpaused.holds id c hc hint)
          hrem)

/-- An attached client is told when the exit function is reached. -/
theorem handleStop_exit {addr : Addr} {id : Fin 16} {b : SwBreakpoint}
    (hreg : s.internalBreaks = some (.systemExitRequest, addr)) (hb : s.target.breaks id = some b)
    (hpc : s.target.exceptionCtx.programCounter = addr) (hint : b.reason.internal = true)
    (hclient : s.hasClient = true) :
    ∃ s₁ : DebugSession,
      s.handleStop (.trackedSoftwareBreak id) = .ok (s₁.exiting, .enterMonitor) ∧
      s₁.stage = s.stage := by
  rcases s.handleInternalBreakpoint_cases with
    ⟨hstray, _⟩ | ⟨sw, r, _, ⟨hnone, _⟩ | ⟨_, hexit⟩⟩
  · exact absurd hpc.symm (hstray addr hreg)
  · rw [hclient] at hnone
    cases hnone
  · refine ⟨s.withSw sw, ?_, rfl⟩
    simp only [handleStop, hb, hint, if_true, hexit, ite_self]

theorem exists_exit_event {n : ℕ} {user : Finset HwKey} {addr : Addr} {ctx : DebugEventContext}
    {b : SwBreakpoint} {gdb : GdbState} (hacc : s.target.Accounted n user)
    (htable : s.target.TableInv) (hreg : s.internalBreaks = some (.systemExitRequest, addr))
    (hfires : s.FiresAt ctx b) (haddr : b.instrAddr = addr) (hint : b.reason.internal = true)
    (hmethod : s.target.hwManager.lastBreakReason = some .bkptInstr)
    (hstage : s.stage = .active gdb) (hgdb : gdb ≠ .disconnected) :
    ∃ s' suspends, s.beginEvent ctx = .ok (s', suspends, some gdb) ∧
      s'.target.monitorStatus = .exiting := by
  obtain ⟨i, hb, hba⟩ := hfires
  have hpaused : (s.target.toSwState.setBreakpointsIgnored true).breaks i =
      some { b with enabled := false } := SwState.setBreakpointsIgnored_of_some true hb
  obtain ⟨id, hquery⟩ := SwState.exists_query hpaused
  have hreason : (s.target.prepareEntry ctx).stopReason = .trackedSoftwareBreak id := by
    have hlast : (s.target.hwManager.setLocked false).lastBreakReason = some .bkptInstr := hmethod
    unfold V5Target.prepareEntry V5Target.classifyStop
    simp only [hlast]
    rw [show ctx.programCounter = b.instrAddr from hba.symm, hquery]
  obtain ⟨c, hc, hca⟩ := SwState.querySwBreakpoint_some hquery
  obtain rfl := (SwState.setBreakpointsIgnored_tableInv htable true).distinct id i c _ hc hpaused
    hca
  rcases V5Target.enterBreakpoint_cases hacc ctx with ⟨hun, _⟩ | ⟨hw, ctx', hok, hctx, _⟩
  · rw [hreason] at hun
    cases hun
  · obtain rfl := hctx (by rw [hreason]; nofun)
    have hclient : s.hasClient = true := by
      cases gdb <;> simp_all [hasClient]
    obtain ⟨s₁, hstop, hsame⟩ := handleStop_exit (s := { s with
      target := { s.target.prepareEntry ctx' with
        hwManager := hw, singleStepRequest := none, interruptPending := false,
        exceptionCtx := ctx' } }) hreg hpaused (hba.symm.trans haddr) hint hclient
    refine ⟨{ s₁.exiting with stage := .transitioning }, s.target.singleStepRequest.isNone, ?_,
      rfl⟩
    rw [← hreason] at hstop
    refine Exec.bind_ok.mpr ⟨_, hok, Exec.bind_ok.mpr ⟨_, hstop, Exec.bind_ok.mpr
      ⟨(gdb, { s₁.exiting with stage := .transitioning }), ?_, rfl⟩⟩⟩
    have hactive : s₁.exiting.stage = .active gdb := hsame.trans hstage
    simp only [openConsole, hactive]

end DebugSession
end V5gdb
