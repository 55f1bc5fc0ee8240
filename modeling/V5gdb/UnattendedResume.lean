import V5gdb.ExitBreakpoint

/-!
Returns to the program that GDB did not ask for.
They come from the breakpoint at the exit function alone. It is the only one that
is passed over, and while it is there a client that is attached has resumed the
program; so the next turn of the console reports the exit and leaves the monitor.
-/
namespace V5gdb

open RecordLayouts Transitions

namespace V5Target

variable {t t' : V5Target} {table : TranslationTable}

theorem runCalls_status {calls : List TargetCall} {replies : List (TargetCall × TargetReply)}
    (h : runCalls table calls t = .ok (t', replies)) :
    t'.monitorStatus =
      if calls.any TargetCall.resumes then .resumingProgram else t.monitorStatus := by
  induction calls generalizing t replies with
  | nil =>
    obtain ⟨rfl, rfl⟩ := Prod.mk.inj (Except.ok.inj h)
    rfl
  | cons c cs ih =>
    obtain ⟨t₁, r, rs, happ, hrest, rfl⟩ := runCalls_cons h
    rw [ih hrest, applyCall_status happ, List.any_cons]
    cases c.resumes <;> simp

theorem runCalls_labels {calls : List TargetCall} {replies : List (TargetCall × TargetReply)}
    (h : runCalls table calls t = .ok (t', replies)) : replies.map Prod.fst = calls := by
  induction calls generalizing t replies with
  | nil =>
    obtain ⟨_, rfl⟩ := Prod.mk.inj (Except.ok.inj h)
    rfl
  | cons c cs ih =>
    obtain ⟨t₁, r, rs, _, hrest, rfl⟩ := runCalls_cons h
    rw [List.map_cons, ih hrest]

end V5Target

namespace Sys

variable {n : ℕ} {user : Finset HwKey} {lock : Bool} {addr : Addr} {s s' : Sys}
  {table : TranslationTable}

def ExitHandled (s : Sys) : Prop := s.session.target.InternalOnly fun _ => False

/-- The internal breakpoint and the clients that may be told of it. -/
structure ExitInv (addr : Addr) (s : Sys) : Prop where
  keeps : s.session.target.toSwState.Keeps (SwState.InternalOnly (· = addr)) s.inMonitor
  registered : s.session.internalBreaks = some (.systemExitRequest, addr)
  stage : s.inMonitor = false → s.ExitHandled ∨ s.session.stage = .uninitialized ∨
    s.session.stage = .active .running
  status : ∀ gdb, s.phase = .monitor gdb → s.session.target.monitorStatus = .active ∨
    (s.session.target.monitorStatus = .exiting ∧ gdb = .running ∧ s.ExitHandled)

theorem exitHandled_step {e : SysEvent} (h : s.ExitInv addr) (hhold : s.Holding n user lock)
    (hdone : s.ExitHandled) (hstep : Step table s e s') : s'.ExitHandled := by
  refine ((SwState.internalOnly_kept table _).step hhold
    ⟨h.keeps.table, h.keeps.paused, hdone⟩ hstep ?_).holds
  cases e <;> simp [Admits]

/-- A turn of the loop that stays in the monitor keeps the status. -/
theorem status_of_tick {gdb gdb' : GdbState} {t t' : V5Target} {input : GdbInput}
    {replies : List (TargetCall × TargetReply)}
    (htick : DebugSession.tickStateMachine table gdb t input = .ok (gdb', t', replies))
    (hstay : t'.monitorStatus ≠ .resumingProgram) : t'.monitorStatus = t.monitorStatus := by
  cases DebugSession.tick_outcome htick with
  | packet calls next t' replies hrun =>
    have hstatus := V5Target.runCalls_status hrun
    split_ifs at hstatus
    · exact absurd hstatus hstay
    · exact hstatus
  | reportExit => exact absurd rfl hstay
  | disconnectExit => exact absurd rfl hstay
  | _ => rfl

/-- While the exit is not at issue the monitor is left by a packet that resumes. -/
theorem running_of_lastTick {gdb gdb' : GdbState} {t t' : V5Target} {input : GdbInput}
    {replies : List (TargetCall × TargetReply)}
    (htick : DebugSession.tickStateMachine table gdb t input = .ok (gdb', t', replies))
    (hactive : t.monitorStatus = .active) (hresume : t'.monitorStatus = .resumingProgram) :
    gdb' = .running ∧ ∃ p ∈ replies, p.1.resumes = true := by
  cases DebugSession.tick_outcome htick with
  | packet calls next t' replies hrun =>
    have hstatus := V5Target.runCalls_status hrun
    rw [hresume] at hstatus
    split_ifs at hstatus with hany
    · refine ⟨by rw [GdbState.afterPacket, if_pos hany], ?_⟩
      rw [← V5Target.runCalls_labels hrun, List.any_map, List.any_eq_true] at hany
      exact hany
    · rw [hactive] at hstatus
      cases hstatus
  | reportExit hexit =>
    rw [hactive] at hexit
    cases hexit
  | disconnectExit hexit =>
    rw [hactive] at hexit
    cases hexit
  | _ =>
    rw [hactive] at hresume
    cases hresume

/-- Where the breakpoint fires, a client that is there takes the program to be running. -/
theorem ExitInv.running_of_fires {ctx : DebugEventContext} {status : DebugStatusControl}
    {gdb : GdbState} {b : SwBreakpoint} (h : s.ExitInv addr) (hmon : s.inMonitor = false)
    (hfires : (s.session.signal status).FiresAt ctx b) (hint : b.reason.internal = true)
    (hstage : (s.session.signal status).stage = .active gdb) : gdb = .running := by
  obtain ⟨i, hb, _⟩ := hfires
  have hactive : s.session.stage = .active gdb := hstage
  rcases h.stage hmon with hh | hh | hh
  · exact absurd (hh i b hb hint) id
  · rw [hactive] at hh
    cases hh
  · rw [hactive] at hh
    exact SessionStage.active.inj hh

theorem ExitInv.step {e : SysEvent} (h : s.ExitInv addr) (hhold : s.Holding n user lock)
    (hstep : Step table s e s') : s'.ExitInv addr := by
  have hkeeps := (SwState.internalOnly_kept table (· = addr)).step hhold h.keeps hstep
    (by cases e <;> simp [Admits])
  have hdone : s.ExitHandled → s'.ExitHandled := fun hdone =>
    exitHandled_step h hhold hdone hstep
  cases hstep with
  | @unattended _ status _ _ hphase hbegin =>
    have hmon : s.inMonitor = false := by rw [inMonitor, hphase]
    obtain ⟨hbreaks, hstage⟩ := DebugSession.beginEvent_stage hbegin
    refine ⟨hkeeps, hbreaks.trans h.registered, fun _ => ?_, fun _ h => by cases h⟩
    rcases h.stage hmon with hh | hh
    · exact Or.inl (hdone hh)
    · rw [show ((s.suspend _).leave _).session.stage = _ from hstage rfl]
      exact Or.inr hh
  | @attended _ status _ _ gdb hphase hbegin =>
    have hmon : s.inMonitor = false := by rw [inMonitor, hphase]
    obtain ⟨hbreaks, _⟩ := DebugSession.beginEvent_stage hbegin
    refine ⟨hkeeps, hbreaks.trans h.registered, (fun h => by cases h), ?_⟩
    intro gdb' hgdb
    obtain rfl := Phase.monitor.inj hgdb
    have hacc := DebugSession.signal_accounted hhold.accounted status
    cases DebugSession.beginEvent_result hacc h.keeps h.registered hbegin with
    | shown gdb hstatus => exact Or.inl hstatus
    | exiting gdb b hfires hint hclient hstage hstatus hctx hgone hlast =>
      exact Or.inr ⟨hstatus, h.running_of_fires hmon hfires hint hstage, hlast⟩
  | tick hphase htick hstay =>
    refine ⟨hkeeps, h.registered, (fun h => by cases h), ?_⟩
    intro _ _
    have hsame := status_of_tick htick hstay
    rcases h.status _ hphase with hactive | ⟨hexit, rfl, _⟩
    · exact Or.inl (hsame.trans hactive)
    · cases DebugSession.tick_outcome htick with
      | reportExit => exact absurd rfl hstay
      | report hnot => exact absurd hexit hnot
  | lastTick hphase htick hresume =>
    refine ⟨hkeeps, h.registered, fun _ => ?_, fun _ h => by cases h⟩
    rcases h.status _ hphase with hactive | ⟨_, _, hh⟩
    · obtain ⟨rfl, _⟩ := running_of_lastTick htick hactive hresume
      exact Or.inr (Or.inr rfl)
    · exact Or.inl (hdone hh)
  | «return» hphase =>
    have hmon : s.inMonitor = false := by rw [inMonitor, hphase]
    exact ⟨hkeeps, h.registered, fun _ => h.stage hmon, fun _ h => by cases h⟩
  | poll hphase hpoll =>
    obtain ⟨hw, interruptPending, rfl⟩ := DebugSession.poll_frame hpoll
    exact ⟨hkeeps, h.registered, h.stage, h.status⟩
  | pollBusy => exact h
  | run hphase =>
    exact ⟨hkeeps, h.registered, h.stage, h.status⟩

theorem exitInv_start {debugId : BitVec 32} {mmio : DebugLogic} {memory : CodeMemory}
    {exitFunc : Addr} {session : DebugSession}
    (h : session.Booted debugId mmio memory exitFunc) :
    (start session).ExitInv (exitFunc &&& ~~~1) where
  keeps := ⟨SwState.register_tableInv (SwState.empty_tableInv memory) h.registered,
    SwState.register_breaksPaused h.registered, SwState.internalOnly_register_empty h.registered⟩
  registered := h.internalBreaks
  stage := fun _ => Or.inr (Or.inl h.stage)
  status := fun _ h => by cases h

theorem exitInv_of_run {debugId : BitVec 32} {mmio : DebugLogic} {memory : CodeMemory}
    {exitFunc : Addr} {stopMotorsOnBreak : Bool} {session : DebugSession} {es : List SysEvent}
    (hboot : DebugSession.boot debugId mmio memory exitFunc stopMotorsOnBreak = .ok session)
    (hrun : Run (Step table) (start session) es s) : s.ExitInv (exitFunc &&& ~~~1) := by
  have hbooted := DebugSession.booted_of_boot hboot
  have hinv := hrun.invariant
    (P := fun es s => s.Holding (HardwareCapabilities.ofDebugId debugId).numBreakpoints
      (userKeys es) true ∧ s.ExitInv (exitFunc &&& ~~~1))
    ⟨holding_start hbooted, exitInv_start hbooted⟩ (by
      intro es t e t' ⟨hhold, hexit⟩ hstep
      rw [userKeys_append]
      exact ⟨hhold.step hstep, hexit.step hhold hstep⟩)
  exact hinv.2

end Sys

def SysEvent.Unanswered : SysEvent → Prop
  | tick _ replies => ∀ p ∈ replies, p.1.resumes = false
  | poll _ => True
  | _ => False

namespace Sys

variable {s s' : Sys} {table : TranslationTable} {pc : Addr} {user : Bool}

def LeftTo (pc : Addr) (user : Bool) (sw : SwState) : Prop := sw.Absent pc ↔ user = false

inductive Unheard (pc : Addr) (user : Bool) (s : Sys) : Prop
  | shown (gdb : GdbState) (hphase : s.phase = .monitor gdb)
      (hstatus : s.session.target.monitorStatus = .active)
  | exiting (hphase : s.phase = .monitor .running)
      (hstatus : s.session.target.monitorStatus = .exiting)
      (hpc : s.session.target.exceptionCtx.programCounter = pc)
      (hkeeps : s.session.target.toSwState.Keeps (LeftTo pc user) true)
  | left (unpause : Bool) (hphase : s.phase = .returning unpause)
      (hpc : s.resumed.programCounter = pc)
      (hkeeps : s.session.target.toSwState.Keeps (LeftTo pc user) false)

theorem leftTo_resume {sw : SwState} (h : sw.Keeps (LeftTo pc user) true) :
    (sw.setBreakpointsIgnored false).Keeps (LeftTo pc user) false where
  table := SwState.setBreakpointsIgnored_tableInv h.table false
  paused := SwState.setBreakpointsIgnored_breaksPaused ..
  holds := (SwState.absent_pause sw pc false).trans h.holds

theorem Unheard.step {e : SysEvent} (h : s.Unheard pc user) (hstep : Step table s e s')
    (hun : e.Unanswered) : s'.Unheard pc user := by
  cases h with
  | shown gdb hphase hstatus =>
    cases hstep with
    | tick _ htick hstay => exact .shown _ rfl ((status_of_tick htick hstay).trans hstatus)
    | lastTick _ htick hresume =>
      obtain ⟨_, p, hp, hres⟩ := running_of_lastTick htick hstatus hresume
      rw [hun p hp] at hres
      cases hres
    | poll hout =>
      rw [inMonitor, hphase] at hout
      cases hout
    | pollBusy => exact .shown gdb hphase hstatus
    | _ => cases hun
  | exiting hphase hstatus hpc hkeeps =>
    cases hstep with
    | tick hphase' htick hstay =>
      obtain rfl := Phase.monitor.inj (hphase.symm.trans hphase')
      cases DebugSession.tick_outcome htick with
      | reportExit => exact absurd rfl hstay
      | report hnot => exact absurd hstatus hnot
    | lastTick hphase' htick hresume =>
      obtain rfl := Phase.monitor.inj (hphase.symm.trans hphase')
      cases DebugSession.tick_outcome htick with
      | reportExit => exact .left _ rfl hpc (leftTo_resume hkeeps)
      | report hnot => exact absurd hstatus hnot
    | poll hout =>
      rw [inMonitor, hphase] at hout
      cases hout
    | pollBusy => exact .exiting hphase hstatus hpc hkeeps
    | _ => cases hun
  | left unpause hphase hpc hkeeps =>
    cases hstep with
    | tick hphase' =>
      rw [hphase] at hphase'
      cases hphase'
    | lastTick hphase' =>
      rw [hphase] at hphase'
      cases hphase'
    | poll _ hpoll =>
      obtain ⟨hw, interruptPending, rfl⟩ := DebugSession.poll_frame hpoll
      exact .left unpause hphase hpc hkeeps
    | pollBusy hin =>
      rw [inMonitor, hphase] at hin
      cases hin
    | _ => cases hun

theorem unheard_of_run {es : List SysEvent} (h : s.Unheard pc user)
    (hrun : Run (Step table) s es s') (hun : ∀ e ∈ es, e.Unanswered) : s'.Unheard pc user := by
  refine hrun.invariant (P := fun es s => (∀ e ∈ es, e.Unanswered) → s.Unheard pc user)
    (fun _ => h) ?_ hun
  intro es t e t' ih hstep hall
  exact (ih fun f hf => hall f (List.mem_append_left _ hf)).step hstep
    (hall e (List.mem_append_right _ (List.mem_singleton.mpr rfl)))

structure Fires (s : Sys) (ctx : DebugEventContext) (status : DebugStatusControl)
    (b : SwBreakpoint) : Prop where
  method : status.methodOfEntry = some .bkptInstr
  tracked : s.session.FiresAt ctx b

/-- No enabled software breakpoint is at the PC the program was resumed with. -/
def Progresses (s : Sys) : Prop :=
  ∀ i b, s.session.target.breaks i = some b → b.enabled = true →
    b.instrAddr ≠ s.resumed.programCounter

/-- Outside the monitor every tracked breakpoint is enabled. -/
theorem progresses_iff (h : s.session.target.toSwState.Keeps (LeftTo pc user) false)
    (hpc : s.resumed.programCounter = pc) : s.Progresses ↔ user = false := by
  refine Iff.trans ?_ h.holds
  subst hpc
  constructor
  · intro hprog i b hb
    refine hprog i b hb ?_
    rw [h.table.enabled i b hb, h.paused]
    rfl
  · exact fun habsent i b hb _ => habsent i b hb

/-- A stop at a tracked breakpoint, from its first step on. -/
theorem unheard_of_stop {n : ℕ} {keys : Finset HwKey} {lock : Bool} {addr : Addr}
    {ctx : DebugEventContext} {status : DebugStatusControl} {b : SwBreakpoint}
    (hhold : s.Holding n keys lock) (hexit : s.ExitInv addr) (hfires : s.Fires ctx status b)
    (hstep : Step table s (.stop ctx status) s') :
    s'.Unheard ctx.programCounter b.reason.user := by
  -- the breakpoint at the PC is the one that fires, whichever the stop was decided by
  have hsame : ∀ c, (s.session.signal status).FiresAt ctx c → c = b := by
    rintro c ⟨i, hi, hia⟩
    obtain ⟨j, hj, hja⟩ := hfires.tracked
    obtain rfl := hexit.keeps.table.distinct i j c b hi hj (hia.trans hja.symm)
    exact Option.some.inj (hi.symm.trans hj)
  have hkept := (SwState.internalOnly_kept table (· = addr)).step hhold hexit.keeps hstep trivial
  cases hstep with
  | @unattended _ _ session suspends hphase hbegin =>
    have hacc := DebugSession.signal_accounted hhold.accounted status
    cases DebugSession.beginEvent_result hacc hexit.keeps hexit.registered hbegin with
    | passedOver c hc huser hctx hgone =>
      obtain rfl := hsame c hc
      refine .left _ rfl (congrArg DebugEventContext.programCounter hctx)
        ⟨hkept.table, hkept.paused, ?_⟩
      exact ⟨fun _ => huser, fun _ => (SwState.absent_pause _ _ false).mpr hgone⟩
  | @attended _ _ session suspends gdb hphase hbegin =>
    have hacc := DebugSession.signal_accounted hhold.accounted status
    have hmon : s.inMonitor = false := by rw [inMonitor, hphase]
    cases DebugSession.beginEvent_result hacc hexit.keeps hexit.registered hbegin with
    | shown gdb hstatus => exact .shown gdb rfl hstatus
    | exiting gdb c hc hint hclient hstage hstatus hctx hgone hlast =>
      obtain rfl := hsame c hc
      obtain rfl := hexit.running_of_fires hmon hc hint hstage
      exact .exiting rfl hstatus (congrArg DebugEventContext.programCounter hctx)
        ⟨hkept.table, hkept.paused, hgone⟩

/-- GDB may put a breakpoint of its own at an address and let the program go on. -/
theorem exists_addSw {addr : Addr} {kind : ArmBreakpointKind} (hphase : s.phase = .monitor .idle)
    (hal : Instruction.AlignedFor kind.isThumb addr) (table : TranslationTable) :
    ∃ s' unpause sw r, Step table s (.tick (.packet [.addSwBreakpoint addr kind, .resume] .idle)
        [(.addSwBreakpoint addr kind, .accepted r.isOk), (.resume, .done)]) s' ∧
      s'.phase = .returning unpause ∧
      s'.session.stage = .active .running ∧
      s'.session.target.toSwState = sw.setBreakpointsIgnored false ∧
      s.session.target.toSwState.registerSwBreakpoint addr kind.isThumb false = .ok (sw, r) := by
  obtain ⟨sw, r, hreg⟩ := s.session.target.toSwState.exists_register false hal
  have hrun : V5Target.runCalls table [.addSwBreakpoint addr kind, .resume] s.session.target =
      .ok ({ s.session.target with toSwState := sw, monitorStatus := .resumingProgram },
        [(.addSwBreakpoint addr kind, .accepted r.isOk), (.resume, .done)]) := by
    simp only [V5Target.runCalls, V5Target.applyCall, V5Target.addSwBreakpoint, hreg, bind,
      Except.bind, pure, Except.pure]
  obtain ⟨s', unpause, hstep, hphase', hstage, hsw⟩ := exists_lastTick hphase hrun rfl
  exact ⟨s', unpause, sw, r, hstep, hphase', hstage, hsw, hreg⟩

/-- The console reports the exit in its next turn, and lets the program go. -/
theorem exists_reportExit (hphase : s.phase = .monitor .running)
    (hstatus : s.session.target.monitorStatus = .exiting) (table : TranslationTable) :
    ∃ s', Step table s (.tick .nothing []) s' ∧ s'.inMonitor = false := by
  have htick : DebugSession.tickStateMachine table .running s.session.target .nothing =
      .ok (.disconnected, { s.session.target with monitorStatus := .resumingProgram }, []) := by
    simp only [DebugSession.tickStateMachine, V5Target.gdbStopReason, hstatus, if_true]
  exact ⟨_, .lastTick hphase htick rfl, rfl⟩

/-- From any boot on, GDB can share the breakpoint at the exit function. The
program then never gets past it without GDB's help. -/
theorem exists_exit_trap {debugId : BitVec 32} {mmio : DebugLogic} {memory : CodeMemory}
    {exitFunc : Addr} {stopMotorsOnBreak : Bool} {session : DebugSession}
    (hboot : DebugSession.boot debugId mmio memory exitFunc stopMotorsOnBreak = .ok session)
    (table : TranslationTable) (kind : ArmBreakpointKind) (ctx : DebugEventContext)
    (status : DebugStatusControl)
    (hal : Instruction.AlignedFor kind.isThumb (exitFunc &&& ~~~1))
    (hpc : ctx.programCounter = exitFunc &&& ~~~1)
    (hbkpt : status.methodOfEntry = some .bkptInstr) :
    ∃ es s b s', Run (Step table) (start session) es s ∧ s.Fires ctx status b ∧
      Run (Step table) s [.stop ctx status, .tick .nothing []] s' ∧ s'.inMonitor = false ∧
      ¬ s'.Progresses := by
  have hbooted := DebugSession.booted_of_boot hboot
  have h₀ := holding_start hbooted
  have hstage : session.stage = .uninitialized := hbooted.stage
  obtain ⟨hlow, i, b₀, hb₀, ha₀, hint₀, _⟩ :=
    SwState.exists_internal_of_register hbooted.registered
  obtain ⟨s₁, gdb, hstop, hphase, _, hsw, hgdb⟩ := h₀.exists_stop rfl
    (by simp [start, hstage]) table ctx ⟨0⟩ (by decide) (by decide)
  obtain rfl := hgdb hstage
  obtain ⟨s₂, unpause, sw, r, hadd, hphase₂, hrunning, hsw₂, hreg⟩ :=
    exists_addSw hphase hal table
  have hreturn : Step table _ .return _ := .return hphase₂
  have hrun := Run.cons hstop (.cons hadd (.single hreturn))
  have hhold := holding_of_run hboot hrun
  have hexit := exitInv_of_run hboot hrun
  have htable := (exitInv_of_run hboot (.single hstop)).keeps.table
  have hb₁ : s₁.session.target.breaks i = some { b₀ with enabled := false } := by
    rw [hsw]
    exact SwState.setBreakpointsIgnored_of_some true hb₀
  obtain ⟨c, hc, hca, huser, hint⟩ := SwState.register_shared htable hlow hb₁ ha₀ hreg
  have hb₂ : s₂.session.target.breaks i = some { c with enabled := true } := by
    rw [hsw₂]
    exact SwState.setBreakpointsIgnored_of_some false hc
  have hfires : ({ s₂ with
      phase := .program, depth := s₂.depth - if unpause then 1 else 0 } : Sys).Fires ctx status
      { c with enabled := true } := ⟨hbkpt, i, hb₂, hca.trans hpc.symm⟩
  obtain ⟨session', suspends, hbegin, hstatus⟩ := DebugSession.exists_exit_event
    (s := s₂.session.signal status) (DebugSession.signal_accounted hhold.accounted status)
    hexit.keeps.table hexit.registered hfires.tracked hca (hint.trans hint₀) hbkpt hrunning
    (by decide)
  obtain ⟨s₄, hshow, hphase₄, hstatus₄⟩ : ∃ s₄, Step table { s₂ with
      phase := .program, depth := s₂.depth - if unpause then 1 else 0 } (.stop ctx status) s₄ ∧
      s₄.phase = .monitor .running ∧ s₄.session.target.monitorStatus = .exiting :=
    ⟨_, .attended rfl hbegin, rfl, hstatus⟩
  obtain ⟨s', hreport, hout⟩ := exists_reportExit hphase₄ hstatus₄ table
  refine ⟨_, _, _, s', hrun, hfires, .cons hshow (.single hreport), hout, ?_⟩
  have hunheard := (unheard_of_stop hhold hexit hfires hshow).step hreport
    (by simp [SysEvent.Unanswered])
  cases hunheard with
  | shown gdb hphase =>
    rw [inMonitor, hphase] at hout
    cases hout
  | exiting hphase =>
    rw [inMonitor, hphase] at hout
    cases hout
  | left unpause hphase hpc hkeeps =>
    rw [progresses_iff hkeeps hpc]
    simp [huser]

/-- After a return that GDB did not ask for the program gets past the breakpoint
that stopped it if and only if GDB has no breakpoint of its own there. -/
theorem unattended_resume_progresses_iff (table : TranslationTable) (debugId : BitVec 32)
    (mmio : DebugLogic) (memory : CodeMemory) (exitFunc : Addr) (stopMotorsOnBreak : Bool)
    (session : DebugSession)
    (hboot : DebugSession.boot debugId mmio memory exitFunc stopMotorsOnBreak = .ok session)
    (es : List SysEvent) (s : Sys) (hrun : Run (Step table) (start session) es s)
    (ctx : DebugEventContext) (status : DebugStatusControl) (b : SwBreakpoint)
    (hfires : s.Fires ctx status b) (rest : List SysEvent) (s' : Sys)
    (hstop : Run (Step table) s (.stop ctx status :: rest) s')
    (hun : ∀ e ∈ rest, e.Unanswered) (hout : s'.inMonitor = false) :
    s'.Progresses ↔ b.reason.user = false := by
  obtain ⟨t, hfirst, hrest⟩ := hstop.cons_inv
  have hstart := unheard_of_stop (holding_of_run hboot hrun) (exitInv_of_run hboot hrun) hfires
    hfirst
  cases unheard_of_run hstart hrest hun with
  | shown gdb hphase =>
    rw [inMonitor, hphase] at hout
    cases hout
  | exiting hphase =>
    rw [inMonitor, hphase] at hout
    cases hout
  | left unpause hphase hpc hkeeps => exact progresses_iff hkeeps hpc

/-- A breakpoint that GDB shares with the debugger, at the exit function of a
processor with one hardware breakpoint. -/
theorem unattended_resume_progresses_iff_shared :
    ∃ (session : DebugSession) (es : List SysEvent) (s : Sys) (b : SwBreakpoint) (s' : Sys),
      DebugSession.boot 0 DebugSession.clearedLogic ⟨fun _ => 0, fun _ => 0⟩ 0x03800000 false =
        .ok session ∧
      Run (Step ⟨fun _ => ⟨0⟩⟩) (start session) es s ∧
      s.Fires ⟨⟨0⟩, 0, 0, 0, fun _ => 0, fun _ => 0, 0x03800000⟩ ⟨0x0c⟩ b ∧
      s'.inMonitor = false ∧ (s'.Progresses ↔ b.reason.user = false) := by
  obtain ⟨session, hboot⟩ := DebugSession.exists_boot_one_slot
  obtain ⟨es, s, b, s', hrun, hfires, hstop, hout, _⟩ := exists_exit_trap hboot ⟨fun _ => ⟨0⟩⟩
    .arm32 ⟨⟨0⟩, 0, 0, 0, fun _ => 0, fun _ => 0, 0x03800000⟩ ⟨0x0c⟩ (by decide) (by decide)
    (by decide)
  exact ⟨session, es, s, b, s', hboot, hrun, hfires, hout,
    unattended_resume_progresses_iff _ _ _ _ _ _ _ hboot es s hrun _ _ b hfires _ s' hstop
      (by simp [SysEvent.Unanswered]) hout⟩

/-- The program exits with a client attached that has a breakpoint at the exit
function: the stop ends without GDB, and the program traps there again. -/
theorem exit_function_traps_again :
    ∃ (session : DebugSession) (es : List SysEvent) (s : Sys) (b : SwBreakpoint) (s' : Sys),
      DebugSession.boot 0 DebugSession.clearedLogic ⟨fun _ => 0, fun _ => 0⟩ 0x03800000 false =
        .ok session ∧
      Run (Step ⟨fun _ => ⟨0⟩⟩) (start session) es s ∧
      s.Fires ⟨⟨0⟩, 0, 0, 0, fun _ => 0, fun _ => 0, 0x03800000⟩ ⟨0x0c⟩ b ∧
      Run (Step ⟨fun _ => ⟨0⟩⟩) s
        [.stop ⟨⟨0⟩, 0, 0, 0, fun _ => 0, fun _ => 0, 0x03800000⟩ ⟨0x0c⟩, .tick .nothing []] s' ∧
      s'.inMonitor = false ∧ ¬ s'.Progresses := by
  obtain ⟨session, hboot⟩ := DebugSession.exists_boot_one_slot
  obtain ⟨es, s, b, s', hrun, hfires, hstop, hout, htrap⟩ := exists_exit_trap hboot
    ⟨fun _ => ⟨0⟩⟩ .arm32 ⟨⟨0⟩, 0, 0, 0, fun _ => 0, fun _ => 0, 0x03800000⟩ ⟨0x0c⟩
    (by decide) (by decide) (by decide)
  exact ⟨session, es, s, b, s', hboot, hrun, hfires, hstop, hout, htrap⟩

end Sys
end V5gdb
