import V5gdb.StepAndHalt

/-!
The scheduler's suspensions.
An entry suspends the scheduler unless a step is being completed, and the return
resumes it unless a step is being started. The two decisions are taken at
different times and from a request that changes in between.
-/
namespace V5gdb.Sys

open RecordLayouts Transitions

variable {n : ℕ} {user : Finset HwKey} {lock : Bool} {s s' : Sys} {table : TranslationTable}

structure Balanced (s : Sys) : Prop where
  program : s.phase = .program →
    s.depth = if s.session.target.singleStepRequest.isSome then 1 else 0
  monitor : ∀ gdb, s.phase = .monitor gdb → s.depth = 1
  returning : ∀ unpause, s.phase = .returning unpause →
    s.depth = 1 ∧ unpause = s.session.target.singleStepRequest.isNone

/-- From the entry on the depth is one. -/
theorem Balanced.suspend (h : s.Balanced) (hphase : s.phase = .program) :
    (s.suspend s.session.target.singleStepRequest.isNone).depth = 1 := by
  have hdepth := h.program hphase
  cases hreq : s.session.target.singleStepRequest with
  | none =>
    rw [hreq] at hdepth
    simp [Sys.suspend, hdepth]
  | some r =>
    rw [hreq] at hdepth
    simp [Sys.suspend, hdepth]

theorem balanced_leave {session : DebugSession} (h : s.depth = 1) :
    (s.leave session).Balanced where
  program := nofun
  monitor := nofun
  returning := by
    intro unpause hphase
    exact ⟨h, (Phase.returning.inj hphase).symm⟩

theorem balanced_monitor {gdb : GdbState} (hphase : s.phase = .monitor gdb) (h : s.depth = 1) :
    s.Balanced where
  program := by
    intro hprogram
    rw [hphase] at hprogram
    cases hprogram
  monitor := fun _ _ => h
  returning := by
    intro unpause hreturning
    rw [hphase] at hreturning
    cases hreturning

theorem Balanced.congr (h : s.Balanced) (hphase : s'.phase = s.phase)
    (hdepth : s'.depth = s.depth)
    (hreq : s'.session.target.singleStepRequest = s.session.target.singleStepRequest) :
    s'.Balanced where
  program := by
    rw [hphase, hdepth, hreq]
    exact h.program
  monitor := by
    rw [hphase, hdepth]
    exact h.monitor
  returning := by
    rw [hphase, hdepth, hreq]
    exact h.returning

theorem Balanced.step {e : SysEvent} (h : s.Balanced) (hhold : s.Holding n user lock)
    (hstep : Step table s e s') : s'.Balanced := by
  cases hstep with
  | unattended hphase hbegin =>
    obtain ⟨_, _, rfl⟩ :=
      DebugSession.beginEvent_ready (DebugSession.signal_accounted hhold.accounted _) hbegin
    exact balanced_leave (h.suspend hphase)
  | attended hphase hbegin =>
    obtain ⟨_, _, rfl⟩ :=
      DebugSession.beginEvent_ready (DebugSession.signal_accounted hhold.accounted _) hbegin
    exact balanced_monitor rfl (h.suspend hphase)
  | tick hphase => exact balanced_monitor rfl (h.monitor _ hphase)
  | lastTick hphase => exact balanced_leave (h.monitor _ hphase)
  | «return» hphase =>
    obtain ⟨hdepth, rfl⟩ := h.returning _ hphase
    refine ⟨fun _ => ?_, nofun, nofun⟩
    cases hreq : s.session.target.singleStepRequest <;> simp [hdepth]
  | poll hphase hpoll =>
    obtain ⟨session, hok, _, _, hreq⟩ := DebugSession.poll_spec hhold.accounted _
    rw [hok] at hpoll
    obtain rfl := Except.ok.inj hpoll
    exact h.congr rfl rfl hreq
  | pollBusy => exact h
  | run hphase => exact h.congr rfl rfl rfl

theorem balanced_start {session : DebugSession} (h : session.target.singleStepRequest = none) :
    (start session).Balanced where
  program := by
    intro _
    simp [start, h]
  monitor := nofun
  returning := nofun

/-- How often the scheduler is suspended: once during a stop, and otherwise only
while a step is being executed. -/
structure DepthInOrder (s : Sys) : Prop where
  program : s.phase = .program →
    s.depth = if s.session.target.singleStepRequest.isSome then 1 else 0
  entered : s.phase = .program → ∀ status ctx t suspends,
    (s.session.signal status).target.enterBreakpoint ctx = .ok (t, suspends) →
      (s.suspend suspends).depth = 1
  stopped : s.phase ≠ .program → s.depth = 1
  bounds : 0 ≤ s.depth ∧ s.depth ≤ 1

theorem Balanced.depthInOrder (h : s.Balanced) (hhold : s.Holding n user lock) :
    s.DepthInOrder where
  program := h.program
  entered := by
    intro hphase status ctx t suspends henter
    obtain ⟨_, _, rfl⟩ := V5Target.enterBreakpoint_ready
      (DebugSession.signal_accounted hhold.accounted status) henter
    exact h.suspend hphase
  stopped := by
    intro hphase
    cases hs : s.phase with
    | program => exact absurd hs hphase
    | monitor gdb => exact h.monitor gdb hs
    | returning unpause => exact (h.returning unpause hs).1
  bounds := by
    cases hs : s.phase with
    | program =>
      rw [h.program hs]
      split_ifs <;> omega
    | monitor gdb =>
      have hdepth := h.monitor gdb hs
      omega
    | returning unpause =>
      have hdepth := (h.returning unpause hs).1
      omega

/-- In every state that a booted session reaches the scheduler's suspensions are balanced. -/
theorem suspension_balanced (table : TranslationTable) (debugId : BitVec 32) (mmio : DebugLogic)
    (memory : CodeMemory) (exitFunc : Addr) (stopMotorsOnBreak : Bool) (session : DebugSession)
    (hboot : DebugSession.boot debugId mmio memory exitFunc stopMotorsOnBreak = .ok session)
    (es : List SysEvent) (s : Sys) (hrun : Run (Step table) (start session) es s) :
    s.DepthInOrder := by
  have hbooted := DebugSession.booted_of_boot hboot
  have hinv := hrun.invariant
    (P := fun es s => s.Holding (HardwareCapabilities.ofDebugId debugId).numBreakpoints
      (userKeys es) true ∧ s.Balanced)
    ⟨holding_start hbooted, balanced_start hbooted.request⟩ (by
      intro es t e t' ⟨hhold, hbal⟩ hstep
      rw [userKeys_append]
      exact ⟨hhold.step hstep, hbal.step hhold hstep⟩)
  exact hinv.2.depthInOrder hinv.1

/-- A step that is overtaken by a halt runs with the scheduler suspended. -/
theorem suspension_balanced_one_slot :
    ∃ session es s, DebugSession.boot 0 DebugSession.clearedLogic ⟨fun _ => 0, fun _ => 0⟩
        0x03800000 false = .ok session ∧
      Run (Step ⟨fun _ => ⟨0⟩⟩) (start session) es s ∧
      s.session.target.trapAddr = some ASYNC_HALT_SENTINEL ∧ s.DepthInOrder := by
  obtain ⟨session, hboot⟩ := DebugSession.exists_boot_one_slot
  obtain ⟨s, hrun, htrap⟩ := exists_stepped_halt hboot ⟨fun _ => ⟨0⟩⟩
    ⟨⟨0⟩, 0, 0, 0, fun _ => 0, fun _ => 0, 0x03900000⟩ ⟨0⟩ (by decide) (by decide)
    (by decide)
  exact ⟨session, _, s, hboot, hrun, htrap,
    suspension_balanced _ _ _ _ _ _ _ hboot _ s hrun⟩

end V5gdb.Sys
