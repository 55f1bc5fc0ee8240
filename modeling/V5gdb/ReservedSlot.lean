import V5gdb.StepAndHalt

/-!
The hardware breakpoint that is kept in reserve.
GDB never gets the last slot, so a step or a halt always finds one, and nothing
that is done to the hardware breakpoints panics: the debug registers are
unlocked where they are changed, and locked again afterwards.
-/
namespace V5gdb

open RecordLayouts Transitions

def Panic.FromHardware : Panic → Bool
  | registersLocked => true
  | slotUnderflow => true
  | unwrapFailed _ => true
  | singleStepSetup _ => true
  | _ => false

namespace HwBreakpointManager

variable {m : HwBreakpointManager} {user : Finset HwKey}

instance (m : HwBreakpointManager) (specificity : Specificity) (i : Fin 16) :
    Decidable (m.EnabledAs specificity i) :=
  decidable_of_iff (i.val < m.capabilities.numBreakpoints ∧
      (m.mmio.breakpointCtrl i).enabled = true ∧
      (m.mmio.breakpointCtrl i).breakpointType = some specificity.breakpointType)
    ⟨fun ⟨h, h', h''⟩ => ⟨h, h', h''⟩, fun ⟨h, h', h''⟩ => ⟨h, h', h''⟩⟩

def matchSlots (m : HwBreakpointManager) : Finset (Fin 16) :=
  Finset.univ.filter (m.EnabledAs .matching)

theorem MatchesOnly.card_matchSlots_le (h : m.MatchesOnly user) :
    m.matchSlots.card ≤ user.card := by
  have hkey : ∀ i ∈ m.matchSlots, ∃ k ∈ user, m.SlotOf k i := fun i hi =>
    h.enabled i (Finset.mem_filter.mp hi).2
  have : Nonempty HwKey := ⟨sentinelKey⟩
  choose! key hkey using hkey
  refine Finset.card_le_card_of_injOn key (fun i hi => (hkey i hi).1) ?_
  intro i hi j hj hij
  obtain ⟨hmem, hslot⟩ := hkey i hi
  have hslot' := (hkey j hj).2
  rw [← hij] at hslot'
  exact (h.placed _ hmem).unique hslot hslot'

end HwBreakpointManager

namespace DebugSession

variable {n : ℕ} {user : Finset HwKey} {lock : Bool} {s s' : DebugSession} {e : Panic}
  {table : TranslationTable}

theorem handleStop_error {reason : StopReason} (h : s.handleStop reason = .error e) :
    e = .bkptDeleted := by
  unfold handleStop at h
  split at h
  · split at h
    · exact (Except.error.inj h).symm
    · cases h
  · cases h

theorem openConsole_error (h : s.openConsole = .error e) : e = .transitioning := by
  unfold openConsole at h
  split at h
  · cases h
  · cases h
  · exact (Except.error.inj h).symm

/-- An entry never panics over the hardware breakpoints. -/
theorem beginEvent_error {ctx : DebugEventContext} (h : s.target.Accounted n user)
    (hbegin : s.beginEvent ctx = .error e) : e.FromHardware = false := by
  rcases Exec.bind_error.mp hbegin with henter | ⟨⟨t, suspends⟩, _, hbegin⟩
  · rcases V5Target.enterBreakpoint_cases h ctx with ⟨_, herr, _⟩ | ⟨hw, ctx', hok, _⟩
    · rw [herr] at henter
      obtain rfl := Except.error.inj henter
      rfl
    · rw [hok] at henter
      cases henter
  · rcases Exec.bind_error.mp hbegin with hstop | ⟨⟨s₁, action⟩, _, hbegin⟩
    · rw [handleStop_error hstop]
      rfl
    · cases action with
      | resume => cases hbegin
      | enterMonitor =>
        rcases Exec.bind_error.mp hbegin with hopen | ⟨⟨gdb, s₂⟩, _, hbegin⟩
        · rw [openConsole_error hopen]
          rfl
        · cases hbegin

/-- A turn of the console's loop that panics does so in one callback of a packet,
which was not refused the hardware it needs. -/
theorem tick_error {gdb : GdbState} {t : V5Target} {input : GdbInput} (h : t.Ready n user lock)
    (htick : tickStateMachine table gdb t input = .error e) :
    ∃ calls next before c after t' replies, input = .packet calls next ∧
      calls = before ++ c :: after ∧ V5Target.runCalls table before t = .ok (t', replies) ∧
      t'.applyCall table c = .error e ∧ t'.CallPanic e := by
  cases gdb with
  | idle =>
    cases input with
    | nothing => cases htick
    | packet calls next =>
      rcases Exec.bind_error.mp htick with hrun | ⟨⟨t', replies⟩, _, htick⟩
      · obtain ⟨before, c, after, t', replies, hcalls, hcut⟩ := V5Target.runCalls_error h hrun
        exact ⟨calls, next, before, c, after, t', replies, rfl, hcalls, hcut⟩
      · cases htick
  | running =>
    simp only [tickStateMachine] at htick
    split_ifs at htick
  | ctrlCInterrupt => cases htick
  | disconnected =>
    simp only [tickStateMachine] at htick
    split_ifs at htick

end DebugSession

namespace Sys

variable {s : Sys} {table : TranslationTable}

/-- One of `n` slots is in reserve, and the lock is as `lock` outside the monitor. -/
structure Reserved (table : TranslationTable) (n : ℕ) (lock : Bool) (s : Sys) : Prop where
  matching : s.session.target.hwManager.matchSlots.card + 1 ≤ n
  step : s.inMonitor = true → s.session.target.PcAligned →
    ∃ t, s.session.target.requestSingleStep = .ok (t, .ok ())
  halt : s.inMonitor = false → ∃ t, s.session.target.requestInterrupt = .ok t
  poll : s.inMonitor = false → ∀ pending, ∃ session, s.session.poll pending = .ok session ∧
    session.target.hwManager.locked = s.session.target.hwManager.locked
  stop : s.inMonitor = false → ∀ status ctx e,
    (s.session.signal status).beginEvent ctx = .error e → e.FromHardware = false
  /-- What a packet may panic over: a step at a misaligned PC at most. -/
  packet : ∀ gdb, s.phase = .monitor gdb → ∀ input e,
    DebugSession.tickStateMachine table gdb s.session.target input = .error e →
      ∃ calls next before c after t replies, input = .packet calls next ∧
        calls = before ++ c :: after ∧
        V5Target.runCalls table before s.session.target = .ok (t, replies) ∧
        t.applyCall table c = .error e ∧ t.CallPanic e
  unlocked : s.inMonitor = true → s.session.target.hwManager.locked = false
  locked : s.inMonitor = false → s.session.target.hwManager.locked = lock

theorem Holding.reserved {n : ℕ} {user : Finset HwKey} {lock : Bool} (h : s.Holding n user lock)
    (table : TranslationTable) : s.Reserved table n lock where
  matching := by
    have hmatch := h.accounted.matchesOnly.card_matchSlots_le
    have hreserve := h.accounted.reserve
    omega
  step := by
    intro hmon hpc
    rcases V5Target.requestSingleStep_cases (h.stopped hmon) with ⟨hmis, _⟩ | ⟨t, hstep, _⟩
    · exact absurd hpc hmis
    · exact ⟨t, hstep⟩
  halt := by
    intro _
    obtain ⟨t, hreq, _⟩ := V5Target.requestInterrupt_spec h.accounted
    exact ⟨t, hreq⟩
  poll := by
    intro _ pending
    obtain ⟨session, hpoll, _, hlock, _⟩ := DebugSession.poll_spec h.accounted pending
    exact ⟨session, hpoll, hlock⟩
  stop := fun _ status _ _ herr =>
    DebugSession.beginEvent_error (DebugSession.signal_accounted h.accounted status) herr
  packet := by
    intro gdb hphase input e htick
    exact DebugSession.tick_error (h.stopped (by rw [inMonitor, hphase])) htick
  unlocked := fun hmon => (h.stopped hmon).unlocked
  locked := h.running

/-- In every state that a booted session reaches a slot is free for a step or a
halt, no hardware breakpoint is changed behind the lock, and the lock is as it was
after the boot whenever the monitor is not running. -/
theorem slot_always_reserved (table : TranslationTable) (debugId : BitVec 32) (mmio : DebugLogic)
    (memory : CodeMemory) (exitFunc : Addr) (stopMotorsOnBreak : Bool) (session : DebugSession)
    (hboot : DebugSession.boot debugId mmio memory exitFunc stopMotorsOnBreak = .ok session)
    (es : List SysEvent) (s : Sys) (hrun : Run (Step table) (start session) es s) :
    s.Reserved table (HardwareCapabilities.ofDebugId debugId).numBreakpoints
      session.target.hwManager.locked := by
  have hlock := (holding_start (DebugSession.booted_of_boot hboot)).running rfl
  rw [show session.target.hwManager.locked = true from hlock]
  exact (holding_of_run hboot hrun).reserved table

/-- The single slot of the smallest processor, handed from a step to a halt. -/
theorem slot_always_reserved_one_slot :
    ∃ session es s, DebugSession.boot 0 DebugSession.clearedLogic ⟨fun _ => 0, fun _ => 0⟩
        0x03800000 false = .ok session ∧
      Run (Step ⟨fun _ => ⟨0⟩⟩) (start session) es s ∧
      s.session.target.trapAddr = some ASYNC_HALT_SENTINEL ∧
      s.Reserved ⟨fun _ => ⟨0⟩⟩ (HardwareCapabilities.ofDebugId 0).numBreakpoints
        session.target.hwManager.locked := by
  obtain ⟨session, hboot⟩ := DebugSession.exists_boot_one_slot
  obtain ⟨s, hrun, htrap⟩ := exists_stepped_halt hboot ⟨fun _ => ⟨0⟩⟩
    ⟨⟨0⟩, 0, 0, 0, fun _ => 0, fun _ => 0, 0x03900000⟩ ⟨0⟩ (by decide) (by decide)
    (by decide)
  exact ⟨session, _, s, hboot, hrun, htrap,
    slot_always_reserved _ _ _ _ _ _ _ hboot _ s hrun⟩

end Sys
end V5gdb
