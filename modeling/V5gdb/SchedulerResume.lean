import V5gdb.SchedulerBalance

/-!
The return path of a debug event, with interrupts.
The session's lock is given up before interrupts are masked, and only then is the
scheduler resumed. In between the interrupt handler still polls, at its own rate,
and may arm a halt that the decision to resume knows nothing of.
-/
namespace V5gdb

open RecordLayouts Transitions

def IRQ_POLL_INTERVAL_MS : ℕ := 10

/-- The system together with what the interrupt handler and the restore code add. -/
structure HookedSys where
  sys : Sys
  lastPollTimeMs : BitVec 32
  /-- The restore code has executed `cpsid i`. -/
  masked : Bool

inductive HookedEvent
  | sys (e : SysEvent)
  | irq (now : BitVec 32) (pending : Bytes)
  | cpsid
  /-- `xTaskResumeAll` if it is due, and the exception return. -/
  | finish

def SysEvent.isHooked : SysEvent → Bool
  | poll _ => true
  | «return» => true
  | _ => false

namespace HookedSys

def pollIsDue (s : HookedSys) (now : BitVec 32) : Prop :=
  IRQ_POLL_INTERVAL_MS ≤ (now - s.lastPollTimeMs).toNat

inductive Step (table : TranslationTable) : HookedSys → HookedEvent → HookedSys → Prop
  | sys {s : HookedSys} {e : SysEvent} {sys : Sys} (hopen : s.masked = false)
      (hhooked : e.isHooked = false) (hstep : Sys.Step table s.sys e sys) :
      Step table s (.sys e) { s with sys }
  | skip {s : HookedSys} {now : BitVec 32} {pending : Bytes} (hopen : s.masked = false)
      (hsoon : ¬ s.pollIsDue now) : Step table s (.irq now pending) s
  | poll {s : HookedSys} {now : BitVec 32} {pending : Bytes} {sys : Sys}
      (hopen : s.masked = false) (hdue : s.pollIsDue now)
      (hstep : Sys.Step table s.sys (.poll pending) sys) :
      Step table s (.irq now pending) { s with sys, lastPollTimeMs := now }
  | cpsid {s : HookedSys} {unpause : Bool} (hopen : s.masked = false)
      (hphase : s.sys.phase = .returning unpause) : Step table s .cpsid { s with masked := true }
  | finish {s : HookedSys} {sys : Sys} (hmasked : s.masked = true)
      (hstep : Sys.Step table s.sys .return sys) :
      Step table s .finish { s with sys, masked := false }

def start (session : DebugSession) : HookedSys :=
  { sys := Sys.start session, lastPollTimeMs := 0, masked := false }

def AtResume (s : HookedSys) : Prop := s.masked = true ∧ s.sys.phase = .returning true

/-- If the scheduler is about to be resumed then no mismatching breakpoint is enabled. -/
def ResumesUntrapped (s : HookedSys) : Prop :=
  s.AtResume → ∀ i, ¬ s.sys.session.target.hwManager.EnabledAs .mismatching i

/-- A Ctrl-C that is seen after the decision to resume the scheduler. -/
def InterruptsReturn (s : HookedSys) : HookedEvent → Prop
  | .irq now pending => s.sys.phase = .returning true ∧
      s.sys.session.stage = .active .running ∧ s.pollIsDue now ∧ DebugSession.CTRL_C ∈ pending
  | _ => False

def QuietStep (table : TranslationTable) (s : HookedSys) (e : HookedEvent) (s' : HookedSys) :
    Prop :=
  Step table s e s' ∧ ¬ s.InterruptsReturn e

end HookedSys

namespace DebugSession

variable {n : ℕ} {user : Finset HwKey} {s s' : DebugSession} {pending : Bytes}

/-- A Ctrl-C that is seen while GDB takes the program to be running arms a halt. -/
theorem poll_arms (h : s.target.Accounted n user) (hstage : s.stage = .active .running)
    (hctrl : CTRL_C ∈ pending) (hpoll : s.poll pending = .ok s') :
    s'.target.interruptPending = true := by
  obtain ⟨t, hreq, _, _, _, harmed⟩ := V5Target.requestInterrupt_spec h
  rw [poll, if_pos hstage, if_pos hctrl, hreq] at hpoll
  obtain rfl := Except.ok.inj hpoll
  exact harmed

theorem poll_quiet (hnot : ¬ (s.stage = .active .running ∧ CTRL_C ∈ pending))
    (hpoll : s.poll pending = .ok s') : s' = s := by
  rw [poll] at hpoll
  split_ifs at hpoll with hstage hctrl
  · exact absurd ⟨hstage, hctrl⟩ hnot
  · exact (Except.ok.inj hpoll).symm
  · exact (Except.ok.inj hpoll).symm

end DebugSession

namespace Sys

variable {n : ℕ} {user : Finset HwKey} {lock : Bool} {s s' : Sys} {table : TranslationTable}

/-- No halt is armed when the lock is given up. -/
theorem Holding.pending_of_leave {e : SysEvent} (h : s.Holding n user lock)
    (hstep : Step table s e s') (he : e.isHooked = false) {unpause : Bool}
    (hphase' : s'.phase = .returning unpause) :
    s'.session.target.interruptPending = false := by
  cases hstep with
  | unattended hphase hbegin =>
    obtain ⟨hready, _⟩ :=
      DebugSession.beginEvent_ready (DebugSession.signal_accounted h.accounted _) hbegin
    exact hready.pending
  | attended => cases hphase'
  | tick => cases hphase'
  | lastTick hphase htick hresume =>
    exact (DebugSession.tick_ready (h.stopped (by rw [inMonitor, hphase])) htick).pending
  | «return» | poll | pollBusy => cases he
  | run hphase =>
    rw [show s.phase = _ from hphase'] at hphase
    cases hphase

end Sys

namespace HookedSys

variable {n : ℕ} {s s' s'' : HookedSys} {table : TranslationTable} {e : HookedEvent}

/-- What holds in every state unless a Ctrl-C interrupts a return. -/
structure Undisturbed (n : ℕ) (s : HookedSys) : Prop where
  holding : ∃ user, s.sys.Holding n user true
  balanced : s.sys.Balanced
  pending : s.sys.phase = .returning true → s.sys.session.target.interruptPending = false

theorem Undisturbed.step (h : s.Undisturbed n) (hstep : QuietStep table s e s') :
    s'.Undisturbed n := by
  obtain ⟨hstep, hquiet⟩ := hstep
  obtain ⟨user, hhold⟩ := h.holding
  cases hstep with
  | sys _ hhooked hstep =>
    exact ⟨⟨_, hhold.step hstep⟩, h.balanced.step hhold hstep,
      fun hphase => hhold.pending_of_leave hstep hhooked hphase⟩
  | skip => exact h
  | poll _ hdue hstep =>
    refine ⟨⟨_, hhold.step hstep⟩, h.balanced.step hhold hstep, ?_⟩
    intro hphase
    cases hstep with
    | poll _ hpoll =>
      have hnot : ¬ (s.sys.session.stage = .active .running ∧ DebugSession.CTRL_C ∈ _) :=
        fun hseen => hquiet ⟨hphase, hseen.1, hdue, hseen.2⟩
      obtain rfl := DebugSession.poll_quiet hnot hpoll
      exact h.pending hphase
    | pollBusy hin =>
      rw [Sys.inMonitor, show s.sys.phase = _ from hphase] at hin
      cases hin
  | cpsid => exact ⟨⟨user, hhold⟩, h.balanced, h.pending⟩
  | finish _ hstep =>
    refine ⟨⟨_, hhold.step hstep⟩, h.balanced.step hhold hstep, ?_⟩
    intro hphase
    cases hstep
    cases hphase

theorem Undisturbed.untrapped (h : s.Undisturbed n) : s.ResumesUntrapped := by
  rintro ⟨_, hphase⟩
  obtain ⟨user, hhold⟩ := h.holding
  have hrequest : s.sys.session.target.singleStepRequest = none := by
    have hunpause := (h.balanced.returning true hphase).2
    exact Option.isNone_iff_eq_none.mp hunpause.symm
  have htrap := hhold.accounted.trapsAt
  have hnone : s.sys.session.target.trapAddr = none := by
    simp [V5Target.trapAddr, h.pending hphase, hrequest]
  rw [hnone] at htrap
  exact htrap

/-- After a Ctrl-C that interrupts the return the scheduler is resumed with the
halt armed. -/
theorem Undisturbed.trapped (h : s.Undisturbed n) (hstep : Step table s e s')
    (hlate : s.InterruptsReturn e) :
    ∃ s'', Step table s' .cpsid s'' ∧ ¬ s''.ResumesUntrapped := by
  obtain ⟨user, hhold⟩ := h.holding
  cases hstep with
  | skip _ hsoon => exact absurd hlate.2.2.1 hsoon
  | poll hopen hdue hstep =>
    obtain ⟨hphase, hstage, _, hctrl⟩ := hlate
    have hhold' := hhold.step hstep
    cases hstep with
    | poll hout hpoll =>
      have harmed := DebugSession.poll_arms hhold.accounted hstage hctrl hpoll
      refine ⟨_, .cpsid hopen hphase, ?_⟩
      intro huntrapped
      have htrap := hhold'.accounted.trapsAt
      rw [V5Target.trapAddr, if_pos harmed] at htrap
      obtain ⟨k, i, _, hspec, hslot, _⟩ := htrap
      have henabled := hslot.enabledAs
      rw [hspec] at henabled
      exact huntrapped ⟨rfl, hphase⟩ i henabled
    | pollBusy hin =>
      rw [Sys.inMonitor, hphase] at hin
      cases hin
  | _ => cases hlate

theorem undisturbed_start {debugId : BitVec 32} {mmio : DebugLogic} {memory : CodeMemory}
    {exitFunc : Addr} {session : DebugSession}
    (h : session.Booted debugId mmio memory exitFunc) :
    (start session).Undisturbed (HardwareCapabilities.ofDebugId debugId).numBreakpoints where
  holding := ⟨∅, Sys.holding_start h⟩
  balanced := Sys.balanced_start h.request
  pending := fun hphase => by cases hphase

theorem undisturbed_of_run {debugId : BitVec 32} {mmio : DebugLogic} {memory : CodeMemory}
    {exitFunc : Addr} {stopMotorsOnBreak : Bool} {session : DebugSession}
    {es : List HookedEvent}
    (hboot : DebugSession.boot debugId mmio memory exitFunc stopMotorsOnBreak = .ok session)
    (hrun : Run (QuietStep table) (start session) es s) :
    s.Undisturbed (HardwareCapabilities.ofDebugId debugId).numBreakpoints :=
  hrun.invariant
    (P := fun _ s => s.Undisturbed (HardwareCapabilities.ofDebugId debugId).numBreakpoints)
    (undisturbed_start (DebugSession.booted_of_boot hboot))
    (fun _ _ _ _ h hstep => h.step hstep)

/-- In every run in which no Ctrl-C interrupts a return, the scheduler is resumed
without a trap; the first one that does leads to a resume with a trap. -/
theorem resumed_untrapped (table : TranslationTable) (debugId : BitVec 32) (mmio : DebugLogic)
    (memory : CodeMemory) (exitFunc : Addr) (stopMotorsOnBreak : Bool) (session : DebugSession)
    (hboot : DebugSession.boot debugId mmio memory exitFunc stopMotorsOnBreak = .ok session)
    (es : List HookedEvent) (s : HookedSys) (hrun : Run (QuietStep table) (start session) es s) :
    s.ResumesUntrapped ∧ ∀ e s', Step table s e s' → s.InterruptsReturn e →
      ∃ s'', Step table s' .cpsid s'' ∧ ¬ s''.ResumesUntrapped := by
  have hinv := undisturbed_of_run hboot hrun
  exact ⟨hinv.untrapped, fun e s' hstep hlate => hinv.trapped hstep hlate⟩

/-- From any boot on GDB can resume the program after its first stop. -/
theorem exists_resumed {debugId : BitVec 32} {mmio : DebugLogic} {memory : CodeMemory}
    {exitFunc : Addr} {stopMotorsOnBreak : Bool} {session : DebugSession}
    (hboot : DebugSession.boot debugId mmio memory exitFunc stopMotorsOnBreak = .ok session)
    (table : TranslationTable) (ctx : DebugEventContext) (status : DebugStatusControl)
    (hbreak : status.methodOfEntry ≠ some .breakpoint)
    (hbkpt : status.methodOfEntry ≠ some .bkptInstr) :
    ∃ s, Run (QuietStep table) (start session) [.sys (.stop ctx status),
        .sys (.tick (.packet [.resume] .idle) [(.resume, .done)])] s ∧
      s.lastPollTimeMs = 0 ∧ s.masked = false ∧ s.sys.phase = .returning true ∧
      s.sys.session.stage = .active .running := by
  have hbooted := DebugSession.booted_of_boot hboot
  have hacc := DebugSession.signal_accounted (Sys.holding_start hbooted).accounted status
  obtain ⟨session₁, gdb, hbegin, _, _, hgdb⟩ := DebugSession.exists_beginEvent hacc
    (by simp [Sys.start, DebugSession.signal, hbooted.stage]) ctx
    (DebugSession.prepareEntry_other hbreak hbkpt)
  obtain rfl := hgdb hbooted.stage
  obtain ⟨_, hrequest, _⟩ := DebugSession.beginEvent_ready hacc hbegin
  obtain ⟨s₁, hs₁⟩ : ∃ s₁, s₁ = { (Sys.start session).suspend
      (session.signal status).target.singleStepRequest.isNone with
        session := session₁, phase := .monitor .idle } := ⟨_, rfl⟩
  have hstop : Sys.Step table (Sys.start session) (.stop ctx status) s₁ := by
    rw [hs₁]
    exact .attended rfl hbegin
  have hcalls : V5Target.runCalls table [.resume] session₁.target =
      .ok ({ session₁.target with monitorStatus := .resumingProgram }, [(.resume, .done)]) := rfl
  have htick : Sys.Step table s₁ (.tick (.packet [.resume] .idle) [(.resume, .done)])
      (s₁.leave { session₁ with
        target := { session₁.target with monitorStatus := .resumingProgram }
        stage := .active .running }) := by
    rw [hs₁]
    exact .lastTick rfl (DebugSession.tick_packet hcalls) rfl
  refine ⟨_, Run.cons ⟨.sys rfl rfl hstop, fun h => by cases h⟩
    (Run.single ⟨.sys rfl rfl htick, fun h => by cases h⟩), rfl, rfl, ?_, rfl⟩
  show Phase.returning session₁.target.singleStepRequest.isNone = _
  rw [hrequest]
  rfl

/-- A Ctrl-C that comes once the interrupts are masked is seen only later. -/
theorem resumed_untrapped_one_slot :
    ∃ session s s', DebugSession.boot 0 DebugSession.clearedLogic ⟨fun _ => 0, fun _ => 0⟩
        0x03800000 false = .ok session ∧
      Run (QuietStep ⟨fun _ => ⟨0⟩⟩) (start session) [.sys (.stop
        ⟨⟨0⟩, 0, 0, 0, fun _ => 0, fun _ => 0, 0x03900000⟩ ⟨0⟩),
        .sys (.tick (.packet [.resume] .idle) [(.resume, .done)])] s ∧
      Step ⟨fun _ => ⟨0⟩⟩ s .cpsid s' ∧ s'.AtResume ∧ s'.ResumesUntrapped := by
  obtain ⟨session, hboot⟩ := DebugSession.exists_boot_one_slot
  obtain ⟨s, hrun, _, hopen, hphase, _⟩ := exists_resumed hboot ⟨fun _ => ⟨0⟩⟩
    ⟨⟨0⟩, 0, 0, 0, fun _ => 0, fun _ => 0, 0x03900000⟩ ⟨0⟩ (by decide) (by decide)
  have hmask : Step ⟨fun _ => ⟨0⟩⟩ s .cpsid { s with masked := true } := .cpsid hopen hphase
  exact ⟨session, s, _, hboot, hrun, hmask, ⟨rfl, hphase⟩,
    (resumed_untrapped _ _ _ _ _ _ _ hboot _ _
      (hrun.snoc ⟨hmask, fun h => by cases h⟩)).1⟩

/-- A Ctrl-C one second after the boot, between the release of the lock and the
masking of interrupts: the scheduler is resumed with the halt armed. -/
theorem resumed_with_halt_armed :
    ∃ session s, DebugSession.boot 0 DebugSession.clearedLogic ⟨fun _ => 0, fun _ => 0⟩
        0x03800000 false = .ok session ∧
      Run (Step ⟨fun _ => ⟨0⟩⟩) (start session) [.sys (.stop
        ⟨⟨0⟩, 0, 0, 0, fun _ => 0, fun _ => 0, 0x03900000⟩ ⟨0⟩),
        .sys (.tick (.packet [.resume] .idle) [(.resume, .done)]),
        .irq 1000 [DebugSession.CTRL_C], .cpsid] s ∧ ¬ s.ResumesUntrapped := by
  obtain ⟨session, hboot⟩ := DebugSession.exists_boot_one_slot
  obtain ⟨s, hrun, hlast, hopen, hphase, hstage⟩ := exists_resumed hboot ⟨fun _ => ⟨0⟩⟩
    ⟨⟨0⟩, 0, 0, 0, fun _ => 0, fun _ => 0, 0x03900000⟩ ⟨0⟩ (by decide) (by decide)
  have hinv := undisturbed_of_run hboot hrun
  obtain ⟨user, hhold⟩ := hinv.holding
  have hdue : s.pollIsDue 1000 := by
    rw [pollIsDue, hlast]
    decide
  obtain ⟨sys, hpoll, _⟩ := hhold.exists_halt
    (by rw [Sys.inMonitor, hphase]) hstage ⟨fun _ => ⟨0⟩⟩
  have hirq : Step ⟨fun _ => ⟨0⟩⟩ s (.irq 1000 [DebugSession.CTRL_C]) _ :=
    .poll hopen hdue hpoll
  obtain ⟨s', hmask, htrapped⟩ :=
    hinv.trapped hirq ⟨hphase, hstage, hdue, List.mem_singleton.mpr rfl⟩
  have hall := hrun.mono fun _ _ _ hstep => hstep.1
  exact ⟨session, s', hboot, (hall.snoc hirq).snoc hmask, htrapped⟩

end HookedSys
end V5gdb
