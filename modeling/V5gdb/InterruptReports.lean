import V5gdb.SerialLink

/-!
What becomes of a Ctrl-C.
The interrupt handler finds it among the waiting bytes, and arms a halt that only the
next stop gives up. That stop is then reported as an interrupt; without a Ctrl-C since
the stop before, a hardware break is reported as what it is.
-/
namespace V5gdb

open RecordLayouts Transitions

namespace DebugSession

variable {n : ℕ} {user : Finset HwKey} {s s' : DebugSession} {ctx : DebugEventContext}
  {status : DebugStatusControl} {suspends : Bool} {gdb? : Option GdbState}

theorem breakpoint_reason (s : DebugSession) (ctx : DebugEventContext)
    (hbreak : status.methodOfEntry = some .breakpoint) :
    ((s.signal status).target.prepareEntry ctx).stopReason =
      if s.target.interruptPending then .interrupt else .hardwareBreak := by
  have hlast : ((s.signal status).target.hwManager.setLocked false).lastBreakReason =
      some .breakpoint := hbreak
  unfold V5Target.prepareEntry V5Target.classifyStop
  simp only [hlast]
  rfl

theorem describe_breakpoint (s : DebugSession) (ctx : DebugEventContext)
    (hbreak : status.methodOfEntry = some .breakpoint) :
    s.describe ctx status =
      if s.target.interruptPending then .signalWithThread .SIGINT else .hwBreak := by
  have hreason := s.breakpoint_reason ctx hbreak
  rw [describe]
  simp only [hreason]
  cases s.target.interruptPending <;> rfl

/-- A hardware break is never passed over in silence. -/
theorem breakpoint_opens (hacc : s.target.Accounted n user)
    (hbreak : status.methodOfEntry = some .breakpoint)
    (hbegin : (s.signal status).beginEvent ctx = .ok (s', suspends, gdb?)) : gdb? ≠ none := by
  obtain ⟨t, s₁, action, henter, hstop, hcase⟩ := beginEvent_ok hbegin
  obtain ⟨_, _, hreason, _⟩ := V5Target.enterBreakpoint_sw (signal_accounted hacc status) henter
  rw [s.breakpoint_reason ctx hbreak] at hreason
  have haction : action = .enterMonitor := by
    rw [hreason] at hstop
    cases hpending : s.target.interruptPending <;> rw [hpending] at hstop <;>
      exact (Prod.mk.inj (Except.ok.inj hstop)).2.symm
  rcases hcase with ⟨hresume, _⟩ | ⟨_, gdb, hgdb, _⟩
  · rw [haction] at hresume
    cases hresume
  · rw [hgdb]
    exact Option.some_ne_none gdb

theorem exists_breakpoint_entry (hacc : s.target.Accounted n user)
    (hstage : s.stage ≠ .transitioning) (ctx : DebugEventContext) (status : DebugStatusControl)
    (hbreak : status.methodOfEntry = some .breakpoint) :
    ∃ s' suspends gdb, (s.signal status).beginEvent ctx = .ok (s', suspends, some gdb) := by
  have hreason := s.breakpoint_reason ctx hbreak
  rcases V5Target.enterBreakpoint_cases (signal_accounted hacc status) ctx with
    ⟨hun, _⟩ | ⟨hw, ctx', hok, _⟩
  · rw [hreason] at hun
    cases hpending : s.target.interruptPending <;> rw [hpending] at hun <;> cases hun
  · rw [beginEvent, hok]
    simp only [bind, Except.bind, hreason]
    cases s.target.interruptPending <;>
      · simp only [handleStop, openConsole, signal]
        cases hs : s.stage with
        | transitioning => exact absurd hs hstage
        | uninitialized => exact ⟨_, _, .idle, rfl⟩
        | active gdb => exact ⟨_, _, gdb, rfl⟩

end DebugSession

namespace Linked

variable {π : Type*} {n : ℕ} {table : TranslationTable} {P : SerialPort π} {s s' : Linked π}
  {e : LinkEvent} {es : List LinkEvent}

/-- A halt is armed if and only if a Ctrl-C was seen since the last stop. -/
structure Tracks (n : ℕ) (es : List LinkEvent) (s : Linked π) : Prop where
  holding : ∃ user, s.hooked.sys.Holding n user true
  pending : s.hooked.sys.session.target.interruptPending = true ↔
    Since LinkEvent.SeesCtrlC (fun e => e.isStop = true) es

theorem seesCtrlC_of_taken {e : LinkEvent} (h : ∀ x ∈ e.taken, x.1 ≠ .poll) : ¬e.SeesCtrlC :=
  fun hsees => h _ hsees rfl

theorem seesCtrlC_irq (now : BitVec 32) (bytes : Bytes) :
    (LinkEvent.irq now bytes).SeesCtrlC ↔ DebugSession.CTRL_C ∈ bytes := by
  simp [LinkEvent.SeesCtrlC, LinkEvent.taken]

/-- An event that changes neither side. -/
theorem Tracks.quiet (h : s.Tracks n es) (hhooked : s'.hooked = s.hooked)
    (hsees : ¬e.SeesCtrlC) (hstop : e.isStop = false) : s'.Tracks n (es ++ [e]) where
  holding := hhooked ▸ h.holding
  pending := by
    rw [hhooked, h.pending, since_snoc]
    simp [hsees, hstop]

/-- A step of the system other than a poll. -/
theorem Tracks.sys (h : s.Tracks n es) {se : SysEvent}
    (hstep : Sys.Step table s.hooked.sys se s'.hooked.sys) (hpoll : ∀ pending, se ≠ .poll pending)
    (hsees : ¬e.SeesCtrlC) (hstop : e.isStop = se.isStop) : s'.Tracks n (es ++ [e]) := by
  obtain ⟨user, hhold⟩ := h.holding
  refine ⟨⟨_, hhold.step hstep⟩, ?_⟩
  rw [hhold.pending_step hstep hpoll, Bool.and_eq_true, h.pending, since_snoc, hstop]
  simp [hsees]

theorem Tracks.hooked (h : s.Tracks n es) {he : HookedEvent}
    (hstep : HookedSys.Step table s.hooked he s'.hooked) (hirq : ∀ now bytes, he ≠ .irq now bytes)
    (hsees : ¬e.SeesCtrlC)
    (hstop : e.isStop = match he with | .sys se => se.isStop | _ => false) :
    s'.Tracks n (es ++ [e]) := by
  obtain ⟨after, port, tried, warnings⟩ := s'
  cases hstep with
  | sys _ hhooked hstep =>
    refine h.sys hstep ?_ hsees hstop
    rintro pending rfl
    cases hhooked
  | cpsid _ _ => exact ⟨h.holding, (h.quiet rfl hsees hstop).pending⟩
  | finish _ hstep => exact h.sys hstep (fun _ => SysEvent.noConfusion) hsees hstop
  | skip | poll => exact absurd rfl (hirq _ _)

/-- An interrupt. What its handler reads is looked at by the session. -/
theorem Tracks.irq (h : s.Tracks n es) {now : BitVec 32} {bytes : Bytes}
    (hstep : HookedSys.Step table s.hooked (.irq now bytes) s'.hooked)
    (hbytes : bytes = [] ∨ s.hooked.Polls now) : s'.Tracks n (es ++ [.irq now bytes]) := by
  obtain ⟨user, hhold⟩ := h.holding
  obtain ⟨after, port, tried, warnings⟩ := s'
  have hunseen : bytes = [] → ¬(LinkEvent.irq now bytes).SeesCtrlC := by
    rintro rfl
    rw [seesCtrlC_irq]
    exact List.not_mem_nil
  cases hstep with
  | skip _ hsoon =>
    rcases hbytes with hnil | hpolls
    · exact h.quiet rfl (hunseen hnil) rfl
    · exact absurd hpolls.1 hsoon
  | poll _ _ hstep =>
    have hhold' := hhold.step hstep
    cases hstep with
    | pollBusy hin =>
      rcases hbytes with hnil | hpolls
      · exact ⟨h.holding, (h.quiet rfl (hunseen hnil) rfl).pending⟩
      · rw [hpolls.2.1] at hin
        cases hin
    | poll _ hpoll =>
      refine ⟨⟨_, hhold'⟩, ?_⟩
      rw [since_snoc, seesCtrlC_irq]
      by_cases hctrl : DebugSession.CTRL_C ∈ bytes
      · have hpolls := hbytes.resolve_left (List.ne_nil_of_mem hctrl)
        simp only [DebugSession.poll_arms hhold.accounted hpolls.2.2 hctrl hpoll, hctrl, true_or]
      · obtain rfl := DebugSession.poll_quiet (fun hseen => hctrl hseen.2) hpoll
        rw [h.pending]
        simp [hctrl, LinkEvent.isStop]

theorem Tracks.step (h : s.Tracks n es) (hstep : Step table P s e s') :
    s'.Tracks n (es ++ [e]) := by
  cases hstep with
  | arrive | readChar | peekChar | directPeek =>
    exact h.quiet rfl (seesCtrlC_of_taken (List.forall_mem_nil _)) rfl
  | directRead channel =>
    refine h.quiet rfl (seesCtrlC_of_taken ?_) rfl
    intro x hx
    rw [LinkEvent.taken] at hx
    split_ifs at hx
    · rw [List.mem_singleton.mp hx]
      exact Reader.noConfusion
    · cases hx
  | fed _ _ hstep =>
    exact h.hooked hstep (fun _ _ => HookedEvent.noConfusion)
      (seesCtrlC_of_taken (List.forall_mem_singleton.mpr Reader.noConfusion)) rfl
  | @silent he _ hsilent hstep =>
    refine h.hooked hstep ?_ (seesCtrlC_of_taken (List.forall_mem_nil _)) ?_
    · rintro now bytes rfl
      exact hsilent
    · cases he <;> rfl
  | poll hpolls _ hstep => exact h.irq hstep (.inr hpolls)
  | irq _ hstep => exact h.irq hstep (.inl rfl)

theorem tracks_start {debugId : BitVec 32} {mmio : DebugLogic} {memory : CodeMemory}
    {exitFunc : Addr} {session : DebugSession} (p : π)
    (h : session.Booted debugId mmio memory exitFunc) :
    (start session p).Tracks (HardwareCapabilities.ofDebugId debugId).numBreakpoints [] where
  holding := ⟨∅, Sys.holding_start h⟩
  pending := by
    have hnot : session.target.interruptPending ≠ true := by
      rw [h.pending]
      exact Bool.false_ne_true
    exact ⟨fun hp => absurd hp hnot, fun hsince => absurd hsince not_since_nil⟩

theorem tracks_of_run {debugId : BitVec 32} {mmio : DebugLogic} {memory : CodeMemory}
    {exitFunc : Addr} {stopMotorsOnBreak : Bool} {session : DebugSession} {p : π}
    (hboot : DebugSession.boot debugId mmio memory exitFunc stopMotorsOnBreak = .ok session)
    (hrun : Run (Step table P) (start session p) es s) :
    s.Tracks (HardwareCapabilities.ofDebugId debugId).numBreakpoints es :=
  hrun.invariant
    (P := fun es s => s.Tracks (HardwareCapabilities.ofDebugId debugId).numBreakpoints es)
    (tracks_start p (DebugSession.booted_of_boot hboot)) (fun _ _ _ _ h hstep => h.step hstep)

def report (s : Linked π) : MultiThreadStopReason :=
  s.hooked.sys.session.target.gdbStopReason.forGdb

/-- A hardware break opens the console and is reported as an interrupt exactly if the
interrupt handler has found a Ctrl-C since the last stop. -/
theorem sigint_reported_iff (table : TranslationTable) (P : SerialPort π) (debugId : BitVec 32)
    (mmio : DebugLogic) (memory : CodeMemory) (exitFunc : Addr) (stopMotorsOnBreak : Bool)
    (session : DebugSession) (p : π)
    (hboot : DebugSession.boot debugId mmio memory exitFunc stopMotorsOnBreak = .ok session)
    (es : List LinkEvent) (s s' : Linked π)
    (hrun : Run (Step table P) (start session p) es s) (ctx : DebugEventContext)
    (status : DebugStatusControl) (hbreak : status.methodOfEntry = some .breakpoint)
    (hstop : Step table P s (.silent (.sys (.stop ctx status))) s') :
    (∃ gdb, s'.hooked.sys.phase = .monitor gdb) ∧
      (s'.report = .signalWithThread .SIGINT ↔
        Since LinkEvent.SeesCtrlC (fun e => e.isStop = true) es) ∧
      (s'.report = .hwBreak ↔ ¬Since LinkEvent.SeesCtrlC (fun e => e.isStop = true) es) := by
  have htracks := tracks_of_run hboot hrun
  obtain ⟨user, hhold⟩ := htracks.holding
  cases hstop with
  | silent _ hstep =>
    cases hstep with
    | sys _ _ hstep =>
      cases hstep with
      | unattended hphase hbegin =>
        exact absurd rfl (DebugSession.breakpoint_opens hhold.accounted hbreak hbegin)
      | attended hphase hbegin =>
        have hreport := (DebugSession.beginEvent_describes hhold.accounted hbegin).trans
          (DebugSession.describe_breakpoint _ ctx hbreak)
        rw [← htracks.pending, report, hreport]
        refine ⟨⟨_, rfl⟩, ?_⟩
        cases s.hooked.sys.session.target.interruptPending <;> simp

/-- An interrupt that is due sees the Ctrl-C that waits. -/
theorem Tracks.exists_seen {s : Linked (Channel → Bytes)} (h : s.Tracks n es)
    (table : TranslationTable) {now : BitVec 32}
    (hpolls : s.hooked.Polls now) (hopen : s.hooked.masked = false)
    (hport : s.port .USER = [DebugSession.CTRL_C]) :
    ∃ s', Step table queuePort s (.irq now [DebugSession.CTRL_C]) s' ∧
      s'.hooked.sys.phase = s.hooked.sys.phase ∧ s'.hooked.masked = false ∧
      s'.hooked.sys.session.stage = s.hooked.sys.session.stage := by
  obtain ⟨user, hhold⟩ := h.holding
  obtain ⟨session, hpoll, _⟩ :=
    DebugSession.poll_spec hhold.accounted [DebugSession.CTRL_C]
  obtain ⟨hbytes, _⟩ := queuePort.drain_spec (p := s.port)
    (Nat.lt_succ_self (queuePort.waiting s.port .USER).length)
  have hseen : SerialPort.seen (queuePort.waiting s.port .USER) = [DebugSession.CTRL_C] := by
    rw [show queuePort.waiting s.port .USER = _ from hport]
    decide
  refine ⟨_, .poll hpolls (Prod.ext (hbytes.trans hseen) rfl)
    (.poll hopen hpolls.1 (.poll hpolls.2.1 hpoll)), rfl, hopen, ?_⟩
  obtain ⟨_, _, rfl⟩ := DebugSession.poll_frame hpoll
  rfl

/-- A Ctrl-C is seen a second after the boot, and then the program traps. -/
theorem sigint_reported_iff_first_console :
    ∃ (es : List LinkEvent) (s s' : Linked (Channel → Bytes)),
      Step ⟨fun _ => ⟨0⟩⟩ queuePort s (.silent (.sys (.stop
        ⟨⟨0⟩, 0, 0, 0, fun _ => 0, fun _ => 0, 0x03900000⟩ ⟨4⟩))) s' ∧
      Since LinkEvent.SeesCtrlC (fun e => e.isStop = true) es ∧
      s'.report = .signalWithThread .SIGINT := by
  obtain ⟨session, s₁, s₂, hboot, hrun₁, _, _, _, _, _, hrun₂, hstage, hlast, hopen,
    ⟨unpause, hphase⟩, hport, _⟩ := exists_first_console ⟨fun _ => ⟨0⟩⟩
  have hrun := hrun₁.trans hrun₂
  have hpolls : s₂.hooked.Polls 1000 := by
    refine ⟨?_, by rw [Sys.inMonitor, hphase], hstage⟩
    rw [HookedSys.pollIsDue, hlast]
    decide
  obtain ⟨s₃, hirq, hphase₃, hopen₃, hstage₃⟩ :=
    (tracks_of_run hboot hrun).exists_seen ⟨fun _ => ⟨0⟩⟩ hpolls hopen hport
  obtain ⟨s₄, hreturn, hphase₄, hsession, hopen₄, _⟩ :=
    exists_return ⟨fun _ => ⟨0⟩⟩ queuePort hopen₃ (hphase₃.trans hphase)
  have hall := (hrun.snoc hirq).trans hreturn
  obtain ⟨user, hhold⟩ := (tracks_of_run hboot hall).holding
  have htransition : s₄.hooked.sys.session.stage ≠ .transitioning := by
    rw [hsession, hstage₃, hstage]
    exact SessionStage.noConfusion
  obtain ⟨session', suspends, gdb, hbegin⟩ :=
    DebugSession.exists_breakpoint_entry hhold.accounted htransition
      ⟨⟨0⟩, 0, 0, 0, fun _ => 0, fun _ => 0, 0x03900000⟩ ⟨4⟩ (by decide)
  have hstop : Step ⟨fun _ => ⟨0⟩⟩ queuePort s₄ (.silent (.sys (.stop _ ⟨4⟩))) _ :=
    .silent trivial (.sys hopen₄ rfl (.attended hphase₄ hbegin))
  obtain ⟨_, hreport, _⟩ := sigint_reported_iff ⟨fun _ => ⟨0⟩⟩ queuePort 0 _ _ _ _ session _ hboot
    _ _ _ hall _ ⟨4⟩ (by decide) hstop
  have hquiet : ∀ e ∈ [LinkEvent.silent .cpsid, .silent .finish],
      ¬e.SeesCtrlC ∧ ¬e.isStop = true := by
    simp [LinkEvent.isStop, LinkEvent.SeesCtrlC, LinkEvent.taken]
  have hreported := hreport.mpr ((since_append_of_quiet hquiet).mpr (since_snoc.mpr (.inl
    ((seesCtrlC_irq 1000 _).mpr (List.mem_singleton_self DebugSession.CTRL_C)))))
  exact ⟨_, _, _, hstop, hreport.mp hreported, hreported⟩

end Linked
end V5gdb
