import V5gdb.BreakpointHits
import V5gdb.ResumeActions
import V5gdb.SchedulerResume

/-!
What the program executes after a step was asked for.
The processor executes an instruction only where no hardware breakpoint stops it. The trap of
a step lets the program stay on its instruction, and the trap of a halt lets it stay nowhere.
Interrupts may come at any time, and their handlers are not stopped.
-/
namespace V5gdb

open RecordLayouts Transitions

inductive TracedEvent
  | system (e : SysEvent)
  | execute (f : Fetch) (memory : CodeMemory)

namespace TracedEvent

def sysEvent : TracedEvent → SysEvent
  | system e => e
  | execute _ memory => .run memory

/-- No instruction is executed that a hardware breakpoint has to stop. -/
def Passes (m : HwBreakpointManager) : TracedEvent → Prop
  | system e => ∀ memory, e ≠ .run memory
  | execute f _ => ¬m.MustStrike f

def IsStop (e : TracedEvent) : Prop := ∃ ctx status, e.sysEvent = .stop ctx status

def FindsCtrlC (e : TracedEvent) : Prop :=
  ∃ pending, e.sysEvent = .poll pending ∧ DebugSession.CTRL_C ∈ pending

end TracedEvent

namespace V5Target

variable {n : ℕ} {user : Finset HwKey} {t : V5Target} {f : Fetch} {k : HwKey}

/-- An instruction of the program gets past a trap only in the word that the trap spares. -/
theorem Accounted.word_of_passes (h : t.Accounted n user) (hmode : f.ProgramMode)
    (hk : k ∈ t.trapKeys) (hpass : ¬t.hwManager.MustStrike f) :
    k.word = f.word ∧ (k.thumb = f.thumb → k.addr = f.addr) := by
  obtain ⟨a, hkeys, ha⟩ := h.hasKeys
  have hmem : k ∈ a.keys := by
    rw [ha]
    exact Finset.mem_union_right _ hk
  obtain ⟨i, hslot, _⟩ := hkeys.mirrors.placed k hmem
  have hequal : f.Compares k.word k.byteSelect true := by
    by_contra hnot
    apply hpass
    refine ⟨i, fun equal hcompares => hslot.strikesWith_iff.mpr ⟨hmode, ?_⟩⟩
    rw [hslot.compares_iff] at hcompares
    rw [trapKeys_mismatching hk]
    cases equal with
    | false => rfl
    | true => exact absurd hcompares hnot
  have hword : k.word = f.word := by
    cases hequal with
    | selected hword => exact hword
    | unpredictable hword => exact hword
  refine ⟨hword, fun hthumb => ?_⟩
  have hsame := (Fetch.compares_iff (fun _ => hthumb) true).mp hequal
  exact of_decide_eq_true hsame.symm

end V5Target

namespace Sys

def TracedStep (table : TranslationTable) (s : Sys) (e : TracedEvent) (s' : Sys) : Prop :=
  Step table s e.sysEvent s' ∧ e.Passes s.session.target.hwManager

/-- The program is resumed to execute one instruction. -/
structure StepsOver (s : Sys) : Prop where
  outside : s.inMonitor = false
  running : s.session.stage = .active .running
  request : s.session.target.singleStepRequest = some (stepOver s.resumed)
  pending : s.session.target.interruptPending = false

/-- A step is on its way, and may have been overtaken by a halt. -/
structure Stepping (r : SingleStepRequest) (halted : Prop) (s : Sys) : Prop where
  outside : s.inMonitor = false
  running : s.session.stage = .active .running
  request : s.session.target.singleStepRequest = some r
  pending : s.session.target.interruptPending = true ↔ halted

variable {n : ℕ} {user : Finset HwKey} {lock : Bool} {table : TranslationTable} {s s' : Sys}
  {r : SingleStepRequest} {halted : Prop} {e : TracedEvent}

theorem TracedStep.run {es : List TracedEvent} (h : Run (TracedStep table) s es s') :
    Run (Step table) s (es.map TracedEvent.sysEvent) s' := by
  induction h with
  | nil => exact .nil _
  | snoc _ hlast ih =>
    rw [List.map_append]
    exact ih.snoc hlast.1

/-- Until the next stop only the interrupt handler changes the trap, where it finds a Ctrl-C. -/
theorem Stepping.step (h : s.Stepping r halted) (hacc : s.session.target.Accounted n user)
    (hstep : TracedStep table s e s') (hstop : ¬e.IsStop) :
    s'.Stepping r (halted ∨ e.FindsCtrlC) := by
  obtain ⟨hstep, _⟩ := hstep
  unfold TracedEvent.IsStop at hstop
  unfold TracedEvent.FindsCtrlC
  generalize e.sysEvent = event at hstep hstop
  have hkeep : ∀ {t : Sys}, t.inMonitor = false → t.session.stage = s.session.stage →
      t.session.target.singleStepRequest = s.session.target.singleStepRequest →
      t.session.target.interruptPending = s.session.target.interruptPending →
      (¬∃ pending, event = .poll pending ∧ DebugSession.CTRL_C ∈ pending) →
      t.Stepping r (halted ∨ ∃ pending, event = .poll pending ∧
        DebugSession.CTRL_C ∈ pending) := by
    intro t hout hstage hreq hpend hnone
    refine ⟨hout, hstage.trans h.running, hreq.trans h.request, ?_⟩
    rw [hpend, h.pending, or_iff_left hnone]
  cases hstep with
  | unattended => exact absurd ⟨_, _, rfl⟩ hstop
  | attended => exact absurd ⟨_, _, rfl⟩ hstop
  | tick hphase =>
    have hmon := h.outside
    rw [inMonitor, hphase] at hmon
    cases hmon
  | lastTick hphase =>
    have hmon := h.outside
    rw [inMonitor, hphase] at hmon
    cases hmon
  | «return» hphase => exact hkeep rfl rfl rfl rfl (by simp)
  | run hphase => exact hkeep h.outside rfl rfl rfl (by simp)
  | pollBusy hmon => exact absurd (hmon.symm.trans h.outside) (by simp)
  | @poll pending session hphase hpoll =>
    by_cases hctrl : DebugSession.CTRL_C ∈ pending
    · have harmed := DebugSession.poll_arms hacc h.running hctrl hpoll
      obtain ⟨session', hok, _, _, hreq⟩ := DebugSession.poll_spec hacc pending
      obtain rfl := Except.ok.inj (hok.symm.trans hpoll)
      have hstage : session'.stage = s.session.stage := by
        obtain ⟨_, _, rfl⟩ := DebugSession.poll_frame hpoll
        rfl
      refine ⟨hphase, hstage.trans h.running, hreq.trans h.request, ?_⟩
      exact iff_of_true harmed (.inr ⟨pending, rfl, hctrl⟩)
    · obtain rfl := DebugSession.poll_quiet (fun hboth => hctrl hboth.2) hpoll
      apply hkeep hphase rfl rfl rfl
      rintro ⟨pending', heq, hin⟩
      obtain rfl := SysEvent.poll.inj heq
      exact hctrl hin

/-- What may still be executed on the way. -/
theorem Stepping.executes {ctx : DebugEventContext} (h : s.Stepping (stepOver ctx) halted)
    (hacc : s.session.target.Accounted n user) {f : Fetch} (hmode : f.ProgramMode)
    (hpass : ¬s.session.target.hwManager.MustStrike f) :
    (halted → f.word = ASYNC_HALT_SENTINEL &&& ~~~0b11) ∧
      (¬halted → f.word = ctx.programCounter &&& ~~~0b11 ∧
        (f.thumb = ctx.cpsr.thumb → f.addr = ctx.programCounter)) := by
  constructor
  · intro hhalted
    have hkey : sentinelKey ∈ s.session.target.trapKeys := by
      unfold V5Target.trapKeys
      rw [if_pos (h.pending.mpr hhalted)]
      exact Finset.mem_singleton_self _
    exact (hacc.word_of_passes hmode hkey hpass).1.symm
  · intro hrunning
    have hpending : ¬s.session.target.interruptPending = true := fun hp =>
      hrunning (h.pending.mp hp)
    obtain ⟨k, hkey⟩ := hacc.stepAligned _ h.request
    obtain ⟨haddr, hthumb, _⟩ := HwKey.of?_eq_some.mp hkey
    have hmem : k ∈ s.session.target.trapKeys := by
      unfold V5Target.trapKeys V5Target.stepKeys
      rw [if_neg hpending, Option.mem_toFinset, h.request]
      exact hkey
    obtain ⟨hword, hsame⟩ := hacc.word_of_passes hmode hmem hpass
    rw [HwKey.word, haddr] at hword
    refine ⟨hword.symm, fun hset => ?_⟩
    have hsets : k.thumb = f.thumb := by
      rw [hthumb, hset]
      exact V5Target.stepKind_isThumb ctx
    exact (hsame hsets).symm.trans haddr

theorem StepsOver.stepping (h : s.StepsOver) : s.Stepping (stepOver s.resumed) False where
  outside := h.outside
  running := h.running
  request := h.request
  pending := by simp [h.pending]

/-- A packet ends the stop with a step in force over the instruction that is next. -/
theorem stepsOver_of_packet {t : V5Target} {calls : List TargetCall} {next : GdbState}
    {replies : List (TargetCall × TargetReply)} (hhold : s.Holding n user lock)
    (hphase : s.phase = .monitor .idle)
    (hstep : Step table s (.tick (.packet calls next) replies) s')
    (hcalls : V5Target.runCalls table calls s.session.target = .ok (t, replies))
    (hresumes : calls.any TargetCall.resumes = true)
    (hresume : t.monitorStatus = .resumingProgram)
    (hrequest : t.singleStepRequest = some (stepOver t.exceptionCtx)) :
    s'.StepsOver ∧ s'.resumed = t.exceptionCtx := by
  have hmonitor : s.inMonitor = true := by
    rw [inMonitor, hphase]
  have hready := V5Target.runCalls_ready (hhold.stopped hmonitor) hcalls
  have hturn := @DebugSession.tick_packet table _ _ calls next replies hcalls
  have hrunning : GdbState.afterPacket calls next = .running := by
    unfold GdbState.afterPacket
    rw [if_pos hresumes]
  rw [hrunning] at hturn
  cases hstep with
  | tick hphase' htick hstay =>
    obtain rfl := Phase.monitor.inj (hphase'.symm.trans hphase)
    obtain ⟨_, heq⟩ := Prod.mk.inj (Except.ok.inj (htick.symm.trans hturn))
    obtain ⟨rfl, _⟩ := Prod.mk.inj heq
    exact absurd hresume hstay
  | lastTick hphase' htick _ =>
    obtain rfl := Phase.monitor.inj (hphase'.symm.trans hphase)
    obtain ⟨rfl, heq⟩ := Prod.mk.inj (Except.ok.inj (htick.symm.trans hturn))
    obtain ⟨rfl, _⟩ := Prod.mk.inj heq
    exact ⟨⟨rfl, rfl, hrequest, hready.pending⟩, rfl⟩

/-- From the resume with a step to the next stop: the program executes no instruction but the
one that it is resumed at, however often, and once the interrupt handler has found a Ctrl-C it
does not get past any instruction but in the last word of memory. -/
theorem steps_stay (table : TranslationTable) (debugId : BitVec 32) (mmio : DebugLogic)
    (memory : CodeMemory) (exitFunc : Addr) (stopMotorsOnBreak : Bool) (session : DebugSession)
    (hboot : DebugSession.boot debugId mmio memory exitFunc stopMotorsOnBreak = .ok session)
    (before : List TracedEvent) (s : Sys)
    (hbefore : Run (TracedStep table) (start session) before s) (hsteps : s.StepsOver)
    (after : List TracedEvent) (s' : Sys) (hafter : Run (TracedStep table) s after s')
    (hstop : ∀ e ∈ after, ¬e.IsStop) (f : Fetch) (stored : CodeMemory) (s'' : Sys)
    (hexec : TracedStep table s' (.execute f stored) s'') (hmode : f.ProgramMode) :
    ((∃ e ∈ after, e.FindsCtrlC) → f.word = ASYNC_HALT_SENTINEL &&& ~~~0b11) ∧
      ((¬∃ e ∈ after, e.FindsCtrlC) →
        f.word = s.resumed.programCounter &&& ~~~0b11 ∧
        (f.thumb = s.resumed.cpsr.thumb → f.addr = s.resumed.programCounter)) := by
  have hhold : ∀ {es t}, Run (TracedStep table) s es t → ∃ user,
      t.Holding (HardwareCapabilities.ofDebugId debugId).numBreakpoints user true :=
    fun hes => ⟨_, holding_of_run hboot (TracedStep.run (hbefore.trans hes))⟩
  have hinv := hafter.invariant
    (P := fun es t => (∀ e ∈ es, ¬e.IsStop) → Run (TracedStep table) s es t ∧
      t.Stepping (stepOver s.resumed) (∃ e ∈ es, e.FindsCtrlC))
    (fun _ => ⟨.nil _, by simpa using hsteps.stepping⟩)
    (by
      intro es t e t' ht hstep hquiet
      obtain ⟨hearlier, hlast⟩ := List.forall_mem_append.mp hquiet
      obtain ⟨hes, hstepping⟩ := ht hearlier
      obtain ⟨user, ht⟩ := hhold hes
      refine ⟨hes.snoc hstep, ?_⟩
      have hnext := hstepping.step ht.accounted hstep (hlast e (List.mem_singleton_self e))
      simpa [or_and_right, exists_or] using hnext)
  obtain ⟨_, hstepping⟩ := hinv hstop
  obtain ⟨user, hs'⟩ := hhold hafter
  exact hstepping.executes hs'.accounted hmode hexec.2

/-- Where GDB has no breakpoint and the trap is elsewhere, the program goes on. -/
theorem Holding.passes (h : s.Holding n ∅ lock) {f : Fetch}
    (htrap : s.session.target.trapAddr = some f.addr)
    (hset : ∀ k ∈ s.session.target.trapKeys, k.thumb = f.thumb) :
    ¬s.session.target.hwManager.MustStrike f := by
  rintro ⟨i, hstrikes⟩
  obtain ⟨a, hkeys, ha⟩ := h.accounted.hasKeys
  obtain ⟨equal, hcompares⟩ := f.exists_compares
    (s.session.target.hwManager.mmio.breakpointValue i)
    (s.session.target.hwManager.mmio.breakpointCtrl i).byteAddressSelect
  have hmay : s.session.target.hwManager.MayStrike f :=
    ⟨i, equal, hcompares, hstrikes _ hcompares⟩
  rw [Finset.empty_union] at ha
  obtain ⟨_, k, hk, hat⟩ := (hkeys.mayStrike_iff fun k hk _ => hset k (ha ▸ hk)).mp hmay
  have hat' : ∃ k ∈ ∅ ∪ s.session.target.trapKeys, k.StrikesAt f := by
    rw [Finset.empty_union, ← ha]
    exact ⟨k, hk, hat⟩
  rcases h.accounted.strikesAt_iff.mp hat' with ⟨k, hk, _⟩ | ⟨addr, haddr, hne⟩
  · cases hk
  · exact hne (Option.some.inj (haddr.symm.trans htrap))

/-- A first stop in ARM code, at which GDB asks for a step, and what is stepped. -/
theorem exists_stepped_instruction {session : DebugSession}
    (hboot : DebugSession.boot 0 DebugSession.clearedLogic ⟨fun _ => 0, fun _ => 0⟩ 0x03800000
      false = .ok session) (table : TranslationTable) (f : Fetch) (harm : f.thumb = false) :
    ∃ before s s' s'' stored, Run (TracedStep table) (start session) before s ∧ s.StepsOver ∧
      Run (TracedStep table) s [.system .return] s' ∧
      TracedStep table s' (.execute f stored) s'' ∧ s.resumed.programCounter = f.addr := by
  have hbooted := DebugSession.booted_of_boot hboot
  have h₀ := holding_start hbooted
  have hstage : session.stage ≠ .transitioning := by simp [hbooted.stage]
  obtain ⟨s₁, gdb, hstop, hphase, hctx, _, hgdb⟩ := h₀.exists_stop rfl hstage table
    ⟨⟨0⟩, 0, 0, 0, fun _ => 0, fun _ => 0, f.addr⟩ ⟨0⟩ (by decide) (by decide)
  rw [hgdb hbooted.stage] at hphase
  have h₁ := h₀.step hstop
  have hmonitor : s₁.inMonitor = true := by
    rw [inMonitor, hphase]
  have hready := h₁.stopped hmonitor
  have hthumb : ProgramStatus.thumb ⟨0⟩ = false := by decide
  have hpc : s₁.session.target.PcAligned := by
    rw [V5Target.PcAligned, hctx, hthumb, ← harm]
    exact f.aligned
  rcases V5Target.mustStep_cases hready with ⟨hmis, _⟩ | ⟨t, hmust, _⟩
  · exact absurd hpc hmis
  have hcalls : V5Target.runCalls table [.step] s₁.session.target =
      .ok ({ t with monitorStatus := .resumingProgram }, [(.step, .done)]) := by
    simp only [V5Target.runCalls, V5Target.applyCall, hmust, bind, Except.bind, pure, Except.pure]
  obtain ⟨hrequest, hsame⟩ := V5Target.mustStep_request hmust
  rw [request_of_stop h₀ hstop, Option.none_or] at hrequest
  obtain ⟨s₂, unpause, htick, hphase₂, _⟩ := exists_lastTick hphase hcalls rfl
  obtain ⟨hsteps, hresumed⟩ := stepsOver_of_packet h₁ hphase htick hcalls rfl rfl
    (hrequest.trans (by rw [hsame]))
  have hreturn : Step table s₂ .return _ := .return hphase₂
  have h₃ := (h₁.step htick).step hreturn
  have hctx₂ : s₂.resumed = ⟨⟨0⟩, 0, 0, 0, fun _ => 0, fun _ => 0, f.addr⟩ := by
    rw [hresumed, hsame, hctx]
  have htrap : s₂.session.target.trapAddr = some f.addr := by
    rw [V5Target.trapAddr, hsteps.pending, hsteps.request, hctx₂]
    rfl
  have hset : ∀ k ∈ s₂.session.target.trapKeys, k.thumb = f.thumb := by
    intro k hk
    rw [V5Target.trapKeys, hsteps.pending, if_neg Bool.false_ne_true, V5Target.stepKeys,
      hsteps.request, hctx₂, Option.mem_toFinset] at hk
    obtain ⟨_, hkind, _⟩ := HwKey.of?_eq_some.mp hk
    rw [hkind, harm, ← hthumb]
    exact V5Target.stepKind_isThumb _
  have hpass := @Holding.passes _ _ _ h₃ f htrap hset
  refine ⟨[.system (.stop _ _), .system (.tick _ _)], s₂, _, _, s₂.session.target.memory,
    (Run.single ⟨hstop, fun _ => SysEvent.noConfusion⟩).snoc
      ⟨htick, fun _ => SysEvent.noConfusion⟩,
    hsteps, .single ⟨hreturn, fun _ => SysEvent.noConfusion⟩, ⟨.run rfl, hpass⟩, ?_⟩
  rw [hctx₂]

theorem steps_stay_of_step :
    ∃ session before s s' s'' stored, DebugSession.boot 0 DebugSession.clearedLogic
        ⟨fun _ => 0, fun _ => 0⟩ 0x03800000 false = .ok session ∧
      Run (TracedStep ⟨fun _ => ⟨0⟩⟩) (start session) before s ∧ s.StepsOver ∧
      Run (TracedStep ⟨fun _ => ⟨0⟩⟩) s [.system .return] s' ∧
      TracedStep ⟨fun _ => ⟨0⟩⟩ s' (.execute ⟨0x03900000, false, 0b11111, true, by decide⟩ stored)
        s'' ∧
      (0x03900000 : Addr) &&& ~~~0b11 = s.resumed.programCounter &&& ~~~0b11 := by
  obtain ⟨session, hboot⟩ := DebugSession.exists_boot_one_slot
  obtain ⟨before, s, s', s'', stored, hbefore, hsteps, hafter, hexec, _⟩ :=
    exists_stepped_instruction hboot ⟨fun _ => ⟨0⟩⟩
      ⟨0x03900000, false, 0b11111, true, by decide⟩ rfl
  have hquiet : ∀ e ∈ [TracedEvent.system .return], ¬e.IsStop ∧ ¬e.FindsCtrlC := by
    intro e he
    rw [List.mem_singleton.mp he]
    exact ⟨fun ⟨_, _, hstop⟩ => SysEvent.noConfusion hstop,
      fun ⟨_, hpoll, _⟩ => SysEvent.noConfusion hpoll⟩
  obtain ⟨_, hstays⟩ := steps_stay _ _ _ _ _ _ _ hboot before s hbefore hsteps _ s' hafter
    (fun e he => (hquiet e he).1) _ stored s'' hexec (by decide)
  exact ⟨session, before, s, s', s'', stored, hboot, hbefore, hsteps, hafter, hexec,
    (hstays fun ⟨e, he, hfinds⟩ => (hquiet e he).2 hfinds).1⟩

end Sys
end V5gdb
