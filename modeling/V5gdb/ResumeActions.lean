import V5gdb.RefusedAddresses

/-!
The resume actions of GDB, and what is left of them when the program goes on.
A step action sets up the step at once, at the PC it finds; clearing the actions
does nothing, and a step that is set up is not set up again. So the step that is in
force at the resume is the one that was set up first in the stop.
-/
namespace V5gdb

open RecordLayouts Transitions

/-- The callbacks between which and the resume GDB chooses the actions. -/
def TargetCall.PreparesResume : TargetCall → Prop
  | clearResumeActions => True
  | setResumeActionContinue => True
  | setResumeActionStep current => current = true
  | writeRegister _ _ => True
  | writeRegisters _ => True
  | _ => False

def TargetCall.edit (ctx : DebugEventContext) : TargetCall → DebugEventContext
  | writeRegisters regs => regs
  | writeRegister regId val => (ctx.writeRegister regId val).1
  | _ => ctx

def TargetCall.stepsCurrent : TargetCall → Bool
  | setResumeActionStep current => current
  | _ => false

def DebugEventContext.PcAligned (ctx : DebugEventContext) : Prop :=
  Instruction.AlignedFor ctx.cpsr.thumb ctx.programCounter

instance (ctx : DebugEventContext) : Decidable ctx.PcAligned :=
  inferInstanceAs (Decidable (Instruction.AlignedFor _ _))

def StaysAligned : DebugEventContext → List TargetCall → Prop
  | ctx, [] => ctx.PcAligned
  | ctx, c :: cs => ctx.PcAligned ∧ StaysAligned (c.edit ctx) cs

instance decidableStaysAligned : ∀ ctx cs, Decidable (StaysAligned ctx cs)
  | ctx, [] => inferInstanceAs (Decidable ctx.PcAligned)
  | ctx, c :: cs =>
    have := decidableStaysAligned (c.edit ctx) cs
    inferInstanceAs (Decidable (ctx.PcAligned ∧ StaysAligned (c.edit ctx) cs))

/-- The context in which the first step action finds the program. -/
def firstStep : DebugEventContext → List TargetCall → Option DebugEventContext
  | _, [] => none
  | ctx, c :: cs =>
    if c.stepsCurrent then some ctx else firstStep (c.edit ctx) cs

/-- A step was asked for after the actions were last cleared. -/
def StepAsked : List TargetCall → Prop :=
  Since (fun c => c.stepsCurrent = true) (· = .clearResumeActions)

def stepOver (ctx : DebugEventContext) : SingleStepRequest :=
  { targetAddr := ctx.programCounter, kind := V5Target.stepKind ctx }

namespace V5Target

variable {n : ℕ} {user : Finset HwKey} {lock : Bool} {t t' : V5Target} {table : TranslationTable}

theorem mustStep_request (h : t.mustStep = .ok t') :
    t'.singleStepRequest = t.singleStepRequest.or (some (stepOver t.exceptionCtx)) ∧
      t'.exceptionCtx = t.exceptionCtx := by
  obtain ⟨⟨t₁, r⟩, hreq, h⟩ := Exec.bind_ok.mp h
  cases r with
  | error e => cases h
  | ok u =>
    obtain rfl := Except.ok.inj h
    unfold requestSingleStep at hreq
    cases hset : t.singleStepRequest with
    | some request =>
      rw [hset] at hreq
      obtain ⟨rfl, _⟩ := Prod.mk.inj (Except.ok.inj hreq)
      exact ⟨hset, rfl⟩
    | none =>
      rw [hset] at hreq
      obtain ⟨⟨hw, r⟩, _, hreq⟩ := Exec.bind_ok.mp hreq
      cases r with
      | error e => cases hreq
      | ok u =>
        obtain ⟨rfl, _⟩ := Prod.mk.inj (Except.ok.inj hreq)
        exact ⟨rfl, rfl⟩

/-- One callback before the resume. -/
theorem applyCall_prepare (table : TranslationTable) (h : t.Ready n user lock)
    (hpc : t.exceptionCtx.PcAligned) {c : TargetCall} (hc : c.PreparesResume) :
    ∃ t' r, t.applyCall table c = .ok (t', r) ∧ t'.Ready n user lock ∧
      t'.exceptionCtx = c.edit t.exceptionCtx ∧
      t'.singleStepRequest = t.singleStepRequest.or
        (if c.stepsCurrent then some (stepOver t.exceptionCtx) else none) := by
  cases c with
  | setResumeActionStep current =>
    obtain rfl : current = true := hc
    rcases mustStep_cases h with ⟨hmis, _⟩ | ⟨t', hstep, h'⟩
    · exact absurd hpc hmis
    · obtain ⟨hreq, hctx⟩ := mustStep_request hstep
      refine ⟨t', .done, ?_, h', hctx, hreq⟩
      rw [applyCall, if_pos rfl, hstep]
      rfl
  | clearResumeActions => exact ⟨t, _, rfl, h, rfl, by simp [TargetCall.stepsCurrent]⟩
  | setResumeActionContinue => exact ⟨t, _, rfl, h, rfl, by simp [TargetCall.stepsCurrent]⟩
  | writeRegister regId val =>
    exact ⟨_, _, rfl, h.congr ⟨rfl, rfl, rfl, rfl⟩, rfl, by simp [TargetCall.stepsCurrent]⟩
  | writeRegisters regs =>
    exact ⟨_, _, rfl, h.congr ⟨rfl, rfl, rfl, rfl⟩, rfl, by simp [TargetCall.stepsCurrent]⟩
  | _ => cases hc

/-- A list of them: the step in force is the one that was set up before, or the first. -/
theorem runCalls_prepare (table : TranslationTable) (h : t.Ready n user lock)
    {cs : List TargetCall} (hcs : ∀ c ∈ cs, c.PreparesResume)
    (hal : StaysAligned t.exceptionCtx cs) :
    ∃ t' replies, runCalls table cs t = .ok (t', replies) ∧ t'.Ready n user lock ∧
      t'.exceptionCtx = cs.foldl TargetCall.edit t.exceptionCtx ∧
      t'.singleStepRequest =
        t.singleStepRequest.or ((firstStep t.exceptionCtx cs).map stepOver) := by
  induction cs generalizing t with
  | nil => exact ⟨t, [], rfl, h, rfl, by simp [firstStep]⟩
  | cons c cs ih =>
    obtain ⟨hpc, hal⟩ := hal
    obtain ⟨hc, hcs⟩ := List.forall_mem_cons.mp hcs
    obtain ⟨t₁, r, happ, h₁, hctx, hreq⟩ := applyCall_prepare table h hpc hc
    rw [← hctx] at hal
    obtain ⟨t', rs, hrun, h', hctx', hreq'⟩ := ih h₁ hcs hal
    refine ⟨t', (c, r) :: rs, ?_, h', ?_, ?_⟩
    · simp only [runCalls, happ, hrun, bind, Except.bind, pure, Except.pure]
    · rw [hctx', hctx]
      rfl
    · rw [hreq', hreq, hctx, firstStep]
      split_ifs <;> simp

theorem runCalls_resume (table : TranslationTable) (h : t.Ready n user lock)
    {cs : List TargetCall} (hcs : ∀ c ∈ cs, c.PreparesResume)
    (hal : StaysAligned t.exceptionCtx cs) :
    ∃ t' replies, runCalls table (cs ++ [.resume]) t = .ok (t', replies) ∧
      t'.Ready n user lock ∧ t'.exceptionCtx = cs.foldl TargetCall.edit t.exceptionCtx ∧
      t'.singleStepRequest =
        t.singleStepRequest.or ((firstStep t.exceptionCtx cs).map stepOver) := by
  obtain ⟨t', rs, hrun, h', hctx, hreq⟩ := runCalls_prepare table h hcs hal
  have hresume : runCalls table [.resume] t' =
      .ok ({ t' with monitorStatus := .resumingProgram }, [(.resume, .done)]) := rfl
  exact ⟨_, _, runCalls_append hrun hresume, h'.congr ⟨rfl, rfl, rfl, rfl⟩, hctx, hreq⟩

/-- What is armed at the resume is what was asked for. -/
structure StepsAsAsked (t : V5Target) (asked : Prop) : Prop where
  requested_iff : t.singleStepRequest.isSome ↔ asked
  trapped_iff : (∃ i, t.hwManager.EnabledAs .mismatching i) ↔ asked
  request : ∀ r, t.singleStepRequest = some r → r = stepOver t.exceptionCtx
  trap : ∀ i, t.hwManager.EnabledAs .mismatching i →
    ∃ k : HwKey, t.hwManager.SlotOf k i ∧ k.addr = t.exceptionCtx.programCounter ∧
      k.thumb = t.exceptionCtx.cpsr.thumb

/-- The hardware holds the trap of the step that was requested, and no other. -/
theorem Ready.trap_iff (h : t.Ready n user lock) :
    (∃ i, t.hwManager.EnabledAs .mismatching i) ↔ t.singleStepRequest.isSome := by
  have htrap := h.accounted.trapsAt
  rw [trapAddr, h.pending, if_neg (by simp)] at htrap
  cases hreq : t.singleStepRequest with
  | none =>
    rw [hreq] at htrap
    refine iff_of_false ?_ (by simp)
    rintro ⟨i, hi⟩
    exact htrap i hi
  | some r =>
    rw [hreq] at htrap
    obtain ⟨k, i, _, hspec, hslot, _⟩ := htrap
    exact iff_of_true ⟨i, hspec ▸ hslot.enabledAs⟩ rfl

theorem Ready.exists_request (h : t.Ready n user lock) {i : Fin 16}
    (hi : t.hwManager.EnabledAs .mismatching i) :
    ∃ r k, t.singleStepRequest = some r ∧ t.hwManager.SlotOf k i ∧ k.addr = r.targetAddr ∧
      k.thumb = r.kind.isThumb := by
  obtain ⟨k, hk, hslot⟩ := h.accounted.exists_trapKey hi
  rw [trapKeys, h.pending, if_neg (by simp), stepKeys, Option.mem_toFinset] at hk
  obtain ⟨r, hreq, hkey⟩ := Option.bind_eq_some_iff.mp hk
  obtain ⟨haddr, hthumb, _⟩ := HwKey.of?_eq_some.mp hkey
  exact ⟨r, k, hreq, hslot, haddr, hthumb⟩

theorem stepsAsAsked_iff (h : t.Ready n user lock) (asked : Prop) :
    t.StepsAsAsked asked ↔
      (t.singleStepRequest.isSome ↔ asked) ∧
        ∀ r, t.singleStepRequest = some r → r = stepOver t.exceptionCtx := by
  constructor
  · exact fun hs => ⟨hs.requested_iff, hs.request⟩
  · rintro ⟨hasked, hctx⟩
    refine ⟨hasked, h.trap_iff.trans hasked, hctx, ?_⟩
    intro i hi
    obtain ⟨r, k, hreq, hslot, haddr, hthumb⟩ := h.exists_request hi
    rw [hctx r hreq] at haddr hthumb
    exact ⟨k, hslot, haddr, hthumb.trans (stepKind_isThumb _)⟩

/-- No step is set up and none is asked for. Or one is asked for after the actions were
last cleared, and the step that was set up first, be it in the stop so far or by the first
step action, is over the instruction at which the program goes on. -/
def StepInForce (t : V5Target) (cs : List TargetCall) : Prop :=
  match t.singleStepRequest with
  | some r => StepAsked cs ∧ r = stepOver (cs.foldl TargetCall.edit t.exceptionCtx)
  | none => (∀ c ∈ cs, c.stepsCurrent = false) ∨
      (StepAsked cs ∧ ∀ ctx, firstStep t.exceptionCtx cs = some ctx →
        stepOver ctx = stepOver (cs.foldl TargetCall.edit t.exceptionCtx))

theorem firstStep_eq_none {ctx : DebugEventContext} {cs : List TargetCall} :
    firstStep ctx cs = none ↔ ∀ c ∈ cs, c.stepsCurrent = false := by
  induction cs generalizing ctx with
  | nil => simp [firstStep]
  | cons c cs ih =>
    rw [firstStep, List.forall_mem_cons, ← @ih (c.edit ctx)]
    cases c.stepsCurrent <;> simp

theorem not_stepAsked_of_none {cs : List TargetCall} (h : ∀ c ∈ cs, c.stepsCurrent = false) :
    ¬StepAsked cs := by
  rintro ⟨before, c, after, rfl, hc, _⟩
  rw [h c (by simp)] at hc
  cases hc

/-- What is armed at the resume is what was asked for exactly under that condition. -/
theorem resume_asked_iff (h : t.Ready n user lock) {cs : List TargetCall}
    (hcs : ∀ c ∈ cs, c.PreparesResume) (hal : StaysAligned t.exceptionCtx cs) :
    (∃ t' replies, runCalls table (cs ++ [.resume]) t = .ok (t', replies) ∧
        t'.StepsAsAsked (StepAsked cs)) ↔ t.StepInForce cs := by
  obtain ⟨t', rs, hrun, h', hctx, hreq⟩ := runCalls_resume table h hcs hal
  have hiff : (∃ t' replies, runCalls table (cs ++ [.resume]) t = .ok (t', replies) ∧
      t'.StepsAsAsked (StepAsked cs)) ↔ t'.StepsAsAsked (StepAsked cs) := by
    constructor
    · rintro ⟨t'', replies, hrun', hsteps⟩
      rw [hrun] at hrun'
      obtain ⟨rfl, _⟩ := Prod.mk.inj (Except.ok.inj hrun')
      exact hsteps
    · exact fun hsteps => ⟨t', rs, hrun, hsteps⟩
  rw [hiff, stepsAsAsked_iff h', hreq, hctx, StepInForce]
  cases t.singleStepRequest with
  | some r => simp
  | none =>
    cases hfirst : firstStep t.exceptionCtx cs with
    | none =>
      have hnone := firstStep_eq_none.mp hfirst
      exact iff_of_true ⟨iff_of_false (by simp) (not_stepAsked_of_none hnone), by simp⟩
        (.inl hnone)
    | some ctx =>
      have hsome : ¬∀ c ∈ cs, c.stepsCurrent = false := by
        rw [← @firstStep_eq_none t.exceptionCtx, hfirst]
        simp
      simp [hsome]

end V5Target

namespace Sys

/-- In every state of the monitor, whatever actions GDB chooses and takes back: the
program is resumed as was asked for if and only if the step in force is the one asked for. -/
theorem resume_actions_scoped_iff (table : TranslationTable) (debugId : BitVec 32)
    (mmio : DebugLogic) (memory : CodeMemory) (exitFunc : Addr) (stopMotorsOnBreak : Bool)
    (session : DebugSession)
    (hboot : DebugSession.boot debugId mmio memory exitFunc stopMotorsOnBreak = .ok session)
    (es : List SysEvent) (s : Sys) (hrun : Run (Step table) (start session) es s)
    (hmon : s.inMonitor = true) (cs : List TargetCall) (hcs : ∀ c ∈ cs, c.PreparesResume)
    (hal : StaysAligned s.session.target.exceptionCtx cs) :
    (∃ t' replies, V5Target.runCalls table (cs ++ [.resume]) s.session.target =
        .ok (t', replies) ∧ t'.StepsAsAsked (StepAsked cs)) ↔
      s.session.target.StepInForce cs :=
  V5Target.resume_asked_iff ((holding_of_run hboot hrun).stopped hmon) hcs hal

/-- An entry is done with the step that led to it. -/
theorem request_of_stop {n : ℕ} {user : Finset HwKey} {lock : Bool} {s s' : Sys}
    {table : TranslationTable} {ctx : DebugEventContext} {status : DebugStatusControl}
    (hhold : s.Holding n user lock) (hstep : Step table s (.stop ctx status) s') :
    s'.session.target.singleStepRequest = none := by
  have hacc := DebugSession.signal_accounted hhold.accounted status
  cases hstep with
  | unattended _ hbegin => exact (DebugSession.beginEvent_ready hacc hbegin).2.1
  | attended _ hbegin => exact (DebugSession.beginEvent_ready hacc hbegin).2.1

/-- In the first stop every list of callbacks that prepare the resume is answered. -/
theorem exists_first_resume (cs : List TargetCall) (hcs : ∀ c ∈ cs, c.PreparesResume)
    (hal : StaysAligned ⟨⟨0⟩, 0, 0, 0, fun _ => 0, fun _ => 0, 0x03900000⟩ cs) :
    ∃ (session : DebugSession) (es : List SysEvent) (s : Sys) (t' : V5Target)
      (replies : List (TargetCall × TargetReply)),
      DebugSession.boot 0 DebugSession.clearedLogic ⟨fun _ => 0, fun _ => 0⟩ 0x03800000 false =
        .ok session ∧
      Run (Step openTable) (start session) es s ∧ s.inMonitor = true ∧
      s.session.target.exceptionCtx = ⟨⟨0⟩, 0, 0, 0, fun _ => 0, fun _ => 0, 0x03900000⟩ ∧
      s.session.target.singleStepRequest = none ∧
      V5Target.runCalls openTable (cs ++ [.resume]) s.session.target = .ok (t', replies) ∧
      ((∃ i, t'.hwManager.EnabledAs .mismatching i) ↔
        (firstStep s.session.target.exceptionCtx cs).isSome) := by
  obtain ⟨session, ctx, s, sw, hboot, hstop, hphase, rfl, hctx, _⟩ := exists_first_stop openTable
  have hmon : s.inMonitor = true := by rw [inMonitor, hphase]
  have hrun := Run.single hstop
  have hreq := request_of_stop (holding_start (DebugSession.booted_of_boot hboot)) hstop
  have hready := (holding_of_run hboot hrun).stopped hmon
  rw [← hctx] at hal
  obtain ⟨t', replies, hcalls, h', _, hreq'⟩ :=
    V5Target.runCalls_resume openTable hready hcs hal
  refine ⟨session, _, s, t', replies, hboot, hrun, hmon, hctx, hreq, hcalls, ?_⟩
  rw [h'.trap_iff, hreq', hreq]
  simp

/-- One step action after the actions were cleared. -/
theorem resume_actions_scoped_step :
    ∃ (s : Sys) (t' : V5Target) (replies : List (TargetCall × TargetReply)),
      V5Target.runCalls openTable
        ([.clearResumeActions, .setResumeActionStep true] ++ [.resume]) s.session.target =
          .ok (t', replies) ∧
      t'.StepsAsAsked (StepAsked [.clearResumeActions, .setResumeActionStep true]) := by
  have hcs : ∀ c ∈ [TargetCall.clearResumeActions, .setResumeActionStep true],
      c.PreparesResume := by simp [TargetCall.PreparesResume]
  have hal : StaysAligned ⟨⟨0⟩, 0, 0, 0, fun _ => 0, fun _ => 0, 0x03900000⟩
      [.clearResumeActions, .setResumeActionStep true] := by decide
  obtain ⟨session, es, s, _, _, hboot, hrun, hmon, hctx, hreq, _⟩ :=
    exists_first_resume _ hcs hal
  refine ⟨s, (resume_actions_scoped_iff openTable _ _ _ _ _ session hboot es s hrun hmon _ hcs
    (hctx ▸ hal)).mpr ?_⟩
  rw [V5Target.StepInForce, hreq]
  refine .inr ⟨⟨[.clearResumeActions], .setResumeActionStep true, [], rfl, rfl, by simp⟩, ?_⟩
  intro ctx hfirst
  obtain rfl := Option.some.inj hfirst
  rfl

/-- A step action is followed by a clear and a continue action: the step is armed still. -/
theorem cleared_step_armed :
    ∃ (session : DebugSession) (es : List SysEvent) (s : Sys) (t' : V5Target)
      (replies : List (TargetCall × TargetReply)),
      DebugSession.boot 0 DebugSession.clearedLogic ⟨fun _ => 0, fun _ => 0⟩ 0x03800000 false =
        .ok session ∧
      Run (Step openTable) (start session) es s ∧ s.inMonitor = true ∧
      s.session.target.PcAligned ∧
      V5Target.runCalls openTable
        ([.clearResumeActions, .setResumeActionStep true, .clearResumeActions,
          .setResumeActionContinue] ++ [.resume]) s.session.target = .ok (t', replies) ∧
      (∃ i, t'.hwManager.EnabledAs .mismatching i) ∧
      ¬StepAsked [.clearResumeActions, .setResumeActionStep true, .clearResumeActions,
        .setResumeActionContinue] := by
  have hcs : ∀ c ∈ [TargetCall.clearResumeActions, .setResumeActionStep true,
      .clearResumeActions, .setResumeActionContinue], c.PreparesResume := by
    simp [TargetCall.PreparesResume]
  obtain ⟨session, es, s, t', replies, hboot, hrun, hmon, hctx, _, hcalls, htrap⟩ :=
    exists_first_resume _ hcs (by decide)
  refine ⟨session, es, s, t', replies, hboot, hrun, hmon, ?_, hcalls, htrap.mpr rfl, ?_⟩
  · show s.session.target.exceptionCtx.PcAligned
    rw [hctx]
    decide
  · intro hasked
    have hlist : [TargetCall.clearResumeActions, .setResumeActionStep true, .clearResumeActions,
        .setResumeActionContinue] = [.clearResumeActions, .setResumeActionStep true] ++
          [.clearResumeActions] ++ [.setResumeActionContinue] := rfl
    rw [hlist, StepAsked, since_snoc, since_snoc] at hasked
    simp [TargetCall.stepsCurrent] at hasked

end Sys
end V5gdb
