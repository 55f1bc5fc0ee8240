import V5gdb.ContextSwitch
import V5gdb.ResumeActions

/-!
What the program notices of a stop.
The context that it is resumed with is the one it stopped with, with the registers that GDB
wrote, and advanced over a hard-coded breakpoint. Together with the switch into the handler
and back, a stop at which GDB writes no register leaves the program's registers alone.
-/
namespace V5gdb

open RecordLayouts Transitions Arm

/-- The context as GDB is shown it. A hard-coded `bkpt` was passed already. -/
inductive Shown (t : V5Target) (ctx : DebugEventContext) : DebugEventContext → Prop
  | asStopped (hreason : (t.prepareEntry ctx).stopReason ≠ .untrackedSoftwareBreak) :
      Shown t ctx ctx
  | passed (hreason : (t.prepareEntry ctx).stopReason = .untrackedSoftwareBreak)
      (instr : Instruction)
      (hread : Instruction.read (t.prepareEntry ctx).memory.data ctx.programCounter
        ctx.cpsr.thumb = .ok instr) :
      Shown t ctx { ctx with
        programCounter := ctx.programCounter + BitVec.ofNat 32 instr.size }

def TargetCall.writesContext : TargetCall → Bool
  | writeRegisters _ => true
  | writeRegister _ _ => true
  | _ => false

def SysEvent.calls : SysEvent → List TargetCall
  | tick _ replies => replies.map Prod.fst
  | _ => []

def edited (ctx : DebugEventContext) (es : List SysEvent) : DebugEventContext :=
  (es.flatMap SysEvent.calls).foldl TargetCall.edit ctx

theorem edited_snoc (ctx : DebugEventContext) (es : List SysEvent) (e : SysEvent) :
    edited ctx (es ++ [e]) = e.calls.foldl TargetCall.edit (edited ctx es) := by
  unfold edited
  rw [List.flatMap_append, List.flatMap_singleton, List.foldl_append]

/-- Without writes to registers there is nothing to resume with but what was shown. -/
theorem edited_of_quiet (ctx : DebugEventContext) {es : List SysEvent}
    (hquiet : ∀ e ∈ es, ∀ c ∈ e.calls, c.writesContext = false) : edited ctx es = ctx := by
  have hcalls : ∀ c ∈ es.flatMap SysEvent.calls, c.writesContext = false := by
    intro c hc
    obtain ⟨e, he, hc⟩ := List.mem_flatMap.mp hc
    exact hquiet e he c hc
  unfold edited
  generalize es.flatMap SysEvent.calls = calls at hcalls
  induction calls generalizing ctx with
  | nil => rfl
  | cons c cs ih =>
    obtain ⟨hc, hcs⟩ := List.forall_mem_cons.mp hcalls
    have hsame : c.edit ctx = ctx := by
      cases c with
      | writeRegisters | writeRegister => cases hc
      | _ => rfl
    rw [List.foldl_cons, hsame]
    exact ih ctx hcs

namespace V5Target

variable {t t' : V5Target} {table : TranslationTable}

theorem enterBreakpoint_shown {ctx : DebugEventContext} {suspends : Bool}
    (h : t.enterBreakpoint ctx = .ok (t', suspends)) : Shown t ctx t'.exceptionCtx := by
  obtain ⟨t₁, hstep, h⟩ := Exec.bind_ok.mp h
  obtain ⟨t₂, hinterrupt, h⟩ := Exec.bind_ok.mp h
  obtain ⟨t₃, hfixup, h⟩ := Exec.bind_ok.mp h
  obtain ⟨rfl, _⟩ := Prod.mk.inj (Except.ok.inj h)
  obtain ⟨_, _, rfl⟩ := finalizeSingleStep_frame hstep
  obtain ⟨_, _, rfl⟩ := finalizeInterrupt_frame hinterrupt
  unfold fixupManualBkpt at hfixup
  split_ifs at hfixup with hreason
  · obtain ⟨instr, hread, hfixup⟩ := Exec.bind_ok.mp hfixup
    obtain rfl := Except.ok.inj hfixup
    exact .passed hreason instr hread
  · obtain rfl := Except.ok.inj hfixup
    exact .asStopped hreason

theorem applyCall_context {c : TargetCall} {r : TargetReply}
    (h : t.applyCall table c = .ok (t', r)) : t'.exceptionCtx = c.edit t.exceptionCtx := by
  cases c with
  | addSwBreakpoint addr kind =>
    obtain ⟨⟨t₁, b⟩, hadd, h⟩ := Exec.bind_ok.mp h
    obtain ⟨⟨sw, r'⟩, _, hadd⟩ := Exec.bind_ok.mp hadd
    obtain ⟨rfl, _⟩ := Prod.mk.inj (Except.ok.inj hadd)
    obtain ⟨rfl, _⟩ := Prod.mk.inj (Except.ok.inj h)
    rfl
  | addHwBreakpoint addr kind =>
    obtain ⟨⟨t₁, b⟩, hadd, h⟩ := Exec.bind_ok.mp h
    obtain ⟨rfl, _⟩ := Prod.mk.inj (Except.ok.inj h)
    obtain ⟨hw, rfl⟩ := addHwBreakpoint_frame hadd
    rfl
  | removeHwBreakpoint addr kind =>
    obtain ⟨⟨t₁, b⟩, hrem, h⟩ := Exec.bind_ok.mp h
    obtain ⟨rfl, _⟩ := Prod.mk.inj (Except.ok.inj h)
    obtain ⟨hw, rfl⟩ := removeHwBreakpoint_frame hrem
    rfl
  | step =>
    obtain ⟨t₁, hstep, h⟩ := Exec.bind_ok.mp h
    obtain ⟨rfl, _⟩ := Prod.mk.inj (Except.ok.inj h)
    obtain ⟨hw, request, rfl⟩ := mustStep_frame hstep
    rfl
  | setResumeActionStep current =>
    cases current with
    | false => cases h
    | true =>
      obtain ⟨t₁, hstep, h⟩ := Exec.bind_ok.mp h
      obtain ⟨rfl, _⟩ := Prod.mk.inj (Except.ok.inj h)
      obtain ⟨hw, request, rfl⟩ := mustStep_frame hstep
      rfl
  | _ =>
    obtain ⟨rfl, _⟩ := Prod.mk.inj (Except.ok.inj h)
    rfl

theorem runCalls_context {calls : List TargetCall} {replies : List (TargetCall × TargetReply)}
    (h : runCalls table calls t = .ok (t', replies)) :
    t'.exceptionCtx = (replies.map Prod.fst).foldl TargetCall.edit t.exceptionCtx := by
  induction calls generalizing t replies with
  | nil =>
    obtain ⟨rfl, rfl⟩ := Prod.mk.inj (Except.ok.inj h)
    rfl
  | cons c cs ih =>
    obtain ⟨t₁, r, rs, happ, hrest, rfl⟩ := runCalls_cons h
    rw [ih hrest, applyCall_context happ]
    rfl

end V5Target

namespace DebugSession

variable {s s' : DebugSession} {table : TranslationTable}

theorem beginEvent_shown {ctx : DebugEventContext} {suspends : Bool} {gdb? : Option GdbState}
    (h : s.beginEvent ctx = .ok (s', suspends, gdb?)) :
    Shown s.target ctx s'.target.exceptionCtx := by
  obtain ⟨t, s₁, action, henter, hstop, hcase⟩ := beginEvent_ok h
  have hs₁ : s₁.target.exceptionCtx = t.exceptionCtx := by
    have hout := handleStop_outcome hstop
    generalize t.stopReason = reason at hout
    cases hout <;> rfl
  have hshown := V5Target.enterBreakpoint_shown henter
  rw [← hs₁] at hshown
  rcases hcase with ⟨_, _, rfl⟩ | ⟨_, gdb, _, hopen⟩
  · exact hshown
  · rw [openConsole_target hopen]
    exact hshown

theorem tick_context {gdb gdb' : GdbState} {t t' : V5Target} {input : GdbInput}
    {replies : List (TargetCall × TargetReply)}
    (h : tickStateMachine table gdb t input = .ok (gdb', t', replies)) :
    t'.exceptionCtx =
      (SysEvent.tick input replies).calls.foldl TargetCall.edit t.exceptionCtx := by
  cases tick_outcome h with
  | packet calls next t' replies hrun => exact V5Target.runCalls_context hrun
  | _ => rfl

end DebugSession

namespace Sys

variable {s s' : Sys} {table : TranslationTable} {ctx : DebugEventContext}

inductive Holds (ctx : DebugEventContext) (s : Sys) : Prop
  | open (gdb : GdbState) (hphase : s.phase = .monitor gdb)
      (hctx : s.session.target.exceptionCtx = ctx)
  | left (unpause : Bool) (hphase : s.phase = .returning unpause) (hctx : s.resumed = ctx)

theorem holds_of_stop {status : DebugStatusControl} (hstep : Step table s (.stop ctx status) s') :
    ∃ shown, Shown (s.session.signal status).target ctx shown ∧ s'.Holds shown := by
  cases hstep with
  | unattended _ hbegin => exact ⟨_, DebugSession.beginEvent_shown hbegin, .left _ rfl rfl⟩
  | attended _ hbegin => exact ⟨_, DebugSession.beginEvent_shown hbegin, .open _ rfl rfl⟩

theorem Holds.step {e : SysEvent} (h : s.Holds ctx) (hstep : Step table s e s')
    (hreturn : e ≠ .return) : s'.Holds (e.calls.foldl TargetCall.edit ctx) := by
  cases hstep with
  | unattended hprogram | attended hprogram | run hprogram =>
    cases h with
    | «open» gdb hphase => cases hprogram.symm.trans hphase
    | left unpause hphase => cases hprogram.symm.trans hphase
  | tick hmonitor htick =>
    cases h with
    | «open» gdb hphase hctx =>
      refine .open _ rfl ?_
      rw [← hctx]
      exact DebugSession.tick_context htick
    | left unpause hphase => cases hmonitor.symm.trans hphase
  | lastTick hmonitor htick =>
    cases h with
    | «open» gdb hphase hctx =>
      refine .left _ rfl ?_
      rw [← hctx]
      exact DebugSession.tick_context htick
    | left unpause hphase => cases hmonitor.symm.trans hphase
  | «return» => exact absurd rfl hreturn
  | poll hmonitor hpoll =>
    cases h with
    | «open» gdb hphase hctx =>
      rw [inMonitor, hphase] at hmonitor
      cases hmonitor
    | left unpause hphase hctx => exact .left unpause hphase hctx
  | pollBusy => exact h

theorem Holds.run {es : List SysEvent} (h : s.Holds ctx) (hrun : Run (Step table) s es s')
    (hreturn : .return ∉ es) : s'.Holds (edited ctx es) := by
  have hinv := hrun.invariant (P := fun es t => .return ∉ es → t.Holds (edited ctx es))
    (fun _ => h) (by
      intro es t e t' ht hstep hnot
      rw [List.mem_append, List.mem_singleton, not_or] at hnot
      rw [edited_snoc]
      exact (ht hnot.1).step hstep (fun he => hnot.2 he.symm))
  exact hinv hreturn

end Sys

namespace Arm.State

/-- Returning to an address that the instruction set has does not change it. -/
theorem branchTarget_of_aligned {status address : BitVec 32}
    (h : Instruction.AlignedFor (ProgramStatus.mk status).thumb address) :
    branchTarget status address = address := by
  have hthumb : (ProgramStatus.mk status).thumb = status.getLsbD 5 := by
    have hbit : (Bitfields.field 5 1 status).getLsbD 0 = status.getLsbD 5 := by
      rw [Bitfields.getLsbD_field]
      simp
    rw [ProgramStatus.thumb, ← hbit]
    generalize Bitfields.field 5 1 status = x
    revert x
    decide
  rw [hthumb] at h
  unfold branchTarget Instruction.AlignedFor at *
  cases hset : status.getLsbD 5 with
  | true =>
    rw [hset] at h
    simp only [if_true] at h ⊢
    apply BitVec.eq_of_toNat_eq
    rw [Bitfields.toNat_clear_low address 1 (by decide : ∀ i < 32, _ = decide (i < 1))]
    omega
  | false =>
    rw [hset] at h
    simp only [Bool.false_eq_true, if_false] at h ⊢
    split_ifs
    · rfl
    · apply BitVec.eq_of_toNat_eq
      rw [Bitfields.toNat_clear_low address 3 (by decide : ∀ i < 32, _ = decide (i < 2))]
      omega

end Arm.State

/-- After an instruction comes an address that its instruction set has. -/
theorem Instruction.aligned_next {m : ByteMemory.Mem 32} {addr : Addr} {thumb : Bool}
    {instr : Instruction} (hread : Instruction.read m addr thumb = .ok instr) :
    Instruction.AlignedFor thumb (addr + BitVec.ofNat 32 instr.size) := by
  obtain ⟨haligned, hthumb, _⟩ := Instruction.read_spec hread
  unfold Instruction.AlignedFor at *
  have hsize : instr.size % (if thumb then 2 else 4) = 0 := by
    subst hthumb
    cases instr <;> simp [Instruction.size, Instruction.isThumb]
  rw [BitVec.toNat_add, BitVec.toNat_ofNat]
  have hle := instr.size_le
  cases thumb <;> simp only [Bool.false_eq_true, if_true, if_false] at * <;> omega

def AbortKind.context (kind : AbortKind) (cpu : State) : DebugEventContext :=
  let saved := CatchDebugEvent.save (kind.vector (kind.entry cpu)).2
  DebugEventContext.recordAt saved.mem (saved.gpr r0)

/-- The program goes on at `pc` with every register as it left it. -/
structure GoesOn (cpu : State) (pc : Addr) (cpu' : State) : Prop where
  gpr : cpu'.gpr = cpu.gpr
  sp : cpu'.currentSp = cpu.currentSp
  lr : cpu'.currentLr = cpu.currentLr
  pc : cpu'.pc = pc
  fpscr : cpu'.fpscr = cpu.fpscr
  d : cpu'.d = cpu.d
  cpsr : cpu'.cpsr = cpu.cpsr

def SparesAbortStack (b : Build) (cpu : State) (c : DebugEventContext) : Prop :=
  b.freertos = true →
    ByteMemory.Disjoint (CatchDebugEvent.callPlace c) 8 (cpu.sp .abort - 316) 316

variable {b : Build} {kind : AbortKind} {cpu cpu' : State} {t : V5Target}
  {shown : DebugEventContext} {resume : Bool}

theorem Shown.eq_withPc (h : Shown t (interrupted cpu) shown) :
    shown = { interrupted cpu with programCounter := shown.programCounter } := by
  cases h with
  | asStopped => rfl
  | passed => rfl

theorem Shown.aligned (h : Shown t (interrupted cpu) shown) (hpc : (interrupted cpu).PcAligned) :
    shown.PcAligned := by
  cases h with
  | asStopped => exact hpc
  | passed _ instr hread => exact Instruction.aligned_next hread

theorem Shown.ofProgram (h : Shown t (interrupted cpu) shown) (hprogram : InProgram cpu)
    (hpc : (interrupted cpu).PcAligned) (hstack : SparesAbortStack b cpu (interrupted cpu)) :
    OfProgram b cpu shown resume := by
  have hcpsr : shown.cpsr = ⟨cpu.cpsr⟩ := by
    rw [h.eq_withPc]
    rfl
  constructor
  case mode =>
    rw [hcpsr]
    exact hprogram
  case pc =>
    rw [hcpsr, StatusFields.merge_self]
    have haligned := h.aligned hpc
    rw [DebugEventContext.PcAligned, hcpsr] at haligned
    exact State.branchTarget_of_aligned haligned
  case stack =>
    intro hbuild _
    rw [h.eq_withPc]
    exact hstack hbuild

theorem Shown.goesOn {fields : StatusFields} (h : Shown t (interrupted cpu) shown)
    (hrestored : Restored fields cpu shown cpu') : GoesOn cpu shown.programCounter cpu' := by
  generalize hnext : shown.programCounter = next
  have heq := h.eq_withPc
  rw [hnext] at heq
  subst heq
  constructor
  case gpr => exact hrestored.gpr
  case sp => exact hrestored.sp
  case lr => exact hrestored.lr
  case pc => exact hrestored.pc
  case fpscr => exact hrestored.fpscr
  case d => exact hrestored.d
  case cpsr =>
    apply BitVec.eq_of_getLsbD_eq
    intro i _
    exact hrestored.cpsr i (.inr rfl)

structure GivesBack (b : Build) (cpu : State) (shown : DebugEventContext) (during : List SysEvent)
    (resume : Bool) (cpu' : State) : Prop where
  abortStack : cpu'.sp .abort = cpu.sp .abort
  written : OfProgram b cpu (edited shown during) resume →
    Restored b.fields cpu (edited shown during) cpu'
  unwritten : (∀ e ∈ during, ∀ c ∈ e.calls, c.writesContext = false) →
    (interrupted cpu).PcAligned →
    SparesAbortStack b cpu (interrupted cpu) → GoesOn cpu shown.programCounter cpu'

/-- Whatever happens during a stop, the program that is interrupted by it goes on with
its own registers, but for those that GDB wrote and a hard-coded breakpoint that it
is moved over. -/
theorem stops_are_transparent (table : TranslationTable) (b : Build) (kind : AbortKind)
    (cpu cpu' : State) (hprogram : InProgram cpu) (s s₁ s₂ : Sys) (status : DebugStatusControl)
    (hstop : Sys.Step table s (.stop (kind.context cpu) status) s₁) (during : List SysEvent)
    (hduring : Run (Sys.Step table) s₁ during s₂) (hreturn : .return ∉ during)
    (unpause : Bool) (hphase : s₂.phase = .returning unpause)
    (hevent : DebugEvent b kind cpu s₂.resumed unpause cpu') :
    ∃ shown, Shown (s.session.signal status).target (interrupted cpu) shown ∧
      s₂.resumed = edited shown during ∧ GivesBack b cpu shown during unpause cpu' := by
  have hcaught := caught_of_vector hevent.1
  obtain ⟨_, _, _, _, hrecord⟩ := CatchDebugEvent.save_spec hcaught.bank
  have hcontext : kind.context cpu = interrupted cpu := hrecord.trans (hcaught.saved hprogram)
  rw [hcontext] at hstop
  obtain ⟨shown, hshown, hholds⟩ := Sys.holds_of_stop hstop
  have hresumed : s₂.resumed = edited shown during := by
    cases hholds.run hduring hreturn with
    | «open» gdb hopen => cases hphase.symm.trans hopen
    | left _ _ hctx => exact hctx
  rw [hresumed] at hevent
  refine ⟨shown, hshown, hresumed, hevent.abortStack, hevent.restored hprogram, ?_⟩
  intro hquiet hpc hstack
  rw [edited_of_quiet shown hquiet] at hevent
  exact hshown.goesOn (hevent.restored hprogram (hshown.ofProgram hprogram hpc hstack))

/-- GDB looks at a program in User mode and resumes it. -/
theorem stops_are_transparent_resume :
    ∃ s s₁ s₂ unpause cpu', Sys.Step ⟨fun _ => ⟨0⟩⟩ s
        (.stop (AbortKind.prefetch.context atBreakpoint) ⟨0⟩) s₁ ∧
      Run (Sys.Step ⟨fun _ => ⟨0⟩⟩) s₁
        [.tick (.packet [.resume] .idle) [(.resume, .done)]] s₂ ∧
      DebugEvent ⟨true, ⟨true, true, true, true⟩⟩ .prefetch atBreakpoint s₂.resumed unpause
        cpu' ∧ GoesOn atBreakpoint 0x8000 cpu' := by
  obtain ⟨session, hboot⟩ := DebugSession.exists_boot_one_slot
  have hbooted := DebugSession.booted_of_boot hboot
  obtain ⟨s₁, gdb, hstop, hphase₁, _, _, hgdb⟩ := (Sys.holding_start hbooted).exists_stop rfl
    (by simp [Sys.start, hbooted.stage]) ⟨fun _ => ⟨0⟩⟩
    (AbortKind.prefetch.context atBreakpoint) ⟨0⟩ (by decide) (by decide)
  obtain rfl := hgdb hbooted.stage
  have hcalls : V5Target.runCalls ⟨fun _ => ⟨0⟩⟩ [.resume] s₁.session.target =
      .ok ({ s₁.session.target with monitorStatus := .resumingProgram }, [(.resume, .done)]) :=
    rfl
  obtain ⟨s₂, unpause, htick, hphase₂, _⟩ := Sys.exists_lastTick hphase₁ hcalls rfl
  obtain ⟨cpu', hevent⟩ := exists_debugEvent ⟨true, ⟨true, true, true, true⟩⟩
    atBreakpoint_caught s₂.resumed unpause
  obtain ⟨shown, hshown, _, hback⟩ := stops_are_transparent _ _ _ _ _ (.inl (by decide)) _ _ _ _
    hstop _ (.single htick) (by simp) _ hphase₂ hevent
  refine ⟨_, s₁, s₂, unpause, cpu', hstop, .single htick, hevent, ?_⟩
  have hpc : shown.programCounter = 0x8000 := by
    cases hshown with
    | asStopped => rfl
    | passed hreason =>
      have hmethod : ((Sys.start session).session.signal ⟨0⟩).target.hwManager.lastBreakReason =
          (⟨0⟩ : DebugStatusControl).methodOfEntry := rfl
      have hother := @DebugSession.prepareEntry_other
        ((Sys.start session).session.signal ⟨0⟩).target (interrupted atBreakpoint)
        (by rw [hmethod]; decide) (by rw [hmethod]; decide)
      cases hother.symm.trans hreason
  rw [← hpc]
  have hstack : SparesAbortStack ⟨true, ⟨true, true, true, true⟩⟩ atBreakpoint
      (interrupted atBreakpoint) :=
    fun _ => (ByteMemory.disjoint_of_toNat_le (by decide) (by decide)).symm
  refine hback.unwritten ?_ (by decide) hstack
  intro e he c hc
  obtain rfl := List.mem_singleton.mp he
  obtain rfl := List.mem_singleton.mp hc
  rfl

end V5gdb
