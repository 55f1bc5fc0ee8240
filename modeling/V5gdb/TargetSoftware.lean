import V5gdb.StepAndHalt

/-!
What the system does to the software breakpoints and the memory under them.
Every function of the target reaches them through the operations of the table or
through GDB's writes, and the program through its own. A property that these keep
is therefore kept by every step of the system.
-/
namespace V5gdb

open RecordLayouts

structure SwState.Keeps (P : SwState → Prop) (paused : Bool) (s : SwState) : Prop where
  table : s.TableInv
  paused : s.breaksPaused = paused
  holds : P s

/-- A property that survives the operations of the table, the callbacks that `Ok`
admits and what the program may do to memory. -/
structure KeptByStops (table : TranslationTable) (Ok : TargetCall × TargetReply → Prop)
    (Foreign : SwState → CodeMemory → Prop) (P : SwState → Prop) : Prop where
  pause : ∀ (s : SwState) (ignored : Bool), s.TableInv → P s →
    P (s.setBreakpointsIgnored ignored)
  remove : ∀ (s s' : SwState) (addr : Addr) (internal r : Bool), s.Keeps P true →
    s.removeSwBreakpoint addr internal = (s', r) → P s'
  register : ∀ (s s' : SwState) (addr : Addr) (thumb : Bool) (r : Except BreakpointError Unit),
    s.Keeps P true → s.registerSwBreakpoint addr thumb false = .ok (s', r) → P s'
  write : ∀ (s : SwState) (addr : Addr) (data : Bytes) (memory : CodeMemory),
    writeMemory table s.memory addr data = (memory, true) →
    Ok (.writeAddrs addr data, .written (.ok ())) → s.Keeps P true → P { s with memory := memory }
  run : ∀ (s : SwState) (memory : CodeMemory), Foreign s memory → s.Keeps P false →
    P { s with memory := memory }

theorem SwState.TableInv.setMemory {s : SwState} (h : s.TableInv) (memory : CodeMemory) :
    ({ s with memory } : SwState).TableInv := ⟨h.distinct, h.wanted, h.enabled⟩

namespace KeptByStops

section Operations

variable {table : TranslationTable} {Ok : TargetCall × TargetReply → Prop} {P : SwState → Prop}
  {Foreign : SwState → CodeMemory → Prop} (hP : KeptByStops table Ok Foreign P)
  {s s' : SwState} {addr : Addr} {internal b : Bool}

include hP

theorem keeps_pause (h : s.Keeps P b) (ignored : Bool) :
    (s.setBreakpointsIgnored ignored).Keeps P ignored :=
  ⟨SwState.setBreakpointsIgnored_tableInv h.table ignored,
    SwState.setBreakpointsIgnored_breaksPaused .., hP.pause s ignored h.table h.holds⟩

theorem keeps_remove {r : Bool} (h : s.Keeps P true)
    (hrem : s.removeSwBreakpoint addr internal = (s', r)) : s'.Keeps P true :=
  ⟨SwState.remove_tableInv h.table hrem,
    (SwState.remove_breaksPaused h.table hrem).trans h.paused,
    hP.remove s s' addr internal r h hrem⟩

theorem keeps_register {thumb : Bool} {r : Except BreakpointError Unit} (h : s.Keeps P true)
    (hreg : s.registerSwBreakpoint addr thumb false = .ok (s', r)) : s'.Keeps P true :=
  ⟨SwState.register_tableInv h.table hreg,
    (SwState.register_breaksPaused hreg).trans h.paused, hP.register s s' addr thumb r h hreg⟩

theorem keeps_write {data : Bytes} {memory : CodeMemory}
    (hwrite : writeMemory table s.memory addr data = (memory, true))
    (hok : Ok (.writeAddrs addr data, .written (.ok ()))) (h : s.Keeps P true) :
    ({ s with memory } : SwState).Keeps P true :=
  ⟨h.table.setMemory memory, h.paused, hP.write s addr data memory hwrite hok h⟩

theorem keeps_run {memory : CodeMemory} (hforeign : Foreign s memory) (h : s.Keeps P false) :
    ({ s with memory } : SwState).Keeps P false :=
  ⟨h.table.setMemory _, h.paused, hP.run s memory hforeign h⟩

end Operations

end KeptByStops

namespace V5Target

variable {n : ℕ} {user : Finset HwKey} {t t' : V5Target}

theorem requestSingleStep_frame {r : Except BreakpointError Unit}
    (h : t.requestSingleStep = .ok (t', r)) :
    ∃ hw request, t' = { t with hwManager := hw, singleStepRequest := request } := by
  unfold requestSingleStep at h
  split_ifs at h
  · obtain ⟨rfl, _⟩ := Prod.mk.inj (Except.ok.inj h)
    exact ⟨_, _, rfl⟩
  · obtain ⟨⟨hw, r'⟩, _, h⟩ := Exec.bind_ok.mp h
    cases r' with
    | error e =>
      obtain ⟨rfl, _⟩ := Prod.mk.inj (Except.ok.inj h)
      exact ⟨_, _, rfl⟩
    | ok u =>
      obtain ⟨rfl, _⟩ := Prod.mk.inj (Except.ok.inj h)
      exact ⟨_, _, rfl⟩

theorem mustStep_frame (h : t.mustStep = .ok t') :
    ∃ hw request, t' = { t with hwManager := hw, singleStepRequest := request } := by
  obtain ⟨⟨t₁, r⟩, hreq, h⟩ := Exec.bind_ok.mp h
  cases r with
  | error e => cases h
  | ok u =>
    obtain rfl := Except.ok.inj h
    exact requestSingleStep_frame hreq

theorem addHwBreakpoint_frame {addr : Addr} {kind : ArmBreakpointKind} {b : Bool}
    (h : t.addHwBreakpoint addr kind = .ok (t', b)) : ∃ hw, t' = { t with hwManager := hw } := by
  obtain ⟨available, _, h⟩ := Exec.bind_ok.mp h
  split_ifs at h
  · obtain ⟨rfl, _⟩ := Prod.mk.inj (Except.ok.inj h)
    exact ⟨_, rfl⟩
  · obtain ⟨⟨hw, r⟩, _, h⟩ := Exec.bind_ok.mp h
    obtain ⟨rfl, _⟩ := Prod.mk.inj (Except.ok.inj h)
    exact ⟨hw, rfl⟩

theorem removeHwBreakpoint_frame {addr : Addr} {kind : ArmBreakpointKind} {b : Bool}
    (h : t.removeHwBreakpoint addr kind = .ok (t', b)) :
    ∃ hw, t' = { t with hwManager := hw } := by
  obtain ⟨⟨hw, r⟩, _, h⟩ := Exec.bind_ok.mp h
  obtain ⟨rfl, _⟩ := Prod.mk.inj (Except.ok.inj h)
  exact ⟨hw, rfl⟩

theorem requestInterrupt_frame (h : t.requestInterrupt = .ok t') :
    ∃ hw pending, t' = { t with hwManager := hw, interruptPending := pending } := by
  unfold requestInterrupt at h
  split_ifs at h
  · obtain rfl := Except.ok.inj h
    exact ⟨_, _, rfl⟩
  · obtain ⟨hw, _, h⟩ := Exec.bind_ok.mp h
    obtain ⟨⟨hw', r⟩, _, h⟩ := Exec.bind_ok.mp h
    cases r with
    | error e => cases h
    | ok u =>
      obtain rfl := Except.ok.inj h
      exact ⟨_, _, rfl⟩

theorem finalizeSingleStep_frame (h : t.finalizeSingleStep = .ok t') :
    ∃ hw request, t' = { t with hwManager := hw, singleStepRequest := request } := by
  unfold finalizeSingleStep at h
  split at h
  · obtain rfl := Except.ok.inj h
    exact ⟨_, _, rfl⟩
  · obtain ⟨⟨hw, r⟩, _, h⟩ := Exec.bind_ok.mp h
    obtain rfl := Except.ok.inj h
    exact ⟨_, _, rfl⟩

theorem finalizeInterrupt_frame (h : t.finalizeInterrupt = .ok t') :
    ∃ hw pending, t' = { t with hwManager := hw, interruptPending := pending } := by
  unfold finalizeInterrupt at h
  split_ifs at h
  · obtain ⟨⟨hw, r⟩, _, h⟩ := Exec.bind_ok.mp h
    obtain rfl := Except.ok.inj h
    exact ⟨_, _, rfl⟩
  · obtain rfl := Except.ok.inj h
    exact ⟨_, _, rfl⟩

inductive CallEffect (table : TranslationTable) (t : V5Target) :
    TargetCall → TargetReply → V5Target → Prop
  | context {c : TargetCall} {r : TargetReply} (hc : c.resumes = false)
      (ctx : DebugEventContext) : CallEffect table t c r { t with exceptionCtx := ctx }
  | hardware {c : TargetCall} {r : TargetReply} (hc : c.resumes = false)
      (hw : HwBreakpointManager) (request : Option SingleStepRequest) :
      CallEffect table t c r { t with hwManager := hw, singleStepRequest := request }
  | resumed {c : TargetCall} {r : TargetReply} (hc : c.resumes = true) (hw : HwBreakpointManager)
      (request : Option SingleStepRequest) :
      CallEffect table t c r { t with
        hwManager := hw, singleStepRequest := request, monitorStatus := .resumingProgram }
  | register (addr : Addr) (kind : ArmBreakpointKind) (sw : SwState)
      (r : Except BreakpointError Unit)
      (hreg : t.toSwState.registerSwBreakpoint addr kind.isThumb false = .ok (sw, r)) :
      CallEffect table t (.addSwBreakpoint addr kind) (.accepted r.isOk)
        { t with toSwState := sw }
  | remove (addr : Addr) (kind : ArmBreakpointKind) (sw : SwState) (b : Bool)
      (hrem : t.toSwState.removeSwBreakpoint addr false = (sw, b)) :
      CallEffect table t (.removeSwBreakpoint addr kind) (.accepted b) { t with toSwState := sw }
  | write (addr : Addr) (data : Bytes) (memory : CodeMemory)
      (hwrite : writeMemory table t.memory addr data = (memory, true)) :
      CallEffect table t (.writeAddrs addr data) (.written (.ok ())) { t with memory := memory }
  | autostop {r : TargetReply} (enabled : Bool) :
      CallEffect table t (.autostop enabled) r { t with stopMotorsOnBreak := enabled }

theorem applyCall_effect {table : TranslationTable} {c : TargetCall} {r : TargetReply}
    (h : t.applyCall table c = .ok (t', r)) : CallEffect table t c r t' := by
  cases c with
  | addSwBreakpoint addr kind =>
    obtain ⟨⟨t₁, b⟩, hadd, h⟩ := Exec.bind_ok.mp h
    obtain ⟨⟨sw, r'⟩, hreg, hadd⟩ := Exec.bind_ok.mp hadd
    obtain ⟨rfl, rfl⟩ := Prod.mk.inj (Except.ok.inj hadd)
    obtain ⟨rfl, rfl⟩ := Prod.mk.inj (Except.ok.inj h)
    exact .register addr kind sw r' hreg
  | removeSwBreakpoint addr kind =>
    obtain ⟨rfl, rfl⟩ := Prod.mk.inj (Except.ok.inj h)
    exact .remove addr kind _ _ rfl
  | writeAddrs addr data =>
    cases hwrite : writeMemory table t.memory addr data with
    | mk memory written =>
      simp only [applyCall, writeAddrs, hwrite] at h
      obtain ⟨rfl, rfl⟩ := Prod.mk.inj (Except.ok.inj h)
      cases written with
      | true => exact .write addr data memory hwrite
      | false =>
        obtain rfl := writeMemory_refused hwrite
        exact .context rfl t.exceptionCtx
  | addHwBreakpoint addr kind =>
    obtain ⟨⟨t₁, b⟩, hadd, h⟩ := Exec.bind_ok.mp h
    obtain ⟨rfl, _⟩ := Prod.mk.inj (Except.ok.inj h)
    obtain ⟨hw, rfl⟩ := addHwBreakpoint_frame hadd
    exact .hardware rfl hw t.singleStepRequest
  | removeHwBreakpoint addr kind =>
    obtain ⟨⟨t₁, b⟩, hrem, h⟩ := Exec.bind_ok.mp h
    obtain ⟨rfl, _⟩ := Prod.mk.inj (Except.ok.inj h)
    obtain ⟨hw, rfl⟩ := removeHwBreakpoint_frame hrem
    exact .hardware rfl hw t.singleStepRequest
  | resume =>
    obtain ⟨rfl, _⟩ := Prod.mk.inj (Except.ok.inj h)
    exact .resumed rfl t.hwManager t.singleStepRequest
  | step =>
    obtain ⟨t₁, hstep, h⟩ := Exec.bind_ok.mp h
    obtain ⟨rfl, _⟩ := Prod.mk.inj (Except.ok.inj h)
    obtain ⟨hw, request, rfl⟩ := mustStep_frame hstep
    exact .resumed rfl hw request
  | setResumeActionStep current =>
    cases current with
    | false => cases h
    | true =>
      obtain ⟨t₁, hstep, h⟩ := Exec.bind_ok.mp h
      obtain ⟨rfl, _⟩ := Prod.mk.inj (Except.ok.inj h)
      obtain ⟨hw, request, rfl⟩ := mustStep_frame hstep
      exact .hardware rfl hw request
  | autostop enabled =>
    obtain ⟨rfl, _⟩ := Prod.mk.inj (Except.ok.inj h)
    exact .autostop enabled
  | _ =>
    obtain ⟨rfl, _⟩ := Prod.mk.inj (Except.ok.inj h)
    exact .context rfl _

/-- Only a resuming callback changes the status. -/
theorem applyCall_status {table : TranslationTable} {c : TargetCall} {r : TargetReply}
    (h : t.applyCall table c = .ok (t', r)) :
    t'.monitorStatus = if c.resumes then .resumingProgram else t.monitorStatus := by
  cases applyCall_effect h with
  | context hc => rw [hc]; rfl
  | hardware hc => rw [hc]; rfl
  | resumed hc => rw [hc]; rfl
  | _ => rfl

/-- What an entry leaves of the software breakpoints, the status and the context. -/
theorem enterBreakpoint_sw {ctx : DebugEventContext} {suspends : Bool}
    (h : t.Accounted n user) (henter : t.enterBreakpoint ctx = .ok (t', suspends)) :
    t'.toSwState = t.toSwState.setBreakpointsIgnored true ∧ t'.monitorStatus = .active ∧
      t'.stopReason = (t.prepareEntry ctx).stopReason ∧
      (t'.stopReason ≠ .untrackedSoftwareBreak → t'.exceptionCtx = ctx) := by
  rcases enterBreakpoint_cases h ctx with ⟨_, herr, _⟩ | ⟨hw, ctx', hok, hctx, _⟩
  · rw [herr] at henter
    cases henter
  · rw [hok] at henter
    obtain ⟨rfl, _⟩ := Prod.mk.inj (Except.ok.inj henter)
    exact ⟨rfl, rfl, rfl, hctx⟩

end V5Target

theorem DebugSession.poll_frame {s s' : DebugSession} {pending : Bytes}
    (h : s.poll pending = .ok s') : ∃ hw interruptPending, s' = { s with
      target := { s.target with hwManager := hw, interruptPending := interruptPending } } := by
  unfold poll at h
  split_ifs at h
  · obtain ⟨t, hreq, h⟩ := Exec.bind_ok.mp h
    obtain rfl := Except.ok.inj h
    obtain ⟨hw, interruptPending, rfl⟩ := V5Target.requestInterrupt_frame hreq
    exact ⟨hw, interruptPending, rfl⟩
  · obtain rfl := Except.ok.inj h
    exact ⟨_, _, rfl⟩
  · obtain rfl := Except.ok.inj h
    exact ⟨_, _, rfl⟩

def Admits (Ok : TargetCall × TargetReply → Prop) (Foreign : SwState → CodeMemory → Prop)
    (s : Sys) : SysEvent → Prop
  | .tick _ replies => ∀ p ∈ replies, Ok p
  | .run memory => Foreign s.session.target.toSwState memory
  | _ => True

namespace KeptByStops

variable {table : TranslationTable} {Ok : TargetCall × TargetReply → Prop} {P : SwState → Prop}
  {Foreign : SwState → CodeMemory → Prop} (hP : KeptByStops table Ok Foreign P)
  {n : ℕ} {user : Finset HwKey} {lock : Bool}

include hP

section Target

variable {t t' : V5Target}

theorem applyCall {c : TargetCall} {r : TargetReply} (h : t.toSwState.Keeps P true)
    (happ : t.applyCall table c = .ok (t', r)) (hok : Ok (c, r)) :
    t'.toSwState.Keeps P true := by
  cases V5Target.applyCall_effect happ with
  | register addr kind sw r' hreg => exact hP.keeps_register h hreg
  | remove addr kind sw b hrem => exact hP.keeps_remove h hrem
  | write addr data memory hwrite => exact hP.keeps_write hwrite hok h
  | _ => exact h

theorem runCalls {calls : List TargetCall} {replies : List (TargetCall × TargetReply)}
    (h : t.toSwState.Keeps P true) (hrun : V5Target.runCalls table calls t = .ok (t', replies))
    (hok : ∀ p ∈ replies, Ok p) : t'.toSwState.Keeps P true := by
  induction calls generalizing t replies with
  | nil =>
    obtain ⟨rfl, rfl⟩ := Prod.mk.inj (Except.ok.inj hrun)
    exact h
  | cons c cs ih =>
    obtain ⟨t₁, r, rs, happ, hrest, rfl⟩ := V5Target.runCalls_cons hrun
    have h₁ := hP.applyCall h happ (hok (c, r) (List.mem_cons_self ..))
    exact ih h₁ hrest fun p hp => hok p (List.mem_cons_of_mem _ hp)

theorem tick {gdb gdb' : GdbState} {input : GdbInput}
    {replies : List (TargetCall × TargetReply)} (h : t.toSwState.Keeps P true)
    (htick : DebugSession.tickStateMachine table gdb t input = .ok (gdb', t', replies))
    (hok : ∀ p ∈ replies, Ok p) : t'.toSwState.Keeps P true := by
  cases DebugSession.tick_outcome htick with
  | packet calls next t' replies hrun => exact hP.runCalls h hrun hok
  | _ => exact h

end Target

section Session

variable {s s' : DebugSession}

theorem handleInternalBreakpoint (h : s.target.toSwState.Keeps P true) :
    s.handleInternalBreakpoint.1.target.toSwState.Keeps P true := by
  unfold DebugSession.handleInternalBreakpoint
  split
  · exact h
  · next addr _ =>
    have hrem := hP.keeps_remove h
      (rfl : s.target.toSwState.removeSwBreakpoint addr true = _)
    dsimp only
    split_ifs <;> exact hrem

theorem handleStop {reason : StopReason} {action : StopAction}
    (h : s.target.toSwState.Keeps P true) (hstop : s.handleStop reason = .ok (s', action)) :
    s'.target.toSwState.Keeps P true := by
  unfold DebugSession.handleStop at hstop
  split at hstop
  · split at hstop
    · cases hstop
    · next b hb =>
      by_cases hint : b.reason.internal = true
      · rw [if_pos hint] at hstop
        obtain ⟨rfl, _⟩ := Prod.mk.inj (Except.ok.inj hstop)
        exact hP.handleInternalBreakpoint h
      · rw [if_neg hint] at hstop
        obtain ⟨rfl, _⟩ := Prod.mk.inj (Except.ok.inj hstop)
        exact h
  · obtain ⟨rfl, _⟩ := Prod.mk.inj (Except.ok.inj hstop)
    exact h

theorem beginEvent {ctx : DebugEventContext} {suspends b : Bool} {gdb? : Option GdbState}
    (hacc : s.target.Accounted n user) (h : s.target.toSwState.Keeps P b)
    (hbegin : s.beginEvent ctx = .ok (s', suspends, gdb?)) :
    s'.target.toSwState.Keeps P true := by
  obtain ⟨t, s₁, action, henter, hstop, hcase⟩ := DebugSession.beginEvent_ok hbegin
  obtain ⟨hsw, _⟩ := V5Target.enterBreakpoint_sw hacc henter
  have ht : t.toSwState.Keeps P true := hsw ▸ hP.keeps_pause h true
  have hs₁ := hP.handleStop (s := { s with target := t }) ht hstop
  rcases hcase with ⟨_, _, rfl⟩ | ⟨_, gdb, _, hopen⟩
  · exact hs₁
  · rw [DebugSession.openConsole_target hopen]
    exact hs₁

theorem endEvent (h : s.target.toSwState.Keeps P true) :
    s.endEvent.1.target.toSwState.Keeps P false := hP.keeps_pause h false

end Session

/-- A property of the table and its memory that the operations keep is kept by every step. -/
theorem step {s s' : Sys} {e : SysEvent} (hhold : s.Holding n user lock)
    (h : s.session.target.toSwState.Keeps P s.inMonitor) (hstep : Sys.Step table s e s')
    (hadmits : Admits Ok Foreign s e) : s'.session.target.toSwState.Keeps P s'.inMonitor := by
  cases hstep with
  | @unattended _ status _ _ hphase hbegin =>
    have hacc := DebugSession.signal_accounted hhold.accounted status
    exact hP.endEvent (hP.beginEvent hacc h hbegin)
  | @attended _ status _ _ _ hphase hbegin =>
    have hacc := DebugSession.signal_accounted hhold.accounted status
    exact hP.beginEvent hacc h hbegin
  | tick hphase htick =>
    rw [Sys.inMonitor, hphase] at h
    exact hP.tick h htick hadmits
  | lastTick hphase htick =>
    rw [Sys.inMonitor, hphase] at h
    exact hP.endEvent (hP.tick h htick hadmits)
  | «return» hphase =>
    rw [Sys.inMonitor, hphase] at h
    exact h
  | poll hphase hpoll =>
    obtain ⟨hw, interruptPending, rfl⟩ := DebugSession.poll_frame hpoll
    exact h
  | pollBusy => exact h
  | run hphase =>
    have hmon : s.inMonitor = false := by rw [Sys.inMonitor, hphase]
    show SwState.Keeps P s.inMonitor _
    rw [hmon] at h ⊢
    exact hP.keeps_run hadmits h

end KeptByStops
end V5gdb
