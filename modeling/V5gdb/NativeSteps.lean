import V5gdb.ProgramText
import V5gdb.Transparency

/-!
The program with the debugger and without it, step by step.
Without the debugger, the CPU executes one instruction of the program after the other, out of
memory that nobody patches. With it, breakpoints are patched in, instructions are fetched through
the cache, and the program is stopped and resumed. If GDB only places breakpoints, steps and
looks, each step of the system is one of the program alone, or none.
-/
namespace V5gdb

open ByteMemory LittleEndian RecordLayouts Transitions

namespace ProgramText

variable {M : Mem 32} {T : ProgramText M}

structure Keeps (T : ProgramText M) (paused : Bool) (s s' : SwState) : Prop where
  patched : T.Patched s'
  paused : s'.breaksPaused = paused
  data : ∀ x, T.Data x → s'.memory.data x = s.memory.data x

/-- What GDB may do without the program noticing. It places breakpoints on instructions, and
writes neither registers nor memory. -/
def Passive (T : ProgramText M) : TargetCall → Prop
  | .writeRegisters _ => False
  | .writeRegister _ _ => False
  | .writeAddrs _ _ => False
  | .addSwBreakpoint addr kind => T.Starts addr kind.isThumb
  | _ => True

variable {s₀ s s' : SwState} {paused : Bool}

theorem Keeps.pause (h : T.Keeps paused s₀ s) {ignored : Bool} (hpaused : paused = !ignored) :
    T.Keeps ignored s₀ (s.setBreakpointsIgnored ignored) where
  patched := h.patched.setBreakpointsIgnored (h.paused.trans hpaused)
  paused := SwState.setBreakpointsIgnored_breaksPaused ..
  data := fun x hx => (h.patched.data_setBreakpointsIgnored ignored hx).trans (h.data x hx)

theorem Keeps.remove (h : T.Keeps true s₀ s) {addr : Addr} {internal r : Bool}
    (hrem : s.removeSwBreakpoint addr internal = (s', r)) : T.Keeps true s₀ s' := by
  obtain ⟨hpatched, hdata⟩ := h.patched.remove h.paused hrem
  refine ⟨hpatched, (SwState.remove_breaksPaused h.patched.table hrem).trans h.paused, ?_⟩
  intro x hx
  rw [hdata]
  exact h.data x hx

theorem Keeps.register (h : T.Keeps true s₀ s) {addr : Addr} {thumb internal : Bool}
    (hstarts : T.Starts addr thumb) {r : Except BreakpointError Unit}
    (hreg : s.registerSwBreakpoint addr thumb internal = .ok (s', r)) : T.Keeps true s₀ s' := by
  obtain ⟨hpatched, hdata⟩ := h.patched.register h.paused hstarts hreg
  refine ⟨hpatched, (SwState.register_breaksPaused hreg).trans h.paused, ?_⟩
  intro x hx
  rw [hdata]
  exact h.data x hx

variable {table : TranslationTable} {t t' : V5Target}

theorem Keeps.applyCall {c : TargetCall} {r : TargetReply} (h : T.Keeps true s₀ t.toSwState)
    (hpassive : T.Passive c) (happ : t.applyCall table c = .ok (t', r)) :
    T.Keeps true s₀ t'.toSwState := by
  cases V5Target.applyCall_effect happ with
  | register addr kind sw r' hreg => exact h.register hpassive hreg
  | remove addr kind sw b hrem => exact h.remove hrem
  | write => exact hpassive.elim
  | _ => exact h

theorem Keeps.runCalls {calls : List TargetCall} {replies : List (TargetCall × TargetReply)}
    (h : T.Keeps true s₀ t.toSwState) (hrun : V5Target.runCalls table calls t = .ok (t', replies))
    (hpassive : ∀ p ∈ replies, T.Passive p.1) : T.Keeps true s₀ t'.toSwState := by
  induction calls generalizing t replies with
  | nil =>
    obtain ⟨rfl, rfl⟩ := Prod.mk.inj (Except.ok.inj hrun)
    exact h
  | cons c cs ih =>
    obtain ⟨t₁, r, rs, happ, hrest, rfl⟩ := V5Target.runCalls_cons hrun
    obtain ⟨hfirst, hothers⟩ := List.forall_mem_cons.mp hpassive
    exact ih (h.applyCall hfirst happ) hrest hothers

theorem Keeps.tick {gdb gdb' : GdbState} {input : GdbInput}
    {replies : List (TargetCall × TargetReply)} (h : T.Keeps true s₀ t.toSwState)
    (htick : DebugSession.tickStateMachine table gdb t input = .ok (gdb', t', replies))
    (hpassive : ∀ p ∈ replies, T.Passive p.1) : T.Keeps true s₀ t'.toSwState := by
  cases DebugSession.tick_outcome htick with
  | packet calls next t' replies hrun => exact h.runCalls hrun hpassive
  | _ => exact h

theorem Keeps.beginEvent {n : ℕ} {user : Finset HwKey} {d d' : DebugSession}
    {ctx : DebugEventContext} {suspends : Bool} {gdb? : Option GdbState}
    (hacc : d.target.Accounted n user) (h : T.Keeps false s₀ d.target.toSwState)
    (hbegin : d.beginEvent ctx = .ok (d', suspends, gdb?)) :
    T.Keeps true s₀ d'.target.toSwState := by
  obtain ⟨t, d₁, action, henter, hstop, hcase⟩ := DebugSession.beginEvent_ok hbegin
  obtain ⟨hsw, _⟩ := V5Target.enterBreakpoint_sw hacc henter
  have ht : T.Keeps true s₀ t.toSwState := by
    rw [hsw]
    exact h.pause rfl
  have hd₁ : T.Keeps true s₀ d₁.target.toSwState := by
    generalize t.stopReason = reason at hstop
    cases DebugSession.handleStop_outcome hstop with
    | exit id b sw r hb hint hrem => exact ht.remove hrem
    | exitWithClient id b sw r hb hint hrem => exact ht.remove hrem
    | _ => exact ht
  rcases hcase with ⟨_, _, rfl⟩ | ⟨_, gdb, _, hopen⟩
  · exact hd₁
  · rw [DebugSession.openConsole_target hopen]
    exact hd₁

/-- Every step of the system but the program's own keeps the text and the data. -/
theorem Keeps.step {n : ℕ} {user : Finset HwKey} {lock : Bool} {s s' : Sys} {e : SysEvent}
    (hhold : s.Holding n user lock) (h : T.Keeps s.inMonitor s₀ s.session.target.toSwState)
    (hstep : Sys.Step table s e s') (hrun : ∀ memory, e ≠ .run memory)
    (hpassive : ∀ c ∈ e.calls, T.Passive c) :
    T.Keeps s'.inMonitor s₀ s'.session.target.toSwState := by
  cases hstep with
  | @unattended _ status _ _ hphase hbegin =>
    rw [Sys.inMonitor, hphase] at h
    have hacc := DebugSession.signal_accounted hhold.accounted status
    exact (Keeps.beginEvent hacc h hbegin).pause rfl
  | @attended _ status _ _ _ hphase hbegin =>
    rw [Sys.inMonitor, hphase] at h
    have hacc := DebugSession.signal_accounted hhold.accounted status
    exact Keeps.beginEvent hacc h hbegin
  | tick hphase htick =>
    rw [Sys.inMonitor, hphase] at h
    exact h.tick htick fun p hp => hpassive p.1 (List.mem_map_of_mem hp)
  | lastTick hphase htick =>
    rw [Sys.inMonitor, hphase] at h
    exact (h.tick htick fun p hp => hpassive p.1 (List.mem_map_of_mem hp)).pause rfl
  | «return» hphase =>
    rw [Sys.inMonitor, hphase] at h
    exact h
  | poll hphase hpoll =>
    obtain ⟨hw, interruptPending, rfl⟩ := DebugSession.poll_frame hpoll
    exact h
  | pollBusy => exact h
  | run => exact absurd rfl (hrun _)

end ProgramText

abbrev Isa := Instruction → DebugEventContext → Mem 32 → DebugEventContext → Mem 32 → Prop

def skipped (ctx : DebugEventContext) (instr : Instruction) : DebugEventContext :=
  { ctx with programCounter := ctx.programCounter + BitVec.ofNat 32 instr.size }

/-- The program without a debugger, as if its hard-coded breakpoints did nothing. -/
inductive Native.Step (isa : Isa) :
    DebugEventContext × Mem 32 → Instruction → DebugEventContext × Mem 32 → Prop
  | execute {ctx ctx' : DebugEventContext} {m m' : Mem 32} {instr : Instruction}
      (hread : Instruction.read m ctx.programCounter ctx.cpsr.thumb = .ok instr)
      (hbkpt : instr.isBkpt = false) (hexec : isa instr ctx m ctx' m') :
      Native.Step isa (ctx, m) instr (ctx', m')
  | skip {ctx : DebugEventContext} {m : Mem 32} {instr : Instruction}
      (hread : Instruction.read m ctx.programCounter ctx.cpsr.thumb = .ok instr)
      (hbkpt : instr.isBkpt = true) : Native.Step isa (ctx, m) instr (skipped ctx instr, m)

/-- The system with the registers that the program has while it runs. -/
structure Debuggee where
  sys : Sys
  ctx : DebugEventContext

namespace Debuggee

def memory (d : Debuggee) : CodeMemory := d.sys.session.target.memory

def fetched (d : Debuggee) : Exec Instruction :=
  Instruction.read d.memory.fetch d.ctx.programCounter d.ctx.cpsr.thumb

inductive Step (table : TranslationTable) (isa : Isa) : Debuggee → SysEvent → Debuggee → Prop
  /-- Meanwhile any part of the instruction cache may be filled anew. -/
  | execute {d : Debuggee} {instr : Instruction} {ctx' : DebugEventContext}
      {data' fetch' : Mem 32} {s' : Sys} (hfetch : d.fetched = .ok instr)
      (hbkpt : instr.isBkpt = false)
      (hexec : isa instr d.ctx d.memory.data ctx' data')
      (hcache : ∀ x, fetch' x = d.memory.fetch x ∨ fetch' x = data' x)
      (hstep : Sys.Step table d.sys (.run ⟨data', fetch'⟩) s') :
      Step table isa d (.run ⟨data', fetch'⟩) ⟨s', ctx'⟩
  /-- A debug event may come at any time, but one of a `bkpt` only where one is fetched. -/
  | stop {d : Debuggee} {status : DebugStatusControl} {s' : Sys}
      (hbkpt : status.methodOfEntry = some .bkptInstr →
        ∃ instr, d.fetched = .ok instr ∧ instr.isBkpt = true)
      (hstep : Sys.Step table d.sys (.stop d.ctx status) s') :
      Step table isa d (.stop d.ctx status) ⟨s', d.ctx⟩
  | tick {d : Debuggee} {input : GdbInput} {replies : List (TargetCall × TargetReply)} {s' : Sys}
      (hstep : Sys.Step table d.sys (.tick input replies) s') :
      Step table isa d (.tick input replies) ⟨s', d.ctx⟩
  | return {d : Debuggee} {s' : Sys} (hstep : Sys.Step table d.sys .return s') :
      Step table isa d .return ⟨s', d.sys.resumed⟩
  | poll {d : Debuggee} {pending : Bytes} {s' : Sys}
      (hstep : Sys.Step table d.sys (.poll pending) s') :
      Step table isa d (.poll pending) ⟨s', d.ctx⟩

theorem Step.sys {table : TranslationTable} {isa : Isa} {d d' : Debuggee} {e : SysEvent}
    (h : Step table isa d e d') : Sys.Step table d.sys e d'.sys := by
  cases h <;> assumption

inductive At (ctx : DebugEventContext) (d : Debuggee) : Prop
  | running (hphase : d.sys.phase = .program) (hctx : d.ctx = ctx)
  | stopped (hholds : d.sys.Holds ctx)

structure Shows {M : Mem 32} (T : ProgramText M) (d : Debuggee) (ctx : DebugEventContext)
    (m : Mem 32) : Prop where
  patched : T.Patched d.sys.session.target.toSwState
  paused : d.sys.session.target.breaksPaused = d.sys.inMonitor
  data : ∀ x, T.Data x → d.memory.data x = m x
  code : ∀ x, ¬T.Data x → m x = M x
  context : d.At ctx

end Debuggee

def SysEvent.isRun : SysEvent → Bool
  | run _ => true
  | _ => false

/-- Wherever the program gets without the debugger, one of its instructions starts, and it loads
and stores nothing but data. -/
structure ProgramText.KeptBy {M : Mem 32} (T : ProgramText M) (isa : Isa)
    (ctx₀ : DebugEventContext) : Prop where
  starts : ∀ {instrs ctx m}, Run (Native.Step isa) (ctx₀, M) instrs (ctx, m) →
    T.Starts ctx.programCounter ctx.cpsr.thumb
  dataOnly : ∀ {instrs ctx m}, Run (Native.Step isa) (ctx₀, M) instrs (ctx, m) →
    ∀ instr, Instruction.read m ctx.programCounter ctx.cpsr.thumb = .ok instr →
      ∀ n ctx' n', (∀ x, T.Data x → n x = m x) → isa instr ctx n ctx' n' →
        (∀ x, ¬T.Data x → n' x = n x) ∧
        ∃ m', isa instr ctx m ctx' m' ∧ (∀ x, T.Data x → m' x = n' x) ∧
          ∀ x, ¬T.Data x → m' x = m x

/-- Only the debug event of a `bkpt` is taken for a hard-coded one, and only where no breakpoint
is tracked. -/
theorem V5Target.untracked_iff {t : V5Target} {ctx : DebugEventContext} :
    (t.prepareEntry ctx).stopReason = .untrackedSoftwareBreak ↔
      t.hwManager.lastBreakReason = some .bkptInstr ∧ t.Absent ctx.programCounter := by
  have hlast : (t.hwManager.setLocked false).lastBreakReason = t.hwManager.lastBreakReason := rfl
  rw [← SwState.absent_pause t.toSwState ctx.programCounter true]
  unfold prepareEntry classifyStop
  simp only [hlast]
  constructor
  · intro h
    split at h
    · split_ifs at h
    · next hbkpt =>
      split at h
      · cases h
      · next hquery =>
        refine ⟨hbkpt, ?_⟩
        intro i b hb haddr
        obtain ⟨id, hid⟩ := SwState.exists_query hb
        rw [haddr] at hid
        cases hid.symm.trans hquery
    · cases h
  · intro h
    obtain ⟨hbkpt, habsent⟩ := h
    simp only [hbkpt]
    split
    · next id hquery =>
      obtain ⟨b, hb, haddr⟩ := SwState.querySwBreakpoint_some hquery
      exact absurd haddr (habsent id b hb)
    · rfl

theorem ProgramText.Passive.writesContext {M : Mem 32} {T : ProgramText M} {c : TargetCall}
    (h : T.Passive c) : c.writesContext = false := by
  cases c with
  | writeRegisters => exact h.elim
  | writeRegister => exact h.elim
  | _ => rfl

namespace Debuggee

variable {M : Mem 32} {T : ProgramText M} {table : TranslationTable} {isa : Isa}
  {d d' : Debuggee} {ctx ctx₀ : DebugEventContext} {m : Mem 32} {instrs : List Instruction}
  {e : SysEvent}

theorem At.ctx_of_program (h : d.At ctx) (hphase : d.sys.phase = .program) : d.ctx = ctx := by
  cases h with
  | running _ hctx => exact hctx
  | stopped hholds =>
    cases hholds with
    | «open» gdb hmonitor => cases hphase.symm.trans hmonitor
    | left unpause hleft => cases hphase.symm.trans hleft

/-- The instruction that the program has next without the debugger. -/
theorem Shows.read (h : d.Shows T ctx m)
    (hstarts : T.Starts ctx.programCounter ctx.cpsr.thumb) :
    ∃ instr, Instruction.read M ctx.programCounter ctx.cpsr.thumb = .ok instr ∧
      Instruction.read m ctx.programCounter ctx.cpsr.thumb = .ok instr := by
  obtain ⟨instr, htext⟩ := Instruction.exists_read M (T.aligned hstarts)
  refine ⟨instr, htext, Instruction.read_of_same htext ?_⟩
  exact fun x hx => h.code x (T.code hstarts htext x hx)

/-- The text can be read where breakpoints are paused. -/
theorem Shows.read_paused (h : d.Shows T ctx m) (hphase : d.sys.phase = .program)
    (hstarts : T.Starts ctx.programCounter ctx.cpsr.thumb) {instr : Instruction}
    (htext : Instruction.read M ctx.programCounter ctx.cpsr.thumb = .ok instr) :
    Instruction.read (d.sys.session.target.toSwState.setBreakpointsIgnored true).memory.data
      ctx.programCounter ctx.cpsr.thumb = .ok instr := by
  have hpaused : d.sys.session.target.breaksPaused = !true := by
    rw [h.paused, Sys.inMonitor, hphase]
    rfl
  have hclear := h.patched.setBreakpointsIgnored hpaused
  exact Instruction.read_of_same htext fun x hx =>
    hclear.data_of_paused (SwState.setBreakpointsIgnored_breaksPaused ..)
      (T.code hstarts htext x hx)

/-- A hard-coded `bkpt` is what the program has next without the debugger, too. -/
theorem Shows.shown (h : d.Shows T ctx m) (hphase : d.sys.phase = .program)
    (hstarts : T.Starts ctx.programCounter ctx.cpsr.thumb) {status : DebugStatusControl}
    (hbkpt : status.methodOfEntry = some .bkptInstr →
      ∃ instr, d.fetched = .ok instr ∧ instr.isBkpt = true)
    {shown : DebugEventContext}
    (hshown : Shown (d.sys.session.signal status).target ctx shown) :
    ∃ skipped, Run (Native.Step isa) (ctx, m) skipped (shown, m) ∧
      ∀ instr ∈ skipped, instr.isBkpt = true := by
  cases hshown with
  | asStopped => exact ⟨[], .nil _, fun instr hinstr => by cases hinstr⟩
  | passed hreason instr hread =>
    have hctx := h.context.ctx_of_program hphase
    obtain ⟨hmethod, habsent⟩ := V5Target.untracked_iff.mp hreason
    obtain ⟨trap, hfetched, hisBkpt⟩ := hbkpt hmethod
    obtain ⟨next, htext, hnative⟩ := h.read hstarts
    have hfetch := h.patched.fetch_of_absent hstarts habsent htext
    unfold fetched memory at hfetched
    rw [hctx] at hfetched
    obtain rfl := Except.ok.inj (hfetched.symm.trans hfetch)
    obtain rfl := Except.ok.inj (hread.symm.trans (h.read_paused hphase hstarts htext))
    refine ⟨[instr], .single (.skip hnative hisBkpt), ?_⟩
    intro other hother
    rwa [List.mem_singleton.mp hother]

/-- What the program executes is its next instruction: where a breakpoint is tracked it would have
fetched a `bkpt`. -/
theorem Shows.execute (h : d.Shows T ctx m) (hphase : d.sys.phase = .program)
    (hstarts : T.Starts ctx.programCounter ctx.cpsr.thumb) {instr : Instruction}
    (hfetch : d.fetched = .ok instr) (hbkpt : instr.isBkpt = false) :
    Instruction.read m ctx.programCounter ctx.cpsr.thumb = .ok instr := by
  have hctx := h.context.ctx_of_program hphase
  have hlive : d.sys.session.target.breaksPaused = false := by
    rw [h.paused, Sys.inMonitor, hphase]
  unfold fetched memory at hfetch
  rw [hctx] at hfetch
  have habsent : d.sys.session.target.Absent ctx.programCounter := by
    intro i b hb haddr
    have htrap := h.patched.fetch_of_tracked hlive hstarts hb haddr
    rw [Except.ok.inj (hfetch.symm.trans htrap), b.isBkpt_bkptInstr] at hbkpt
    cases hbkpt
  obtain ⟨next, htext, hnative⟩ := h.read hstarts
  have hnext := h.patched.fetch_of_absent hstarts habsent htext
  rwa [Except.ok.inj (hfetch.symm.trans hnext)]

theorem Shows.of_keeps {ctx' : DebugEventContext} (h : d.Shows T ctx m)
    (hkeeps : T.Keeps d'.sys.inMonitor d.sys.session.target.toSwState
      d'.sys.session.target.toSwState) (hcontext : d'.At ctx') : d'.Shows T ctx' m where
  patched := hkeeps.patched
  paused := hkeeps.paused
  data := fun x hx => (hkeeps.data x hx).trans (h.data x hx)
  code := h.code
  context := hcontext

/-- Without writes from GDB, the console leaves the registers alone. -/
theorem At.of_console (h : d.At ctx) (hstep : Sys.Step table d.sys e d'.sys)
    (hevent : (∃ input replies, e = .tick input replies) ∨ ∃ pending, e = .poll pending)
    (hctx : d'.ctx = d.ctx) (hpassive : ∀ c ∈ e.calls, T.Passive c) : d'.At ctx := by
  cases h with
  | running hphase hrunning =>
    have hphase' : d'.sys.phase = .program := by
      generalize d'.sys = s' at hstep
      rcases hevent with ⟨_, _, rfl⟩ | ⟨_, rfl⟩
      · cases hstep with
        | tick hmonitor => cases hphase.symm.trans hmonitor
        | lastTick hmonitor => cases hphase.symm.trans hmonitor
      · cases hstep with
        | poll => exact hphase
        | pollBusy => exact hphase
    exact .running hphase' (hctx.trans hrunning)
  | stopped hholds =>
    have hreturn : e ≠ .return := by
      rcases hevent with ⟨_, _, rfl⟩ | ⟨_, rfl⟩ <;> simp
    have hheld := hholds.step hstep hreturn
    have hquiet := @edited_of_quiet ctx [e] fun f hf c hc => by
      rw [List.mem_singleton.mp hf] at hc
      exact (hpassive c hc).writesContext
    unfold edited at hquiet
    rw [List.flatMap_singleton] at hquiet
    rw [hquiet] at hheld
    exact .stopped hheld

/-- A step of the system is a step of the program, or none. A hard-coded breakpoint is passed at
the stop that it causes. -/
theorem Shows.step {n : ℕ} {user : Finset HwKey} {lock : Bool}
    (hhold : d.sys.Holding n user lock) (hprogram : T.KeptBy isa ctx₀)
    (hnative : Run (Native.Step isa) (ctx₀, M) instrs (ctx, m)) (h : d.Shows T ctx m)
    (hstep : Step table isa d e d') (hpassive : ∀ c ∈ e.calls, T.Passive c) :
    ∃ ctx' m' new, Run (Native.Step isa) (ctx, m) new (ctx', m') ∧ d'.Shows T ctx' m' ∧
      (new.filter fun instr => !instr.isBkpt).length = if e.isRun then 1 else 0 := by
  have hstarts := hprogram.starts hnative
  have hkeeps : T.Keeps d.sys.inMonitor d.sys.session.target.toSwState
      d.sys.session.target.toSwState := ⟨h.patched, h.paused, fun _ _ => rfl⟩
  cases hstep with
  | @execute instr ctx' data' fetch' s' hfetch hbkpt hexec hcache hstep =>
    cases hstep with
    | run hphase =>
      have hctx := h.context.ctx_of_program hphase
      have hread := h.execute hphase hstarts hfetch hbkpt
      rw [hctx] at hexec
      obtain ⟨hcode, m', hexec', hdata', hcode'⟩ :=
        hprogram.dataOnly hnative instr hread _ _ _ h.data hexec
      refine ⟨ctx', m', [instr], .single (.execute hread hbkpt hexec'), ?_, ?_⟩
      · exact ⟨h.patched.store hcode hcache, h.paused, fun x hx => (hdata' x hx).symm,
          fun x hx => (hcode' x hx).trans (h.code x hx), .running hphase rfl⟩
      · simp [hbkpt, SysEvent.isRun]
  | @stop status s' hbkpt hstep =>
    have hphase : d.sys.phase = .program := by
      cases hstep with
      | unattended hphase => exact hphase
      | attended hphase => exact hphase
    have hkept := hkeeps.step hhold hstep (fun memory => by simp) hpassive
    rw [h.context.ctx_of_program hphase] at hstep
    obtain ⟨shown, hshown, hholds⟩ := Sys.holds_of_stop hstep
    obtain ⟨passed, hrun, hall⟩ :=
      @Shows.shown _ _ isa _ _ _ h hphase hstarts _ hbkpt _ hshown
    refine ⟨shown, m, passed, hrun, h.of_keeps hkept (.stopped hholds), ?_⟩
    rw [List.filter_eq_nil_iff.mpr]
    · rfl
    · intro instr hinstr
      simp [hall instr hinstr]
  | tick hstep =>
    have hkept := hkeeps.step hhold hstep (fun memory => by simp) hpassive
    exact ⟨ctx, m, [], .nil _, h.of_keeps hkept (h.context.of_console hstep
      (.inl ⟨_, _, rfl⟩) rfl hpassive), rfl⟩
  | poll hstep =>
    have hkept := hkeeps.step hhold hstep (fun memory => by simp) hpassive
    exact ⟨ctx, m, [], .nil _, h.of_keeps hkept (h.context.of_console hstep
      (.inr ⟨_, rfl⟩) rfl hpassive), rfl⟩
  | «return» hstep =>
    have hkept := hkeeps.step hhold hstep (fun memory => by simp) hpassive
    refine ⟨ctx, m, [], .nil _, h.of_keeps hkept ?_, rfl⟩
    have hresumed : d.sys.resumed = ctx := by
      cases hstep with
      | «return» hphase =>
        cases h.context with
        | running hprogram => cases hprogram.symm.trans hphase
        | stopped hholds =>
          cases hholds with
          | «open» gdb hmonitor => cases hphase.symm.trans hmonitor
          | left unpause _ hctx => exact hctx
    cases hstep with
    | «return» => exact .running rfl hresumed

end Debuggee
end V5gdb
