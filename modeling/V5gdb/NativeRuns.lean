import V5gdb.NativeSteps
import V5gdb.UnattendedResume

/-!
The program does under the debugger what it does without it.
If GDB only places breakpoints, steps and looks, then whatever the program has come to after any
run is what it comes to without the debugger, having executed as many instructions.
-/
namespace V5gdb.Debuggee

open ByteMemory LittleEndian Transitions

variable {M : Mem 32} {T : ProgramText M} {table : TranslationTable} {isa : Isa}
  {d d' : Debuggee} {ctx ctx₀ : DebugEventContext} {m : Mem 32} {e : SysEvent}

theorem Step.sysRun {es : List SysEvent} (h : Run (Step table isa) d es d') :
    Run (Sys.Step table) d.sys es d'.sys := by
  induction h with
  | nil => exact .nil _
  | snoc _ hlast ih => exact ih.snoc hlast.sys

theorem Shows.of_boot {memory : CodeMemory} {T : ProgramText memory.data} {session : DebugSession}
    {debugId : BitVec 32} {mmio : DebugLogic} {exitFunc : Addr} {stopMotorsOnBreak : Bool}
    (hboot : DebugSession.boot debugId mmio memory exitFunc stopMotorsOnBreak = .ok session)
    (hfresh : ∀ x, ¬T.Data x → memory.FreshAt x)
    (hexit : T.Starts (exitFunc &&& ~~~1) (exitFunc &&& 1 ≠ 0)) (ctx : DebugEventContext) :
    Shows T ⟨Sys.start session, ctx⟩ ctx memory.data := by
  have hreg := (DebugSession.booted_of_boot hboot).registered
  have hpatched := ProgramText.patched_of_boot hfresh hexit hreg
  have hbacked := (SwState.boot_stopInv hreg).backed
  refine ⟨hpatched, SwState.register_breaksPaused hreg, ?_, fun _ _ => rfl, .running rfl rfl⟩
  intro x hx
  by_contra hne
  obtain ⟨i, b, hb, _, hin⟩ := hbacked.patched x trivial hne
  exact hpatched.code hb (hin.mono b.bkptInstr_size_le) hx

/-- Where the program stands after a run, alone and under the debugger. -/
theorem exists_shows {memory : CodeMemory} {T : ProgramText memory.data} {session : DebugSession}
    {debugId : BitVec 32} {mmio : DebugLogic} {exitFunc : Addr} {stopMotorsOnBreak : Bool}
    (hboot : DebugSession.boot debugId mmio memory exitFunc stopMotorsOnBreak = .ok session)
    (hfresh : ∀ x, ¬T.Data x → memory.FreshAt x)
    (hexit : T.Starts (exitFunc &&& ~~~1) (exitFunc &&& 1 ≠ 0)) (hprogram : T.KeptBy isa ctx₀)
    {es : List SysEvent} (hrun : Run (Step table isa) ⟨Sys.start session, ctx₀⟩ es d)
    (hpassive : ∀ e ∈ es, ∀ c ∈ e.calls, T.Passive c) :
    ∃ ctx m instrs, Run (Native.Step isa) (ctx₀, memory.data) instrs (ctx, m) ∧
      (instrs.filter fun instr => !instr.isBkpt).length = (es.filter SysEvent.isRun).length ∧
      d.Shows T ctx m := by
  have hinv := hrun.invariant
    (P := fun es d => (∀ e ∈ es, ∀ c ∈ e.calls, T.Passive c) →
      Run (Step table isa) ⟨Sys.start session, ctx₀⟩ es d ∧
      ∃ ctx m instrs, Run (Native.Step isa) (ctx₀, memory.data) instrs (ctx, m) ∧
        (instrs.filter fun instr => !instr.isBkpt).length = (es.filter SysEvent.isRun).length ∧
        d.Shows T ctx m)
    (fun _ => ⟨.nil _, ctx₀, _, [], .nil _, rfl, Shows.of_boot hboot hfresh hexit ctx₀⟩)
    (by
      intro es d e d' hd hstep hpassive
      obtain ⟨hbefore, hnew⟩ := List.forall_mem_append.mp hpassive
      obtain ⟨hes, ctx, m, instrs, hnative, hcount, hshows⟩ := hd hbefore
      have hhold := Sys.holding_of_run hboot (Step.sysRun hes)
      obtain ⟨ctx', m', new, hmore, hshows', hone⟩ :=
        hshows.step hhold hprogram hnative hstep (hnew e (List.mem_singleton_self e))
      refine ⟨hes.snoc hstep, ctx', m', instrs ++ new, hnative.trans hmore, ?_, hshows'⟩
      rw [List.filter_append, List.length_append, hcount, hone, List.filter_append,
        List.length_append]
      cases hkind : e.isRun <;> simp [hkind])
  exact (hinv hpassive).2

/-- Words do not overlap. -/
theorem disjoint_of_aligned {a b : Addr} (ha : a.toNat % 4 = 0) (hb : b.toNat % 4 = 0)
    (hne : a ≠ b) : Disjoint a 4 b 4 := by
  intro x hxa hxb
  unfold Within distance at hxa hxb
  rw [BitVec.toNat_sub] at hxa hxb
  apply hne
  apply BitVec.eq_of_toNat_eq
  omega

theorem size_of_arm {m : Mem 32} {a : Addr} {instr : Instruction}
    (h : Instruction.read m a false = .ok instr) : instr.size = 4 := by
  have hthumb := (Instruction.read_spec h).2.1
  cases instr with
  | arm => rfl
  | thumb16 => cases hthumb
  | thumb32 => cases hthumb

/-! A program in ARM code that begins with a hard-coded breakpoint. Every other instruction
counts in a word of memory and leads back to the same place. -/

def COUNTER : Addr := 0x03a00000

def countingMemory : Mem 32 := storeWord (fun _ => 0) 0x03900000 0xe1200070

def countingIsa : Isa := fun _ ctx m ctx' m' =>
  ctx' = { ctx with programCounter := 0x03900008 } ∧
    m' = Function.update m COUNTER (m COUNTER + 1)

theorem disjoint_counting {M : Mem 32} {a b : Addr} {t u : Bool} {i j : Instruction}
    (ha : a.toNat % 4 = 0 ∧ t = false ∧ a ≠ COUNTER)
    (hb : b.toNat % 4 = 0 ∧ u = false ∧ b ≠ COUNTER) (hne : (a, t) ≠ (b, u))
    (hi : Instruction.read M a t = .ok i) (hj : Instruction.read M b u = .ok j) :
    Disjoint a i.size b j.size := by
  obtain ⟨ha, rfl, _⟩ := ha
  obtain ⟨hb, rfl, _⟩ := hb
  rw [size_of_arm hi, size_of_arm hj]
  apply disjoint_of_aligned ha hb
  intro heq
  exact hne (by rw [heq])

def countingText : ProgramText countingMemory where
  Starts a t := a.toNat % 4 = 0 ∧ t = false ∧ a ≠ COUNTER
  Data x := Within COUNTER 4 x
  aligned := by
    intro a t hstarts
    obtain ⟨ha, rfl, _⟩ := hstarts
    exact ha
  apart := disjoint_counting
  code := by
    intro a t i hstarts hread x hx hdata
    obtain ⟨ha, rfl, hne⟩ := hstarts
    rw [size_of_arm hread] at hx
    exact disjoint_of_aligned ha (by decide) hne x hx hdata

theorem data_counter : countingText.Data COUNTER := within_self COUNTER (by decide)

/-- Only the counter is written. -/
theorem counted_elsewhere (m : Mem 32) {x : Addr} (hx : ¬countingText.Data x) :
    Function.update m COUNTER (m COUNTER + 1) x = m x := by
  apply Function.update_of_ne
  intro heq
  exact hx (heq ▸ data_counter)

theorem read_hard_coded :
    Instruction.read countingMemory 0x03900000 false = .ok (.arm 0xe1200070) := by decide

theorem read_next : Instruction.read countingMemory 0x03900004 false = .ok (.arm 0) := by decide

theorem read_loop : Instruction.read countingMemory 0x03900008 false = .ok (.arm 0) := by decide

structure Counting (ctx : DebugEventContext) (m : Mem 32) : Prop where
  place : ctx.programCounter = 0x03900000 ∨ ctx.programCounter = 0x03900004 ∨
    ctx.programCounter = 0x03900008
  arm : ctx.cpsr.thumb = false
  code : ∀ x, ¬countingText.Data x → m x = countingMemory x

theorem Counting.starts (h : Counting ctx m) :
    countingText.Starts ctx.programCounter ctx.cpsr.thumb := by
  obtain ⟨hplace, harm, _⟩ := h
  rcases hplace with hpc | hpc | hpc <;>
    · rw [hpc, harm]
      exact ⟨by decide, rfl, by decide⟩

theorem Counting.step {p : DebugEventContext × Mem 32} {instr : Instruction}
    (h : Counting ctx m) (hstep : Native.Step countingIsa (ctx, m) instr p) :
    Counting p.1 p.2 := by
  have hsame : ∀ {a : Addr} {next : Instruction}, countingText.Starts a false →
      Instruction.read countingMemory a false = .ok next →
      Instruction.read m a false = .ok next := fun hstarts htext =>
    Instruction.read_of_same htext fun x hx => h.code x (countingText.code hstarts htext x hx)
  cases hstep with
  | execute _ _ hexec =>
    obtain ⟨rfl, rfl⟩ := hexec
    exact ⟨.inr (.inr rfl), h.arm, fun x hx => (counted_elsewhere m hx).trans (h.code x hx)⟩
  | skip hread hbkpt =>
    obtain ⟨hplace, harm, hcode⟩ := h
    rw [harm] at hread
    rcases hplace with hpc | hpc | hpc
    · rw [hpc] at hread
      obtain rfl := Except.ok.inj
        (hread.symm.trans (hsame ⟨by decide, rfl, by decide⟩ read_hard_coded))
      refine ⟨.inr (.inl ?_), harm, hcode⟩
      rw [skipped, hpc]
      rfl
    · rw [hpc] at hread
      obtain rfl := Except.ok.inj (hread.symm.trans (hsame ⟨by decide, rfl, by decide⟩ read_next))
      cases hbkpt
    · rw [hpc] at hread
      obtain rfl := Except.ok.inj (hread.symm.trans (hsame ⟨by decide, rfl, by decide⟩ read_loop))
      cases hbkpt

variable {session : DebugSession}

end V5gdb.Debuggee
