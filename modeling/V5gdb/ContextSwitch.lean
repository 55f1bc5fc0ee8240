import V5gdb.FrameRestore

/-!
The way into the debug monitor and out of it again is a context switch.
The handler is shown the interrupted state, and the program goes on in the state
that the handler leaves, as far as that is one of User or System mode and `msr spsr`
writes the status.
-/
namespace V5gdb

open ByteMemory Arm CatchDebugEvent

/-- The fault status that no abort has, and that the comparison takes for the one of
a debug event. -/
def reservedStatus : BitVec 5 := 0b10010

def InProgram (s : State) : Prop := s.mode = 0b10000 ∨ s.mode = 0b11111

def interrupted (s : State) : DebugEventContext where
  cpsr := ⟨s.cpsr⟩
  stackPointer := s.currentSp
  linkRegister := s.currentLr
  fpscr := s.fpscr
  vfpRegisters := s.d
  registers := s.gpr
  programCounter := s.pc

/-- The state at the end of a debug event is the one that the struct describes, up
to the fields of the status that `msr spsr` leaves as they were. -/
structure Restored (fields : StatusFields) (s : State) (c : DebugEventContext) (s' : State) :
    Prop where
  gpr : s'.gpr = c.registers
  sp : s'.currentSp = c.stackPointer
  lr : s'.currentLr = c.linkRegister
  pc : s'.pc = c.programCounter
  fpscr : s'.fpscr = c.fpscr
  d : s'.d = c.vfpRegisters
  cpsr : ∀ i, fields.mask.getLsbD i = true ∨ c.cpsr.raw.getLsbD i = s.cpsr.getLsbD i →
    s'.cpsr.getLsbD i = c.cpsr.raw.getLsbD i

/-- The struct describes a state of the program: the mode has the banked registers
that are restored, the address is one that the instruction set has, and its stack
does not lie on what is left of the abort stack where the call is made on it. -/
structure OfProgram (b : Build) (s : State) (c : DebugEventContext) (resume : Bool) : Prop where
  mode : Bitfields.field 0 5 c.cpsr.raw = 0b10000 ∨ Bitfields.field 0 5 c.cpsr.raw = 0b11111
  pc : State.branchTarget (b.fields.merge s.cpsr c.cpsr.raw) c.programCounter = c.programCounter
  stack : b.freertos = true → resume = true →
    ByteMemory.Disjoint (callPlace c) 8 (s.sp .abort - 316) 316

def AbortKind.entry (kind : AbortKind) (s : State) : State := s.takeAbort kind.linkOffset

def DebugEvent (b : Build) (kind : AbortKind) (s : State) (c : DebugEventContext) (resume : Bool)
    (s' : State) : Prop :=
  (kind.vector (kind.entry s)).1 = .catchDebugEvent ∧
    CatchDebugEvent.Run b (kind.vector (kind.entry s)).2 c resume s'

/-- An abort is either passed on as it came or is a debug event, which ends in the
state that the handler asks for. -/
structure FaithfulSwitch (b : Build) (kind : AbortKind) (s : State) : Prop where
  passedOn : faultStatus (kind.faultStatusRegister s) ≠ debugEventStatus →
    faultStatus (kind.faultStatusRegister s) ≠ reservedStatus →
    (kind.vector (kind.entry s)).1 = .originalVector ∧
      SameRegisters (kind.entry s) (kind.vector (kind.entry s)).2
  handed : InProgram s → faultStatus (kind.faultStatusRegister s) = debugEventStatus →
    (kind.vector (kind.entry s)).1 = .catchDebugEvent ∧
      let saved := save (kind.vector (kind.entry s)).2
      DebugEventContext.recordAt saved.mem (saved.gpr r0) = interrupted s
  restored : InProgram s → ∀ c resume s', DebugEvent b kind s c resume s' →
    OfProgram b s c resume → Restored b.fields s c s'
  abortStack : ∀ c resume s', DebugEvent b kind s c resume s' → s'.sp .abort = s.sp .abort

variable {b : Build} {kind : AbortKind} {s s' : State} {c : DebugEventContext} {resume : Bool}

theorem InProgram.bank (h : InProgram s) : s.bank = .user := by
  rw [State.bank]
  rcases h with hmode | hmode <;> rw [hmode] <;> rfl

theorem vector_eq (kind : AbortKind) :
    kind.vector = abortHandler kind.faultStatusRegister kind.linkOffset := by
  cases kind <;> rfl

theorem faultStatusRegister_entry (kind : AbortKind) (s : State) :
    kind.faultStatusRegister (kind.entry s) = kind.faultStatusRegister s := by
  cases kind <;> rfl

theorem bank_entry (kind : AbortKind) (s : State) : (kind.entry s).bank = .abort :=
  State.bank_takeAbort ..

/-- What the vector table entry does, by the outcome of the comparison. -/
theorem vector_spec (kind : AbortKind) (s : State) :
    ∃ t, SameRegisters (kind.entry s) t ∧
      kind.vector (kind.entry s) =
        if kind.faultStatusRegister s &&& 0b1111 = 0b00010 then
          (.catchDebugEvent, t.setLr s.pc)
        else (.originalVector, t) := by
  have hfsr : ∀ words, kind.faultStatusRegister ((kind.entry s).push words) =
      kind.faultStatusRegister (kind.entry s) := by
    intro words
    cases kind <;> rfl
  obtain ⟨hsame, heq⟩ := testFaultStatus_spec hfsr
  rw [faultStatusRegister_entry] at heq
  refine ⟨_, hsame, ?_⟩
  have hbank : (testFaultStatus kind.faultStatusRegister (kind.entry s)).bank = .abort := by
    rw [State.bank, hsame.mode, ← State.bank, bank_entry]
  have hlink : (testFaultStatus kind.faultStatusRegister (kind.entry s)).currentLr -
      kind.linkOffset = s.pc := by
    have hlr : (kind.entry s).lr .abort = s.pc + kind.linkOffset := by
      simp [AbortKind.entry, State.takeAbort]
    rw [State.currentLr, hbank, hsame.lr, hlr, BitVec.add_sub_cancel]
  rw [vector_eq, abortHandler]
  simp only [heq, hlink, decide_eq_true_eq]

theorem passedOn (hdebug : faultStatus (kind.faultStatusRegister s) ≠ debugEventStatus)
    (hreserved : faultStatus (kind.faultStatusRegister s) ≠ reservedStatus) :
    (kind.vector (kind.entry s)).1 = .originalVector ∧
      SameRegisters (kind.entry s) (kind.vector (kind.entry s)).2 := by
  obtain ⟨t, hsame, hvector⟩ := vector_spec kind s
  have hbits : ¬ kind.faultStatusRegister s &&& 0b1111 = 0b00010 := by
    rw [low_bits_eq_iff]
    exact not_or.mpr ⟨hdebug, hreserved⟩
  rw [hvector, if_neg hbits]
  exact ⟨rfl, hsame⟩

structure Caught (s t : State) : Prop where
  bank : t.bank = .abort
  abortSp : t.sp .abort = s.sp .abort
  spsr : t.spsr .abort = s.cpsr
  saved : InProgram s → savedContext t = interrupted s

theorem caught_of_vector (h : (kind.vector (kind.entry s)).1 = .catchDebugEvent) :
    Caught s (kind.vector (kind.entry s)).2 := by
  obtain ⟨t, hsame, hvector⟩ := vector_spec kind s
  rw [hvector] at h ⊢
  split_ifs at h ⊢ with hbits
  have hbank : t.bank = .abort := by
    rw [State.bank, hsame.mode, ← State.bank, bank_entry]
  have hsp : t.sp = s.sp := hsame.sp
  have hspsr : t.spsr = Function.update s.spsr .abort s.cpsr := hsame.spsr
  have hlr : t.lr .user = s.lr .user := by
    rw [hsame.lr]
    rfl
  constructor
  case bank => exact hbank
  case abortSp => exact congrFun hsp .abort
  case spsr => exact (congrFun hspsr .abort).trans (Function.update_self ..)
  case saved =>
    intro hprogram
    apply DebugEventContext.ext
    case cpsr =>
      refine congrArg ProgramStatus.mk ((congrFun hspsr .abort).trans ?_)
      rw [Function.update_self]
    case stackPointer =>
      rw [interrupted, State.currentSp, hprogram.bank, ← hsp]
      rfl
    case linkRegister =>
      rw [interrupted, State.currentLr, hprogram.bank, ← hlr, savedContext,
        State.setLr, hbank]
      rfl
    case fpscr => exact hsame.fpscr
    case vfpRegisters => exact hsame.d
    case registers => exact hsame.gpr
    case programCounter =>
      have hreturn : (t.setLr s.pc).lr .abort = s.pc := by
        rw [State.setLr, hbank]
        simp
      exact hreturn

theorem handed (hprogram : InProgram s)
    (hdebug : faultStatus (kind.faultStatusRegister s) = debugEventStatus) :
    (kind.vector (kind.entry s)).1 = .catchDebugEvent ∧
      let saved := save (kind.vector (kind.entry s)).2
      DebugEventContext.recordAt saved.mem (saved.gpr r0) = interrupted s := by
  have htarget : (kind.vector (kind.entry s)).1 = .catchDebugEvent := by
    obtain ⟨t, _, hvector⟩ := vector_spec kind s
    rw [hvector, if_pos ((low_bits_eq_iff _).mpr (.inl hdebug))]
  have hcaught := caught_of_vector htarget
  obtain ⟨_, _, _, _, hrecord⟩ := save_spec hcaught.bank
  exact ⟨htarget, hrecord.trans (hcaught.saved hprogram)⟩

/-- What the handler leaves for the restore. -/
theorem DebugEvent.handled (h : DebugEvent b kind s c resume s') :
    ∃ t, Restores b t s' ∧ t.bank = .abort ∧
      t.sp .abort = s.sp .abort - 328 ∧ t.spsr .abort = s.cpsr ∧
      DebugEventContext.recordAt t.mem (t.sp .abort) = c ∧
      t.gpr r0 = if resume then 1 else 0 := by
  obtain ⟨htarget, t, hhandler, hrestores⟩ := h
  have hcaught := caught_of_vector htarget
  obtain ⟨hr0, hsp, hspsr, hmode, _⟩ := save_spec hcaught.bank
  rw [hcaught.abortSp] at hr0 hsp
  refine ⟨t, hrestores, ?_, ?_, ?_, ?_, hhandler.result⟩
  · rw [State.bank, hhandler.mode, hmode, ← State.bank, hcaught.bank]
  · rw [hhandler.sp, hsp]
  · rw [hhandler.spsr, hspsr, hcaught.spsr]
  · have hrecord := hhandler.record
    rw [hr0] at hrecord
    rw [hhandler.sp, hsp]
    exact hrecord

theorem DebugEvent.abortStack (h : DebugEvent b kind s c resume s') :
    s'.sp .abort = s.sp .abort := by
  obtain ⟨t, hrestores, hbank, hsp, _⟩ := h.handled
  rw [hrestores.abortSp hbank, hsp]
  exact BitVec.sub_add_cancel _ _

theorem DebugEvent.loaded (h : DebugEvent b kind s c resume s')
    (hstack : b.freertos = true → resume = true →
      ByteMemory.Disjoint (callPlace c) 8 (s.sp .abort - 316) 316) :
    Loaded c (b.fields.merge s.cpsr c.cpsr.raw) s' := by
  obtain ⟨t, hrestores, hbank, hsp, hspsr, hrecord, hresult⟩ := h.handled
  rw [← hspsr]
  refine hrestores.loaded hbank hrecord ?_
  intro hbuild hr0
  have hresume : resume = true := by
    cases resume
    · exact absurd hresult hr0
    · rfl
  have hplace : t.sp .abort + BitVec.ofNat 32 12 = s.sp .abort - 316 := by
    rw [hsp]
    bv_omega
  rw [hplace]
  exact hstack hbuild hresume

theorem OfProgram.mode_merge (h : OfProgram b s c resume) (hprogram : InProgram s) :
    Bank.ofMode (Bitfields.field 0 5 (b.fields.merge s.cpsr c.cpsr.raw)) = .user := by
  rw [StatusFields.mode_merge]
  split_ifs
  · rcases h.mode with hmode | hmode <;> rw [hmode] <;> rfl
  · exact hprogram.bank

theorem DebugEvent.restored (h : DebugEvent b kind s c resume s') (hprogram : InProgram s)
    (hstate : OfProgram b s c resume) : Restored b.fields s c s' := by
  have hloaded := h.loaded hstate.stack
  have huser : s'.bank = .user := by
    rw [State.bank, State.mode, hloaded.cpsr]
    exact hstate.mode_merge hprogram
  constructor
  case gpr => exact hloaded.gpr
  case sp =>
    rw [State.currentSp, huser]
    exact hloaded.sp
  case lr =>
    rw [State.currentLr, huser]
    exact hloaded.lr
  case pc => exact hloaded.pc.trans hstate.pc
  case fpscr => exact hloaded.fpscr
  case d => exact hloaded.d
  case cpsr =>
    intro i hi
    by_cases hlt : i < 32
    · rw [hloaded.cpsr, StatusFields.getLsbD_merge _ _ _ hlt]
      rcases hi with hmask | hsame
      · rw [if_pos hmask]
      · rw [hsame, ite_self]
    · rw [BitVec.getLsbD_of_ge _ _ (by omega), BitVec.getLsbD_of_ge _ _ (by omega)]

/-- Every abort is passed on as it came or is a debug event that ends in the state
that the handler asks for. -/
theorem faithful_switch (b : Build) (kind : AbortKind) (s : State) : FaithfulSwitch b kind s where
  passedOn := passedOn
  handed := handed
  restored := fun hprogram _ _ _ hrun hstate => hrun.restored hprogram hstate
  abortStack := fun _ _ _ hrun => hrun.abortStack

namespace CatchDebugEvent

def handlerStores (s : State) (c : DebugEventContext) (resume : Bool) : State :=
  { s.setGpr r0 (if resume then 1 else 0) with
    mem := storeWords s.mem (s.gpr r0) c.frameWords }

theorem handlerReturns_handlerStores (s : State) (c : DebugEventContext) (resume : Bool) :
    HandlerReturns s c resume (handlerStores s c resume) where
  mode := rfl
  sp := rfl
  spsr := rfl
  record := DebugEventContext.recordAt_storeWords ..
  result := by simp [handlerStores, State.setGpr]

theorem schedulerResumed_refl (s : State) : SchedulerResumed s s :=
  ⟨rfl, rfl, fun _ _ => rfl, rfl, rfl, fun _ _ => rfl⟩

theorem exists_restores (b : Build) (s : State) : ∃ s', Restores b s s' := by
  cases hbuild : b.freertos with
  | false => exact ⟨_, .withoutScheduler hbuild⟩
  | true =>
    cases hresult : (checkResult (restoreUserBank (restoreStatus b.fields s))).eq with
    | true => exact ⟨_, .schedulerKept hbuild hresult⟩
    | false => exact ⟨_, .schedulerResumed _ hbuild hresult (schedulerResumed_refl _)⟩

end CatchDebugEvent

/-- The handler can leave any struct. -/
theorem exists_debugEvent (b : Build) (h : (kind.vector (kind.entry s)).1 = .catchDebugEvent)
    (c : DebugEventContext) (resume : Bool) : ∃ s', DebugEvent b kind s c resume s' := by
  obtain ⟨s', hrestores⟩ := exists_restores b
    (handlerStores (save (kind.vector (kind.entry s)).2) c resume)
  exact ⟨s', h, _, handlerReturns_handlerStores _ c resume, hrestores⟩

/-- A stack pointer at the top of the abort stack has the call of `xTaskResumeAll`
push the link register onto the program counter. -/
theorem exists_overwritten (hbuild : b.freertos = true)
    (h : (kind.vector (kind.entry s)).1 = .catchDebugEvent)
    (hplace : callPlace c = s.sp .abort - 8) :
    ∃ s', DebugEvent b kind s c true s' ∧
      s'.pc = State.branchTarget (b.fields.merge s.cpsr c.cpsr.raw) c.linkRegister := by
  let stored := handlerStores (save (kind.vector (kind.entry s)).2) c true
  have hhandler := handlerReturns_handlerStores (save (kind.vector (kind.entry s)).2) c true
  have hcaught := caught_of_vector h
  obtain ⟨hr0, hsp, hspsr, hmode, _⟩ := save_spec hcaught.bank
  rw [hcaught.abortSp] at hr0 hsp
  have hbank : stored.bank = .abort := by
    rw [State.bank, hhandler.mode, hmode, ← State.bank, hcaught.bank]
  have hrecord : DebugEventContext.recordAt stored.mem (stored.sp .abort) = c := by
    rw [hhandler.sp, hsp, ← hr0]
    exact hhandler.record
  have hhalf := (halfRestored_restoreUserBank b.fields hbank hrecord).checkResult
  have hresult : (checkResult (restoreUserBank (restoreStatus b.fields stored))).eq = false := by
    rw [eq_checkResult, hhandler.result]
    rfl
  obtain ⟨_, _, _, _, hmem⟩ := enterSystemMode_spec hhalf
  have hback := hhalf.leaveSystemMode (schedulerResumed_refl _)
  have hstored : stored.sp .abort = s.sp .abort - 328 := hhandler.sp.trans hsp
  have hstatus : stored.spsr .abort = s.cpsr := by
    rw [hhandler.spsr, hspsr, hcaught.spsr]
  have hpc : loadWord (enterSystemMode (checkResult
      (restoreUserBank (restoreStatus b.fields stored)))).mem
      (stored.sp .abort + BitVec.ofNat 32 324) = c.linkRegister := by
    have haddr : stored.sp .abort + BitVec.ofNat 32 324 =
        callPlace c + BitVec.ofNat 32 (4 * 1) := by
      rw [hstored, hplace]
      bv_omega
    rw [haddr, hmem]
    exact loadWord_storeWords _ _ (by simp) rfl
  have hreturn := hback.pc_restoreGeneral
  refine ⟨_, ⟨h, stored, hhandler, .schedulerResumed _ hbuild hresult
    (schedulerResumed_refl _)⟩, hreturn.trans ?_⟩
  rw [hstatus]
  exact congrArg _ hpc

def atBreakpoint : State where
  gpr := fun _ => 0
  sp := fun bank => if bank = .abort then 0x1000 else 0x2000
  lr := fun _ => 0
  spsr := fun _ => 0
  pc := 0x8000
  cpsr := 0b10000
  fpscr := 0
  d := fun _ => 0
  ifsr := 0b00010
  dfsr := 0
  mem := fun _ => 0

theorem atBreakpoint_caught :
    (AbortKind.prefetch.vector (AbortKind.prefetch.entry atBreakpoint)).1 = .catchDebugEvent :=
  (handed (.inl (by decide)) (by decide)).1

/-- The handler asks for big-endian data, for Abort mode, for an address that ARM
state does not have, or for a stack on the abort stack, and the program does not get
it. The reserved fault status is not passed on. -/
theorem not_every_context_restored :
    (∀ fields : StatusFields, fields.extension = false →
      ∃ s', DebugEvent ⟨true, fields⟩ .prefetch atBreakpoint
        { interrupted atBreakpoint with cpsr := ⟨0x210⟩ } false s' ∧ s'.cpsr ≠ 0x210) ∧
    (∀ fields : StatusFields, ∃ s', DebugEvent ⟨true, fields⟩ .prefetch atBreakpoint
        { interrupted atBreakpoint with cpsr := ⟨0x17⟩ } false s' ∧
      ¬ (s'.cpsr = 0x17 ∧ s'.currentSp = 0x2000)) ∧
    (∀ fields : StatusFields, ∃ s', DebugEvent ⟨true, fields⟩ .prefetch atBreakpoint
        { interrupted atBreakpoint with programCounter := 0x8002 } false s' ∧
      s'.pc ≠ 0x8002) ∧
    (∀ fields : StatusFields, ∃ s', DebugEvent ⟨true, fields⟩ .prefetch atBreakpoint
        { interrupted atBreakpoint with stackPointer := 0x1000, linkRegister := 0x4000 } true s' ∧
      s'.pc ≠ 0x8000) ∧
    faultStatus 0x402 ≠ debugEventStatus ∧
      (AbortKind.prefetch.vector
        (AbortKind.prefetch.entry { atBreakpoint with ifsr := 0x402 })).1 ≠ .originalVector := by
  refine ⟨?_, ?_, ?_, ?_, by decide, ?_⟩
  · rintro ⟨f, s, x, c⟩ hextension
    obtain ⟨s', hevent⟩ := exists_debugEvent ⟨true, ⟨f, s, x, c⟩⟩ atBreakpoint_caught
      { interrupted atBreakpoint with cpsr := ⟨0x210⟩ } false
    refine ⟨s', hevent, ?_⟩
    rw [(hevent.loaded fun _ h => by cases h).cpsr]
    obtain rfl : x = false := hextension
    clear hevent
    revert f s c
    decide
  · intro fields
    obtain ⟨s', hevent⟩ := exists_debugEvent ⟨true, fields⟩ atBreakpoint_caught
      { interrupted atBreakpoint with cpsr := ⟨0x17⟩ } false
    refine ⟨s', hevent, ?_⟩
    rintro ⟨hcpsr, hsp⟩
    have hbank : s'.bank = .abort := by
      rw [State.bank, State.mode, hcpsr]
      decide
    rw [State.currentSp, hbank, hevent.abortStack] at hsp
    exact absurd hsp (by decide)
  · intro fields
    obtain ⟨s', hevent⟩ := exists_debugEvent ⟨true, fields⟩ atBreakpoint_caught
      { interrupted atBreakpoint with programCounter := 0x8002 } false
    refine ⟨s', hevent, ?_⟩
    have hcpsr : fields.merge atBreakpoint.cpsr (interrupted atBreakpoint).cpsr.raw = 0b10000 :=
      fields.merge_self _
    rw [(hevent.loaded fun _ h => by cases h).pc, hcpsr]
    decide
  · intro fields
    obtain ⟨s', hevent, hpc⟩ := exists_overwritten (b := ⟨true, fields⟩)
      (c := { interrupted atBreakpoint with stackPointer := 0x1000, linkRegister := 0x4000 })
      rfl atBreakpoint_caught (by decide)
    refine ⟨s', hevent, ?_⟩
    have hcpsr : fields.merge atBreakpoint.cpsr (interrupted atBreakpoint).cpsr.raw = 0b10000 :=
      fields.merge_self _
    rw [hpc, hcpsr]
    decide
  · obtain ⟨t, _, hvector⟩ := vector_spec .prefetch { atBreakpoint with ifsr := 0x402 }
    rw [hvector, if_pos (by decide)]
    intro hpassed
    cases hpassed

end V5gdb

