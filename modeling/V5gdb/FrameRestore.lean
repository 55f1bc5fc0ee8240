import V5gdb.Overlay

/-!
The restore at the end of a debug event.
The status and the user bank are loaded first, and the rest of the struct stays on
the abort stack over the call that resumes the scheduler. Whatever the struct holds,
the abort stack is popped to its end.
-/
namespace V5gdb.CatchDebugEvent

open ByteMemory Arm

variable {s s' t : State} {c : DebugEventContext} {a status : BitVec 32}

structure HoldsGeneral (m : Mem 32) (a : BitVec 32) (c : DebugEventContext) : Prop where
  fpscr : loadWord m (a + BitVec.ofNat 32 12) = c.fpscr
  vfpRegisters : ∀ i : Fin 32,
    loadDouble m (a + BitVec.ofNat 32 (12 + (4 + 8 * i.val))) = c.vfpRegisters i
  registers : ∀ i : Fin 13,
    loadWord m (a + BitVec.ofNat 32 (12 + (260 + 4 * i.val))) = c.registers i
  programCounter : loadWord m (a + BitVec.ofNat 32 (12 + 312)) = c.programCounter

theorem holdsGeneral_of_recordAt {m : Mem 32} (h : DebugEventContext.recordAt m a = c) :
    HoldsGeneral m a c := by
  rw [← h]
  constructor
  case fpscr => rfl
  case vfpRegisters =>
    intro i
    rw [← Nat.add_assoc]
    rfl
  case registers =>
    intro i
    rw [← Nat.add_assoc]
    rfl
  case programCounter => rfl

/-- Only the 316 bytes that are still on the stack count. -/
theorem HoldsGeneral.congr {m m' : Mem 32} (h : HoldsGeneral m a c)
    (heq : ∀ x, Within (a + BitVec.ofNat 32 12) 316 x → m' x = m x) : HoldsGeneral m' a c := by
  have hpart : ∀ j n x, j + n ≤ 316 → Within (a + BitVec.ofNat 32 (12 + j)) n x →
      m' x = m x := by
    intro j n x hj hx
    rw [← add_ofNat_add] at hx
    exact heq x (hx.of_add (by decide) hj)
  constructor
  case fpscr =>
    rw [← h.fpscr]
    exact loadWord_congr (by decide) fun x hx => hpart 0 4 x (by decide) hx
  case vfpRegisters =>
    intro i
    rw [← h.vfpRegisters i]
    exact loadDouble_congr (by decide) fun x hx => hpart _ 8 x (by omega) hx
  case registers =>
    intro i
    rw [← h.registers i]
    exact loadWord_congr (by decide) fun x hx => hpart _ 4 x (by omega) hx
  case programCounter =>
    rw [← h.programCounter]
    exact loadWord_congr (by decide) fun x hx => hpart _ 4 x (by decide) hx

/-- The status and the user bank of `c` have been loaded, and the abort stack is at
the rest of it. -/
structure HalfRestored (c : DebugEventContext) (a status : BitVec 32) (s : State) : Prop where
  bank : s.bank = .abort
  abortSp : s.sp .abort = a + BitVec.ofNat 32 12
  sp : s.sp .user = c.stackPointer
  lr : s.lr .user = c.linkRegister
  spsr : s.spsr .abort = status

theorem restoreStatus_spec (fields : StatusFields) (hbank : s.bank = .abort)
    (hrecord : DebugEventContext.recordAt s.mem (s.sp .abort) = c) :
    (restoreStatus fields s).bank = .abort ∧
      (restoreStatus fields s).sp =
        Function.update s.sp .abort (s.sp .abort + BitVec.ofNat 32 4) ∧
      (restoreStatus fields s).spsr .abort = fields.merge (s.spsr .abort) c.cpsr.raw := by
  have hmasked : s.cpsidI.bank = .abort := by
    rw [State.bank, State.mode_cpsidI, ← State.bank, hbank]
  have hcurrent : s.cpsidI.currentSp = s.sp .abort := by
    rw [State.currentSp, hmasked]
    rfl
  have htop : s.cpsidI.top 0 = c.cpsr.raw := by
    rw [State.top, hcurrent, ← hrecord]
    rfl
  refine ⟨hmasked, ?_, ?_⟩
  · have hsp : (restoreStatus fields s).sp = Function.update s.sp s.cpsidI.bank
        (s.cpsidI.currentSp + BitVec.ofNat 32 (4 * 1)) := rfl
    rw [hsp, hmasked, hcurrent]
  · have hspsr : (restoreStatus fields s).spsr = Function.update s.spsr s.cpsidI.bank
        (fields.merge (s.spsr s.cpsidI.bank)
          (Function.update s.gpr r1 (s.cpsidI.top 0) r1)) := rfl
    rw [hspsr, hmasked, htop, Function.update_self, Function.update_self]

theorem halfRestored_restoreUserBank (fields : StatusFields) (hbank : s.bank = .abort)
    (hrecord : DebugEventContext.recordAt s.mem (s.sp .abort) = c) :
    HalfRestored c (s.sp .abort) (fields.merge (s.spsr .abort) c.cpsr.raw)
      (restoreUserBank (restoreStatus fields s)) := by
  obtain ⟨hbank', hsp, hspsr⟩ := restoreStatus_spec fields hbank hrecord
  have hmem : (restoreStatus fields s).mem = s.mem := rfl
  have hcurrent : (restoreStatus fields s).currentSp = s.sp .abort + BitVec.ofNat 32 4 := by
    rw [State.currentSp, hbank', hsp, Function.update_self]
  have hfields : (restoreUserBank (restoreStatus fields s)).sp =
      Function.update (Function.update (restoreStatus fields s).sp .user
        ((restoreStatus fields s).top 0)) (restoreStatus fields s).bank
        (Function.update (restoreStatus fields s).sp .user ((restoreStatus fields s).top 0)
          (restoreStatus fields s).bank + BitVec.ofNat 32 (4 * 2)) := rfl
  rw [hbank', hsp] at hfields
  constructor
  case bank => exact hbank'
  case abortSp =>
    rw [hfields, Function.update_self, Function.update_of_ne (by decide), Function.update_self,
      add_ofNat_add]
  case sp =>
    rw [hfields, Function.update_of_ne (by decide), Function.update_self, State.top, hcurrent,
      hmem, add_ofNat_add, ← hrecord]
    rfl
  case lr =>
    have hlr : (restoreUserBank (restoreStatus fields s)).lr .user =
        (restoreStatus fields s).top 1 := rfl
    rw [hlr, State.top, hcurrent, hmem, add_ofNat_add, ← hrecord]
    rfl
  case spsr => exact hspsr

theorem HalfRestored.checkResult (h : HalfRestored c a status s) :
    HalfRestored c a status (checkResult s) where
  bank := by
    rw [CatchDebugEvent.checkResult, State.bank, State.mode_cmp, ← State.bank, h.bank]
  abortSp := h.abortSp
  sp := h.sp
  lr := h.lr
  spsr := h.spsr

/-- Where the two words that are kept over the call of `xTaskResumeAll` lie on the
stack of the program. -/
def callPlace (c : DebugEventContext) : BitVec 32 := (c.stackPointer &&& ~~~0b111) - 8

theorem enterSystemMode_spec (h : HalfRestored c a status s) :
    (enterSystemMode s).mode = 0b11111 ∧ (enterSystemMode s).sp .user = callPlace c ∧
      (enterSystemMode s).sp .abort = a + BitVec.ofNat 32 12 ∧
      (enterSystemMode s).spsr .abort = status ∧
      (enterSystemMode s).mem =
        storeWords s.mem (callPlace c) [c.stackPointer, c.linkRegister] := by
  have hmode : (s.cps 0b11111).mode = 0b11111 := State.mode_cps s _
  have hbank : (s.cps 0b11111).bank = .user := by
    rw [State.bank, hmode]
    rfl
  have hcurrent : (s.cps 0b11111).currentSp = c.stackPointer := by
    rw [State.currentSp, hbank]
    exact h.sp
  let aligned := ((s.cps 0b11111).setGpr r0 (s.cps 0b11111).currentSp).setSp
    ((s.cps 0b11111).currentSp &&& ~~~0b111)
  have hpushed : State.Pushed aligned [(s.cps 0b11111).currentSp, aligned.currentLr]
      (enterSystemMode s) := State.pushed_push aligned _
  have hsp : aligned.sp =
      Function.update s.sp .user (c.stackPointer &&& ~~~0b111) := by
    rw [← hcurrent, ← hbank]
    rfl
  have hplace : aligned.currentSp - BitVec.ofNat 32 (4 * 2) = callPlace c := by
    rw [State.currentSp, hsp, show aligned.bank = .user from hbank, Function.update_self]
    rfl
  have hlr : aligned.currentLr = c.linkRegister := by
    rw [State.currentLr, show aligned.bank = .user from hbank]
    exact h.lr
  have hmem := hpushed.mem
  have hstack := hpushed.sp
  rw [hcurrent, hlr] at hmem
  rw [show aligned.bank = .user from hbank, hsp] at hstack
  refine ⟨(congrArg (Bitfields.field 0 5) hpushed.cpsr).trans hmode, ?_, ?_, ?_, ?_⟩
  · rw [hstack, Function.update_self]
    exact hplace
  · rw [hstack, Function.update_of_ne (by decide), Function.update_of_ne (by decide)]
    exact h.abortSp
  · rw [hpushed.spsr]
    exact h.spsr
  · exact hmem.trans (by rw [← hplace]; rfl)

theorem HalfRestored.leaveSystemMode (h : HalfRestored c a status s)
    (hcall : SchedulerResumed (enterSystemMode s) s') :
    HalfRestored c a status (leaveSystemMode s') := by
  obtain ⟨hmode, hsp, habort, hspsr, hmem⟩ := enterSystemMode_spec h
  have hbank : s'.bank = .user := by
    rw [State.bank, hcall.mode, hmode]
    rfl
  have hcurrent : s'.currentSp = callPlace c := by
    rw [State.currentSp, hbank, hcall.sp, hsp]
  have hword : ∀ k v, [c.stackPointer, c.linkRegister][k]? = some v → s'.top k = v := by
    intro k v hv
    have hk : k < 2 := (List.getElem?_eq_some_iff.mp hv).1
    have hsaved : loadWord s'.mem (callPlace c + BitVec.ofNat 32 (4 * k)) =
        loadWord (enterSystemMode s).mem (callPlace c + BitVec.ofNat 32 (4 * k)) := by
      refine loadWord_congr (by decide) fun x hx => hcall.saved x ?_
      rw [hsp]
      exact hx.of_add (by decide) (by omega)
    rw [State.top, hcurrent, hsaved, hmem]
    exact loadWord_storeWords s.mem _ (by simp) hv
  have hstack : (CatchDebugEvent.leaveSystemMode s').sp =
      Function.update (Function.update s'.sp s'.bank
        (s'.currentSp + BitVec.ofNat 32 (4 * 2))) s'.bank (s'.top 0) := rfl
  have hlink : (CatchDebugEvent.leaveSystemMode s').lr =
      Function.update s'.lr s'.bank (s'.top 1) := rfl
  rw [hbank, hword 0 _ rfl, Function.update_idem] at hstack
  rw [hbank, hword 1 _ rfl] at hlink
  constructor
  case bank =>
    have hback : (CatchDebugEvent.leaveSystemMode s').mode = 0b10111 := State.mode_cps _ _
    rw [State.bank, hback]
    rfl
  case abortSp =>
    rw [hstack, Function.update_of_ne (by decide), hcall.abortSp, habort]
  case sp => rw [hstack, Function.update_self]
  case lr => rw [hlink, Function.update_self]
  case spsr =>
    rw [← hspsr, ← hcall.spsr]
    rfl

/-- The call leaves the rest of the struct alone, if the two words are not pushed
onto it. -/
theorem HalfRestored.general_leaveSystemMode (h : HalfRestored c a status s)
    (hgeneral : HoldsGeneral s.mem a c) (hcall : SchedulerResumed (enterSystemMode s) s')
    (hfree : ByteMemory.Disjoint (callPlace c) 8 (a + BitVec.ofNat 32 12) 316) :
    HoldsGeneral (CatchDebugEvent.leaveSystemMode s').mem a c := by
  obtain ⟨_, _, habort, _, hmem⟩ := enterSystemMode_spec h
  refine hgeneral.congr fun x hx => ?_
  have hkept : s'.mem x = (enterSystemMode s).mem x := hcall.frame x (by rwa [habort])
  refine hkept.trans ?_
  rw [hmem]
  exact storeWords_of_not_within s.mem (by simp) (hfree.symm x hx)

theorem doubles_cover (i : Fin 32) :
    (i ∈ upperDoubles ∧ 16 + upperDoubles.idxOf i = i.val) ∨
      (i ∉ upperDoubles ∧ i ∈ lowerDoubles ∧ lowerDoubles.idxOf i = i.val) := by
  revert i
  decide

structure Loaded (c : DebugEventContext) (status : BitVec 32) (s : State) : Prop where
  gpr : s.gpr = c.registers
  sp : s.sp .user = c.stackPointer
  lr : s.lr .user = c.linkRegister
  pc : s.pc = State.branchTarget status c.programCounter
  cpsr : s.cpsr = status
  fpscr : s.fpscr = c.fpscr
  d : s.d = c.vfpRegisters

theorem popped_restoreFpscr (s : State) : State.Popped s 1 (restoreFpscr s) where
  sp := rfl
  lr := rfl
  spsr := rfl
  cpsr := rfl
  mem := rfl

theorem fpscr_restoreFpscr (s : State) : (restoreFpscr s).fpscr = s.top 0 := by
  simp [restoreFpscr, State.release, State.setSp, State.setGpr]

/-- The two instructions load the double registers as one block. -/
theorem d_vpop (s : State) (i : Fin 32) :
    ((s.vpop lowerDoubles).vpop upperDoubles).d i =
      loadDouble s.mem (s.currentSp + BitVec.ofNat 32 (8 * i.val)) := by
  have hlower := State.popped_vpop s lowerDoubles
  have hlength : lowerDoubles.length = 16 := rfl
  rw [State.vpop]
  simp only
  rcases doubles_cover i with ⟨hmem, hindex⟩ | ⟨hmem, hmem', hindex⟩
  · rw [if_pos hmem, hlower.currentSp, hlower.mem, add_ofNat_add, hlength]
    congr 3
    omega
  · rw [if_neg hmem, State.vpop]
    simp only
    rw [if_pos hmem', hindex]

theorem popped_restoreFloating (s : State) :
    State.Popped s 65 (((restoreFpscr s).vpop lowerDoubles).vpop upperDoubles) :=
  (popped_restoreFpscr s).trans
    ((State.popped_vpop _ lowerDoubles).trans (State.popped_vpop _ upperDoubles))

/-- The exception return is the last to pop from the struct. -/
theorem HalfRestored.sp_exceptionReturn (h : HalfRestored c a status s)
    (hpopped : State.Popped s 65 t) :
    t.exceptionReturn.sp = Function.update s.sp .abort (a + BitVec.ofNat 32 328) := by
  have hcurrent : s.currentSp = a + BitVec.ofNat 32 12 := by
    rw [State.currentSp, h.bank, h.abortSp]
  have hrelease : t.exceptionReturn.sp =
      Function.update t.sp t.bank (t.currentSp + BitVec.ofNat 32 (4 * 14)) := rfl
  rw [hrelease, hpopped.bank, hpopped.currentSp, hpopped.sp, h.bank, Function.update_idem,
    hcurrent, add_ofNat_add, add_ofNat_add]

theorem HalfRestored.exceptionReturn (h : HalfRestored c a status s)
    (hgeneral : HoldsGeneral s.mem a c) (hpopped : State.Popped s 65 t)
    (hfpscr : t.fpscr = s.top 0)
    (hd : ∀ i : Fin 32,
      t.d i = loadDouble s.mem (s.currentSp + BitVec.ofNat 32 (4 + 8 * i.val))) :
    Loaded c status t.exceptionReturn := by
  have hcurrent : s.currentSp = a + BitVec.ofNat 32 12 := by
    rw [State.currentSp, h.bank, h.abortSp]
  have htop : ∀ k, t.top k = loadWord s.mem (a + BitVec.ofNat 32 (12 + (260 + 4 * k))) := by
    intro k
    rw [hpopped.top, State.top, hcurrent, add_ofNat_add]
    congr 3
    omega
  have hstatus : t.spsr t.bank = status := by
    rw [hpopped.bank, hpopped.spsr, h.bank, h.spsr]
  constructor
  case gpr => exact funext fun i => (htop i).trans (hgeneral.registers i)
  case sp =>
    rw [h.sp_exceptionReturn hpopped, Function.update_of_ne (by decide)]
    exact h.sp
  case lr => exact (congrFun hpopped.lr .user).trans h.lr
  case pc =>
    have hpc : t.exceptionReturn.pc = State.branchTarget (t.spsr t.bank) (t.top 13) := rfl
    rw [hpc, hstatus, htop]
    exact congrArg _ hgeneral.programCounter
  case cpsr => exact hstatus
  case fpscr =>
    have hword : s.top 0 = loadWord s.mem (a + BitVec.ofNat 32 12) := by
      rw [State.top, hcurrent, add_ofNat_add]
    exact (hfpscr.trans hword).trans hgeneral.fpscr
  case d =>
    funext i
    refine (hd i).trans ?_
    rw [hcurrent, add_ofNat_add]
    exact hgeneral.vfpRegisters i

theorem HalfRestored.restoreGeneral (h : HalfRestored c a status s)
    (hgeneral : HoldsGeneral s.mem a c) : Loaded c status (restoreGeneral s) := by
  have hfpscr := popped_restoreFpscr s
  refine h.exceptionReturn hgeneral (popped_restoreFloating s) (fpscr_restoreFpscr s) fun i => ?_
  rw [d_vpop, hfpscr.currentSp, hfpscr.mem, add_ofNat_add]

theorem HalfRestored.pc_restoreGeneral (h : HalfRestored c a status s) :
    (CatchDebugEvent.restoreGeneral s).pc =
      State.branchTarget status (loadWord s.mem (a + BitVec.ofNat 32 324)) := by
  let held : DebugEventContext :=
    { DebugEventContext.recordAt s.mem a with
      stackPointer := c.stackPointer
      linkRegister := c.linkRegister }
  have hheld : HalfRestored held a status s := ⟨h.bank, h.abortSp, h.sp, h.lr, h.spsr⟩
  have hrecord : HoldsGeneral s.mem a (DebugEventContext.recordAt s.mem a) :=
    holdsGeneral_of_recordAt rfl
  have hgeneral : HoldsGeneral s.mem a held :=
    ⟨hrecord.fpscr, hrecord.vfpRegisters, hrecord.registers, hrecord.programCounter⟩
  exact (hheld.restoreGeneral hgeneral).pc

theorem HalfRestored.abortSp_restoreGeneral (h : HalfRestored c a status s) :
    (CatchDebugEvent.restoreGeneral s).sp .abort = a + BitVec.ofNat 32 328 := by
  refine (congrFun (h.sp_exceptionReturn (popped_restoreFloating s)) .abort).trans ?_
  rw [Function.update_self]

theorem eq_checkResult (fields : StatusFields) (s : State) :
    (checkResult (restoreUserBank (restoreStatus fields s))).eq = decide (s.gpr r0 = 0) :=
  State.eq_cmp _ _ _

section Restores

variable {b : Build}

/-- Whatever the struct holds, the abort stack is popped to its end. -/
theorem Restores.abortSp (h : Restores b s s') (hbank : s.bank = .abort) :
    s'.sp .abort = s.sp .abort + BitVec.ofNat 32 328 := by
  have hhalf := halfRestored_restoreUserBank b.fields hbank rfl
  cases h with
  | withoutScheduler => exact hhalf.abortSp_restoreGeneral
  | schedulerKept => exact hhalf.checkResult.abortSp_restoreGeneral
  | schedulerResumed t _ _ hcall =>
    exact (hhalf.checkResult.leaveSystemMode hcall).abortSp_restoreGeneral

theorem Restores.loaded (h : Restores b s s') (hbank : s.bank = .abort)
    (hrecord : DebugEventContext.recordAt s.mem (s.sp .abort) = c)
    (hfree : b.freertos = true → s.gpr r0 ≠ 0 →
      ByteMemory.Disjoint (callPlace c) 8 (s.sp .abort + BitVec.ofNat 32 12) 316) :
    Loaded c (b.fields.merge (s.spsr .abort) c.cpsr.raw) s' := by
  have hhalf := halfRestored_restoreUserBank b.fields hbank hrecord
  have hgeneral := holdsGeneral_of_recordAt hrecord
  cases h with
  | withoutScheduler => exact hhalf.restoreGeneral hgeneral
  | schedulerKept => exact hhalf.checkResult.restoreGeneral hgeneral
  | schedulerResumed t hbuild hresult hcall =>
    have hr0 : s.gpr r0 ≠ 0 := by
      rw [eq_checkResult] at hresult
      exact of_decide_eq_false hresult
    exact (hhalf.checkResult.leaveSystemMode hcall).restoreGeneral
      (hhalf.checkResult.general_leaveSystemMode hgeneral hcall (hfree hbuild hr0))

end Restores

end V5gdb.CatchDebugEvent
