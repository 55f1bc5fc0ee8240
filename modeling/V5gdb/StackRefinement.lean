import V5gdb.FrameRestore

/-!
The abort stack as a list of words is what the instructions keep in memory.
A debug event, the first part of the restore and the second part each do to the
words in memory what `Cpu` does to its list, and load the registers from the words
that the list gives up.
-/
namespace V5gdb.CatchDebugEvent

open ByteMemory Arm

variable {τ : Type*} [DecidableEq τ] {cpu : Cpu τ} {s : State}

structure Represents (cpu : Cpu τ) (s : State) : Prop where
  stack : HoldsWords s.mem (s.sp .abort) cpu.abortStack
  spsr : s.spsr .abort = cpu.spsr

theorem represents_catchDebugEvent (hbank : s.bank = .abort)
    (hstack : HoldsWords s.mem (s.sp .abort) cpu.abortStack)
    (hroom : 4 * (82 + cpu.abortStack.length) ≤ 2 ^ 32) :
    Represents (cpu.catchDebugEvent (savedContext s)) (save s) := by
  obtain ⟨_, hsp, hspsr, _, _⟩ := save_spec hbank
  have hlen := (savedContext s).length_frameWords
  have hmem : (save s).mem =
      storeWords s.mem (s.sp .abort - 328) (savedContext s).frameWords := by
    have hpushed := (pushed_save hbank).mem
    rw [hlen, State.currentSp, hbank] at hpushed
    exact hpushed
  constructor
  case stack =>
    rw [hmem, hsp]
    apply HoldsWords.storeWords
    · rw [hlen, show s.sp .abort - 328 + BitVec.ofNat 32 (4 * 82) = s.sp .abort from
        BitVec.sub_add_cancel _ _]
      exact hstack
    · rw [List.length_append, hlen]
      exact hroom
  case spsr => exact congrFun hspsr .abort

/-- The handler has written the context into the frame where it lies. -/
theorem represents_popStatus {fields : StatusFields} {a : Activation} {rest : List Activation}
    {c : DebugEventContext} {unpause : Bool} (hbank : s.bank = .abort)
    (hstack : HoldsWords s.mem (s.sp .abort) (Cpu.writeFrame cpu.abortStack c))
    (hspsr : s.spsr .abort = cpu.spsr) :
    Represents (cpu.popStatus fields a rest c unpause)
        (restoreUserBank (restoreStatus fields s)) ∧
      (restoreUserBank (restoreStatus fields s)).sp .user = c.stackPointer ∧
      (restoreUserBank (restoreStatus fields s)).lr .user = c.linkRegister := by
  obtain ⟨hframe, hbelow⟩ := holdsWords_append.mp hstack
  have hrecord := DebugEventContext.recordAt_of_holdsWords hframe
  have hhalf := halfRestored_restoreUserBank fields hbank hrecord
  refine ⟨?_, hhalf.sp, hhalf.lr⟩
  constructor
  case stack =>
    rw [hhalf.abortSp]
    have hparts : HoldsWords s.mem (s.sp .abort)
        ([c.cpsr.raw, c.stackPointer, c.linkRegister] ++
          (Cpu.writeFrame cpu.abortStack c).drop 3) := hstack
    exact (holdsWords_append.mp hparts).2
  case spsr =>
    rw [hhalf.spsr, hspsr]
    rfl

theorem holdsGeneral_of_holdsWords {m : Mem 32} {a : BitVec 32} {c : DebugEventContext}
    (h : HoldsWords m (a + BitVec.ofNat 32 12) c.generalWords) : HoldsGeneral m a c := by
  have hword : ∀ k v, c.frameWords[k + 3]? = some v →
      loadWord m (a + BitVec.ofNat 32 (12 + 4 * k)) = v := by
    intro k v hv
    rw [← add_ofNat_add]
    exact h k v hv
  constructor
  case fpscr => exact hword 0 _ rfl
  case vfpRegisters =>
    intro i
    obtain ⟨hlow, hhigh⟩ := c.getElem?_vfpRegisters i
    have hplace : 4 + 8 * i.val = 4 * (1 + 2 * i.val) := by omega
    rw [← add_ofNat_add, hplace]
    apply h.loadDouble
    · rw [show 4 + 2 * i.val = 1 + 2 * i.val + 3 by omega] at hlow
      exact hlow
    · rw [show 4 + 2 * i.val + 1 = 1 + 2 * i.val + 1 + 3 by omega] at hhigh
      exact hhigh
  case registers =>
    intro i
    have hplace : 260 + 4 * i.val = 4 * (65 + i.val) := by omega
    rw [hplace]
    exact hword _ _ (by rw [← c.getElem?_registers i]; congr 1; omega)
  case programCounter => exact hword 78 _ c.getElem?_programCounter

/-- The exception return takes the general words off the list, and loads them. -/
theorem represents_popGeneral {c : DebugEventContext} {rest : List Activation}
    {below : List (BitVec 32)} (h : Represents cpu s) (hbank : s.bank = .abort)
    (hstack : cpu.abortStack = c.generalWords ++ below) :
    Represents (cpu.popGeneral rest) (restoreGeneral s) ∧
      Loaded { c with stackPointer := s.sp .user, linkRegister := s.lr .user } cpu.spsr
        (restoreGeneral s) := by
  let held : DebugEventContext :=
    { c with stackPointer := s.sp .user, linkRegister := s.lr .user }
  have hwords := h.stack
  rw [hstack] at hwords
  obtain ⟨hgeneral, hbelow⟩ := holdsWords_append.mp hwords
  have hplace : s.sp .abort = s.sp .abort - 12 + BitVec.ofNat 32 12 :=
    (BitVec.sub_add_cancel _ _).symm
  have hhalf : HalfRestored held (s.sp .abort - 12) cpu.spsr s :=
    ⟨hbank, hplace, rfl, rfl, h.spsr⟩
  rw [hplace] at hgeneral
  refine ⟨?_, hhalf.restoreGeneral (holdsGeneral_of_holdsWords hgeneral)⟩
  constructor
  case stack =>
    have hlist : (cpu.popGeneral rest).abortStack = below := by
      rw [Cpu.popGeneral, hstack, ← c.length_generalWords, List.drop_left]
    have hsp : (restoreGeneral s).sp .abort =
        s.sp .abort + BitVec.ofNat 32 (4 * c.generalWords.length) := by
      rw [hhalf.abortSp_restoreGeneral, c.length_generalWords]
      bv_omega
    rw [hlist, hsp]
    exact hbelow
  case spsr => exact h.spsr

end V5gdb.CatchDebugEvent
