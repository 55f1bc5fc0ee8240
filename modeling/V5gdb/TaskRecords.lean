import V5gdb.TaskRegisters

/-!
Writing all registers of a switched-out task at once.
The words of a new context hold the record at the offsets at which it is read back.
Where the new context lies is looked up through memory at the new stack pointer.
-/
namespace V5gdb.FreeRtosSystem

open ByteMemory

variable {s s' : FreeRtosSystem} {tid : BitVec 32} {task : TaskStatus} {id id' : ArmRegisterID}

theorem getElem?_flatMap_pairWords (f : ℕ → BitVec 64) {n i : ℕ} (hi : i < n) :
    ((List.range n).flatMap fun i => pairWords (f i))[2 * i]? = some ((f i).setWidth 32) ∧
      ((List.range n).flatMap fun i => pairWords (f i))[2 * i + 1]? =
        some ((f i >>> 32).setWidth 32) := by
  have hget : (List.range n)[i]? = some i := List.getElem?_range hi
  have hwords := getElem?_flatMap_doubleWords (List.range n) f i
  rw [hget] at hwords
  exact hwords

structure ContextLayout (registers : DebugEventContext) (nesting : BitVec 32)
    (ws : List (BitVec 32)) : Prop where
  length : ws.length = 83
  flag : ws[0]? = some 1
  fpscr : ws[1]? = some registers.fpscr
  high : ∀ i < 16, ws[2 + 2 * i]? =
      some ((registers.vfpRegisters (Fin.ofNat 32 (16 + i))).setWidth 32) ∧
    ws[2 + 2 * i + 1]? =
      some ((registers.vfpRegisters (Fin.ofNat 32 (16 + i)) >>> 32).setWidth 32)
  low : ∀ i < 16, ws[34 + 2 * i]? =
      some ((registers.vfpRegisters (Fin.ofNat 32 i)).setWidth 32) ∧
    ws[34 + 2 * i + 1]? = some ((registers.vfpRegisters (Fin.ofNat 32 i) >>> 32).setWidth 32)
  nesting : ws[66]? = some nesting
  general : ∀ i < 13, ws[67 + i]? = some (registers.registers (Fin.ofNat 13 i))
  lr : ws[80]? = some registers.linkRegister
  pc : ws[81]? = some registers.programCounter
  cpsr : ws[82]? = some registers.cpsr.raw

theorem getElem?_block {α : Type*} {ws : List α} (pre block post : List α) {k i : ℕ}
    (hws : ws = pre ++ (block ++ post)) (hpre : pre.length = k) (hi : i < block.length) :
    ws[k + i]? = block[i]? := by
  rw [hws, List.getElem?_append_right (by omega), hpre, Nat.add_sub_cancel_left,
    List.getElem?_append_left hi]

theorem contextLayout (registers : DebugEventContext) (nesting : BitVec 32) :
    ContextLayout registers nesting (contextWords registers nesting) := by
  have hpairs : ∀ f : ℕ → BitVec 64,
      ((List.range 16).flatMap fun i => pairWords (f i)).length = 32 := by
    intro f
    simp [pairWords]
  obtain ⟨d16, hd16⟩ : ∃ d16, d16 = (List.range 16).flatMap fun i =>
    pairWords (registers.vfpRegisters (Fin.ofNat 32 (16 + i))) := ⟨_, rfl⟩
  obtain ⟨d0, hd0⟩ : ∃ d0, d0 = (List.range 16).flatMap fun i =>
    pairWords (registers.vfpRegisters (Fin.ofNat 32 i)) := ⟨_, rfl⟩
  obtain ⟨gp, hgp⟩ : ∃ gp, gp = (List.range 13).map fun i =>
    registers.registers (Fin.ofNat 13 i) := ⟨_, rfl⟩
  have h16 : d16.length = 32 := by rw [hd16, hpairs]
  have h0 : d0.length = 32 := by rw [hd0, hpairs]
  have h13 : gp.length = 13 := by rw [hgp, List.length_map, List.length_range]
  have hws : contextWords registers nesting =
      [1, registers.fpscr] ++ (d16 ++ (d0 ++ ([nesting] ++ (gp ++
        [registers.linkRegister, registers.programCounter, registers.cpsr.raw])))) := by
    rw [contextWords, ← hd16, ← hd0, ← hgp]
    simp only [List.append_assoc]
  constructor
  case length =>
    rw [hws]
    simp [h16, h0, h13]
  case flag => rw [hws]; rfl
  case fpscr => rw [hws]; rfl
  case high =>
    intro i hi
    have hblock : ∀ k < 32, (contextWords registers nesting)[2 + k]? = d16[k]? := fun k hk =>
      getElem?_block _ _ _ hws rfl (by omega)
    rw [Nat.add_assoc, hblock _ (by omega), hblock _ (by omega), hd16]
    exact getElem?_flatMap_pairWords _ hi
  case low =>
    intro i hi
    have hblock : ∀ k < 32, (contextWords registers nesting)[34 + k]? = d0[k]? := fun k hk =>
      getElem?_block ([1, registers.fpscr] ++ d16) d0 _ (by rw [hws, List.append_assoc])
        (by simp [h16]) (by omega)
    rw [Nat.add_assoc, hblock _ (by omega), hblock _ (by omega), hd0]
    exact getElem?_flatMap_pairWords _ hi
  case nesting =>
    exact getElem?_block ([1, registers.fpscr] ++ d16 ++ d0) [nesting]
      (gp ++ [registers.linkRegister, registers.programCounter, registers.cpsr.raw])
      (by simp only [hws, List.append_assoc]) (by simp [h16, h0]) (Nat.zero_lt_one)
  case general =>
    intro i hi
    rw [getElem?_block ([1, registers.fpscr] ++ d16 ++ d0 ++ [nesting]) gp
      [registers.linkRegister, registers.programCounter, registers.cpsr.raw] (by
        simp only [hws, List.append_assoc]) (by simp [h16, h0]) (by omega), hgp]
    simp [hi]
  all_goals
    have htail : ∀ i < 3, (contextWords registers nesting)[80 + i]? =
        [registers.linkRegister, registers.programCounter, registers.cpsr.raw][i]? := fun i hi =>
      getElem?_block ([1, registers.fpscr] ++ d16 ++ d0 ++ [nesting] ++ gp) _ []
        (by simp only [hws, List.append_assoc, List.append_nil]) (by simp [h16, h0, h13]) hi
  case lr => exact htail 0 (by omega)
  case pc => exact htail 1 (by omega)
  case cpsr => exact htail 2 (by omega)

theorem record_ext {c c' : DebugEventContext}
    (h : ∀ id, Exists id → recordValue c id = recordValue c' id) : c = c' := by
  apply DebugEventContext.ext
  case cpsr => exact congrArg ProgramStatus.mk (SavedRegister.u32.inj (h .cpsr trivial))
  case stackPointer => exact SavedRegister.u32.inj (h .sp trivial)
  case linkRegister => exact SavedRegister.u32.inj (h .lr trivial)
  case fpscr => exact SavedRegister.u32.inj (h .fpscr trivial)
  case programCounter => exact SavedRegister.u32.inj (h .pc trivial)
  case registers =>
    funext i
    have hi : (BitVec.ofNat 8 i.val).toNat = i.val := by
      rw [BitVec.toNat_ofNat]
      omega
    have hreg := h (.gpr (BitVec.ofNat 8 i.val)) (by simp only [Exists, hi]; omega)
    simp only [recordValue, hi, Fin.ofNat_val_eq_self] at hreg
    exact SavedRegister.u32.inj hreg
  case vfpRegisters =>
    funext i
    have hi : (BitVec.ofNat 8 i.val).toNat = i.val := by
      rw [BitVec.toNat_ofNat]
      omega
    have hreg := h (.fpr (BitVec.ofNat 8 i.val)) (by simp only [Exists, hi]; omega)
    simp only [recordValue, hi, Fin.ofNat_val_eq_self] at hreg
    exact SavedRegister.u64.inj hreg

/-- The registers of a task whose context is a block of context words. -/
theorem value_of_layout {registers : DebugEventContext} {nesting : BitVec 32}
    {ws : List (BitVec 32)} (hlayout : ContextLayout registers nesting ws)
    (hfield : ∀ k v, ws[k]? = some v → s.field (s.stackPtr task) (4 * k) = v)
    (hsp : s.stackPtr task + BitVec.ofNat 32 SavedTaskContextFPU.size = registers.stackPointer)
    (hid : Exists id) : s.value task id = recordValue registers id := by
  have hpair : ∀ k (v : BitVec 64), ws[k]? = some (v.setWidth 32) →
      ws[k + 1]? = some ((v >>> 32).setWidth 32) →
      s.pairField (s.stackPtr task) (4 * k) = v := by
    intro k v hlow hhigh
    have hword := hfield _ _ hhigh
    rw [Nat.mul_add] at hword
    rw [pairField, hfield _ _ hlow, hword]
    exact append_doubleWords v
  cases id with
  | sp => simp only [value, recordValue, hsp]
  | lr =>
    have hword : s.field (s.stackPtr task) SavedTaskContextFPU.lr = registers.linkRegister :=
      hfield 80 _ hlayout.lr
    simp only [value, slot, recordValue, hword]
  | pc =>
    have hword : s.field (s.stackPtr task) SavedTaskContextFPU.pc = registers.programCounter :=
      hfield 81 _ hlayout.pc
    simp only [value, slot, recordValue, hword]
  | cpsr =>
    have hword : s.field (s.stackPtr task) SavedTaskContextFPU.spsr = registers.cpsr.raw :=
      hfield 82 _ hlayout.cpsr
    simp only [value, slot, recordValue, hword]
  | fpscr =>
    have hword : s.field (s.stackPtr task) SavedTaskContextFPU.fpscr = registers.fpscr :=
      hfield 1 _ hlayout.fpscr
    simp only [value, slot, recordValue, hword]
  | gpr i =>
    have hplace : slot (.gpr i) = 4 * (67 + i.toNat) := by
      simp only [slot, SavedTaskContextFPU.gpRegisters]
      omega
    simp only [value, hplace, recordValue]
    exact congrArg SavedRegister.u32 (hfield _ _ (hlayout.general i.toNat hid))
  | fpr i =>
    have hi : i.toNat < 32 := hid
    by_cases hhigh : 16 ≤ i.toNat
    · have hplace : slot (.fpr i) = 4 * (2 + 2 * (i.toNat - 16)) := by
        simp only [slot, if_pos hhigh, SavedTaskContextFPU.d16_d31]
        omega
      obtain ⟨hfirst, hsecond⟩ := hlayout.high (i.toNat - 16) (by omega)
      rw [Nat.add_sub_cancel' hhigh] at hfirst hsecond
      simp only [value, hplace, recordValue]
      exact congrArg SavedRegister.u64 (hpair _ _ hfirst hsecond)
    · have hplace : slot (.fpr i) = 4 * (34 + 2 * i.toNat) := by
        simp only [slot, if_neg hhigh, SavedTaskContextFPU.d0_d15]
        omega
      obtain ⟨hfirst, hsecond⟩ := hlayout.low i.toNat (by omega)
      simp only [value, hplace, recordValue]
      exact congrArg SavedRegister.u64 (hpair _ _ hfirst hsecond)

/-- All registers of the task are written: they read back as they were given, and
what is not a register is kept. -/
def WritesAll (s : FreeRtosSystem) (tid : BitVec 32) (task : TaskStatus)
    (registers : DebugEventContext) : Prop :=
  ∃ s', s.writeRegisters tid registers = .ok s' ∧ s'.readRegisters tid = .ok registers ∧
    s'.field (s'.stackPtr task) SavedTaskContextFPU.ulCriticalNesting =
      s.field (s.stackPtr task) SavedTaskContextFPU.ulCriticalNesting ∧
    s'.field (s'.stackPtr task) SavedTaskContextFPU.ulPortTaskHasFPUContext =
      s.field (s.stackPtr task) SavedTaskContextFPU.ulPortTaskHasFPUContext

/-- The second look for the context is made at the new place. -/
theorem Saved.writeRegisters (h : s.Saved tid task) {registers : DebugEventContext}
    (hsp : ValidSp task registers.stackPointer) :
    s.writeRegisters tid registers =
      if loadWord s.memory (registers.stackPointer - BitVec.ofNat 32 SavedTaskContextFPU.size) ≠ 0
      then .ok { s with
        memory := storeWords
          (storeWord s.memory task.xHandle
            (registers.stackPointer - BitVec.ofNat 32 SavedTaskContextFPU.size))
          (registers.stackPointer - BitVec.ofNat 32 SavedTaskContextFPU.size)
          (contextWords registers
            (s.field (s.stackPtr task) SavedTaskContextFPU.ulCriticalNesting)) }
      else .error .noFpuContext := by
  have hsize : SavedTaskContextFPU.size = 332 := rfl
  obtain ⟨place, hplace⟩ : ∃ place, place =
    registers.stackPointer - BitVec.ofNat 32 SavedTaskContextFPU.size := ⟨_, rfl⟩
  have hapart := hsp.apart
  rw [← hplace] at hapart ⊢
  simp only [FreeRtosSystem.writeRegisters, h.lookup, h.savedContext, h.setSp hsp, bind,
    Except.bind, ← hplace, Bool.false_eq_true, if_false]
  have hptr : loadWord (storeWord s.memory task.xHandle place) task.xHandle = place :=
    loadWord_storeWord_self _ _ _ (by omega)
  have hflag : loadWord (storeWord s.memory task.xHandle place) (place + BitVec.ofNat 32 0) =
      loadWord s.memory place := by
    rw [loadWord_storeWord_of_disjoint _ _ (by omega) (hapart.part (by omega) (by omega))]
    rw [show place + BitVec.ofNat 32 0 = place from BitVec.add_zero place]
  simp only [FreeRtosSystem.savedContext, stackPtr, field,
    SavedTaskContextFPU.ulPortTaskHasFPUContext, hptr, hflag]
  split_ifs <;> rfl

/-- The context after a write of all registers. -/
theorem Saved.wrote_all (h : s.Saved tid task) {registers : DebugEventContext}
    (hsp : ValidSp task registers.stackPointer) {nesting : BitVec 32} {place : Addr}
    (hplace : place = registers.stackPointer - BitVec.ofNat 32 SavedTaskContextFPU.size)
    (hs' : s' = { s with
      memory := storeWords (storeWord s.memory task.xHandle place) place
        (contextWords registers nesting) }) :
    s'.readRegisters tid = .ok registers ∧
      s'.field (s'.stackPtr task) SavedTaskContextFPU.ulCriticalNesting = nesting ∧
      s'.field (s'.stackPtr task) SavedTaskContextFPU.ulPortTaskHasFPUContext = 1 := by
  have hsize : SavedTaskContextFPU.size = 332 := rfl
  have hlayout := contextLayout registers nesting
  have hlen := hlayout.length
  have hapart := hsp.apart
  have hfits := hsp.fits
  rw [← hplace] at hapart hfits
  have hptr : s'.stackPtr task = place := by
    rw [hs', stackPtr, loadWord_storeWords_of_disjoint _ (by omega) (by omega)]
    · exact loadWord_storeWord_self _ _ _ (by omega)
    · rw [hlen]
      exact hapart.symm
  have hfield : ∀ k v, (contextWords registers nesting)[k]? = some v →
      s'.field (s'.stackPtr task) (4 * k) = v := by
    intro k v hv
    rw [hptr, hs']
    exact loadWord_storeWords _ _ (by omega) hv
  have hflag : s'.field (s'.stackPtr task) SavedTaskContextFPU.ulPortTaskHasFPUContext = 1 :=
    hfield 0 1 hlayout.flag
  have hsaved : s'.Saved tid task := by
    apply h.of_flag (by rw [hs'])
    · rw [hflag]
      decide
    · rw [hptr]
      exact hfits
    · rw [hptr]
      exact hapart
  refine ⟨?_, hfield 66 nesting hlayout.nesting, hflag⟩
  obtain ⟨c, hread, hvalue⟩ := hsaved.readRegisters
  have hc : c = registers := by
    apply record_ext
    intro id hid
    rw [hvalue id hid]
    apply value_of_layout hlayout hfield _ hid
    rw [hptr, hplace, BitVec.sub_add_cancel]
  rw [hread, hc]

/-- The write takes effect exactly where the place of the new context already looks
like a floating-point context. The flag it leaves is `1`. -/
theorem write_takes_effect_iff (s : FreeRtosSystem) (tid : BitVec 32) (task : TaskStatus)
    (registers : DebugEventContext) (h : s.Saved tid task)
    (hsp : ValidSp task registers.stackPointer) :
    s.WritesAll tid task registers ↔
      loadWord s.memory
          (registers.stackPointer - BitVec.ofNat 32 SavedTaskContextFPU.size) ≠ 0 ∧
        s.field (s.stackPtr task) SavedTaskContextFPU.ulPortTaskHasFPUContext = 1 := by
  have hwrite := h.writeRegisters hsp
  constructor
  · rintro ⟨s', hok, _, _, hflag⟩
    have hplace : loadWord s.memory
        (registers.stackPointer - BitVec.ofNat 32 SavedTaskContextFPU.size) ≠ 0 := by
      intro hzero
      rw [hok, if_neg (by simpa using hzero)] at hwrite
      cases hwrite
    rw [hok, if_pos hplace] at hwrite
    obtain ⟨_, _, hone⟩ := h.wrote_all hsp rfl (Except.ok.inj hwrite)
    exact ⟨hplace, by rw [← hflag, hone]⟩
  · rintro ⟨hplace, hone⟩
    rw [if_pos hplace] at hwrite
    obtain ⟨hread, hnesting, hflag⟩ := h.wrote_all hsp rfl rfl
    exact ⟨_, hwrite, hread, hnesting, by rw [hflag, hone]⟩

def recordAt (sp : BitVec 32) : DebugEventContext where
  cpsr := ⟨0x1f⟩
  stackPointer := sp
  linkRegister := 0
  fpscr := 0
  vfpRegisters := fun _ => 0
  registers := fun _ => 0
  programCounter := 0

/-- The stack pointer is kept. -/
theorem write_takes_effect_in_place :
    oneTask.WritesAll 1 ⟨0x100, 1, .READY⟩ (recordAt 0x114c) :=
  (write_takes_effect_iff oneTask 1 ⟨0x100, 1, .READY⟩ (recordAt 0x114c) oneTask_saved
    ⟨by decide, (disjoint_of_toNat_le (by decide) (by decide)).symm⟩).mpr ⟨by decide, by decide⟩

/-- The stack is moved to where the memory is zero: the write panics. -/
theorem write_onto_zeros_panics :
    oneTask.Saved 1 ⟨0x100, 1, .READY⟩ ∧
      ValidSp ⟨0x100, 1, .READY⟩ (recordAt 0x3000).stackPointer ∧
      oneTask.writeRegisters 1 (recordAt 0x3000) = .error .noFpuContext ∧
      ¬ oneTask.WritesAll 1 ⟨0x100, 1, .READY⟩ (recordAt 0x3000) := by
  have hsp : ValidSp ⟨0x100, 1, .READY⟩ (recordAt 0x3000).stackPointer :=
    ⟨by decide, (disjoint_of_toNat_le (by decide) (by decide)).symm⟩
  have hzero : loadWord oneTask.memory ((recordAt 0x3000).stackPointer -
      BitVec.ofNat 32 SavedTaskContextFPU.size) = 0 := by decide
  have hwrite := oneTask_saved.writeRegisters hsp
  rw [if_neg (by simpa using hzero)] at hwrite
  refine ⟨oneTask_saved, hsp, hwrite, ?_⟩
  rintro ⟨s', hok, _⟩
  rw [hwrite] at hok
  cases hok

end V5gdb.FreeRtosSystem
