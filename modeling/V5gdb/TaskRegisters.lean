import V5gdb.SavedTasks

/-!
The registers of a switched-out task as a register file.
Each register but the stack pointer has a slot of its own in the context. A write
to one leaves the others as they were, and a move of the stack pointer takes all of
them along, also where the old and the new place overlap.
-/
namespace V5gdb.FreeRtosSystem

open ByteMemory

/-- Where a register lies in the context; the stack pointer does not. -/
def slot : ArmRegisterID → ℕ
  | .gpr i => SavedTaskContextFPU.gpRegisters i.toNat
  | .lr => SavedTaskContextFPU.lr
  | .pc => SavedTaskContextFPU.pc
  | .cpsr => SavedTaskContextFPU.spsr
  | .fpr i =>
    if 16 ≤ i.toNat then SavedTaskContextFPU.d16_d31 (i.toNat - 16)
    else SavedTaskContextFPU.d0_d15 i.toNat
  | .fpscr => SavedTaskContextFPU.fpscr
  | .sp => SavedTaskContextFPU.size

def slotSize : ArmRegisterID → ℕ
  | .fpr _ => 8
  | .sp => 0
  | _ => 4

def Exists : ArmRegisterID → Prop
  | .gpr i => i.toNat < 13
  | .fpr i => i.toNat < 32
  | _ => True

def HasWidth : ArmRegisterID → SavedRegister → Prop
  | .fpr _, v => ∃ x, v = .u64 x
  | _, v => ∃ x, v = .u32 x

def value (s : FreeRtosSystem) (task : TaskStatus) (id : ArmRegisterID) : SavedRegister :=
  let ctx := s.stackPtr task
  match id with
  | .sp => .u32 (ctx + BitVec.ofNat 32 SavedTaskContextFPU.size)
  | .fpr i => .u64 (s.pairField ctx (slot (.fpr i)))
  | id => .u32 (s.field ctx (slot id))

structure Saved (s : FreeRtosSystem) (tid : BitVec 32) (task : TaskStatus) : Prop where
  lookup : s.lookupSavedTask tid = .ok task
  fpu : s.field (s.stackPtr task) SavedTaskContextFPU.ulPortTaskHasFPUContext ≠ 0
  fits : (s.stackPtr task).toNat + SavedTaskContextFPU.size < 2 ^ 32
  apart : Disjoint (s.stackPtr task) SavedTaskContextFPU.size task.xHandle 4

variable {s s' : FreeRtosSystem} {tid : BitVec 32} {task : TaskStatus} {id id' : ArmRegisterID}

theorem Saved.savedContext (h : s.Saved tid task) :
    s.savedContext task = .ok (s.stackPtr task) := if_pos h.fpu

theorem Saved.sp (h : s.Saved tid task) :
    s.sp task = .ok (s.stackPtr task + BitVec.ofNat 32 SavedTaskContextFPU.size) := if_pos h.fits

theorem Saved.readSingleRegister (h : s.Saved tid task) (hid : Exists id) :
    s.readSingleRegister tid id = .ok (s.value task id) := by
  simp only [FreeRtosSystem.readSingleRegister, h.lookup, h.savedContext, bind, Except.bind]
  cases id with
  | gpr i =>
    have hi : i.toNat < 13 := hid
    simp only [hi, if_true]
    rfl
  | fpr i =>
    have hi : i.toNat < 32 := hid
    by_cases hhigh : 16 ≤ i.toNat
    · have hlow : i.toNat - 16 < 16 := by omega
      simp only [hhigh, hlow, if_true, value, slot]
      rfl
    · simp only [hhigh, if_false, value, slot]
      rfl
  | sp =>
    simp only [h.sp]
    rfl
  | lr | pc | cpsr | fpscr => rfl

theorem slot_bounds (hid : Exists id) :
    4 ≤ slot id ∧ slot id + slotSize id ≤ SavedTaskContextFPU.size ∧
      (slot id + slotSize id ≤ SavedTaskContextFPU.ulCriticalNesting ∨
        SavedTaskContextFPU.ulCriticalNesting + 4 ≤ slot id) := by
  cases id with
  | gpr i =>
    have hi : i.toNat < 13 := hid
    simp only [slot, slotSize, SavedTaskContextFPU.gpRegisters, SavedTaskContextFPU.size,
      SavedTaskContextFPU.ulCriticalNesting]
    omega
  | fpr i =>
    have hi : i.toNat < 32 := hid
    simp only [slot, slotSize, SavedTaskContextFPU.d16_d31, SavedTaskContextFPU.d0_d15,
      SavedTaskContextFPU.size, SavedTaskContextFPU.ulCriticalNesting]
    split_ifs <;> omega
  | sp | lr | pc | cpsr | fpscr => decide

theorem slot_gpr_disjoint {i j : BitVec 8} (hne : i ≠ j) :
    slot (.gpr i) + 4 ≤ slot (.gpr j) ∨ slot (.gpr j) + 4 ≤ slot (.gpr i) := by
  have hnat : i.toNat ≠ j.toNat := fun h => hne (BitVec.toNat_inj.mp h)
  simp only [slot, SavedTaskContextFPU.gpRegisters]
  omega

theorem slot_fpr_disjoint {i j : BitVec 8} (hi : i.toNat < 32) (hj : j.toNat < 32) (hne : i ≠ j) :
    slot (.fpr i) + 8 ≤ slot (.fpr j) ∨ slot (.fpr j) + 8 ≤ slot (.fpr i) := by
  have hnat : i.toNat ≠ j.toNat := fun h => hne (BitVec.toNat_inj.mp h)
  simp only [slot, SavedTaskContextFPU.d16_d31, SavedTaskContextFPU.d0_d15]
  split_ifs <;> omega

/-- The groups of registers, from the lower offsets up. -/
theorem slot_group (hid : Exists id) :
    (∃ i, id = .gpr i ∧ 268 ≤ slot id ∧ slot id + 4 ≤ 320) ∨
      (∃ i, id = .fpr i ∧ 8 ≤ slot id ∧ slot id + 8 ≤ 264) ∨
      (id = .fpscr ∧ slot id = 4) ∨ (id = .lr ∧ slot id = 320) ∨ (id = .pc ∧ slot id = 324) ∨
      (id = .cpsr ∧ slot id = 328) ∨ (id = .sp ∧ slot id = 332) := by
  cases id with
  | gpr i =>
    have hi : i.toNat < 13 := hid
    simp only [slot, SavedTaskContextFPU.gpRegisters]
    exact .inl ⟨i, rfl, by omega, by omega⟩
  | fpr i =>
    have hi : i.toNat < 32 := hid
    simp only [slot, SavedTaskContextFPU.d16_d31, SavedTaskContextFPU.d0_d15]
    refine .inr (.inl ⟨i, rfl, ?_, ?_⟩) <;> split_ifs <;> omega
  | sp | lr | pc | cpsr | fpscr => simp [slot, SavedTaskContextFPU.lr, SavedTaskContextFPU.pc,
      SavedTaskContextFPU.spsr, SavedTaskContextFPU.fpscr, SavedTaskContextFPU.size]

/-- Registers do not overlap. -/
theorem slot_disjoint (hid : Exists id) (hid' : Exists id') (hne : id ≠ id') :
    slot id + slotSize id ≤ slot id' ∨ slot id' + slotSize id' ≤ slot id := by
  rcases slot_group hid with ⟨i, rfl, h⟩ | ⟨i, rfl, h⟩ | ⟨rfl, h⟩ | ⟨rfl, h⟩ | ⟨rfl, h⟩ |
      ⟨rfl, h⟩ | ⟨rfl, h⟩ <;>
    rcases slot_group hid' with ⟨j, rfl, h'⟩ | ⟨j, rfl, h'⟩ | ⟨rfl, h'⟩ | ⟨rfl, h'⟩ |
      ⟨rfl, h'⟩ | ⟨rfl, h'⟩ | ⟨rfl, h'⟩
  case inl.inl => exact slot_gpr_disjoint fun h => hne (by rw [h])
  case inr.inl.inr.inl => exact slot_fpr_disjoint hid hid' fun h => hne (by rw [h])
  all_goals
    simp only [slotSize]
    first
    | exact absurd rfl hne
    | omega

/-- The context may lie elsewhere if its flag is kept. -/
theorem Saved.of_flag (h : s.Saved tid task) (htasks : s'.tasks = s.tasks)
    (hflag : s'.field (s'.stackPtr task) SavedTaskContextFPU.ulPortTaskHasFPUContext ≠ 0)
    (hfits : (s'.stackPtr task).toNat + SavedTaskContextFPU.size < 2 ^ 32)
    (hapart : Disjoint (s'.stackPtr task) SavedTaskContextFPU.size task.xHandle 4) :
    s'.Saved tid task where
  lookup := by
    rw [lookupSavedTask, htasks]
    exact h.lookup
  fpu := hflag
  fits := hfits
  apart := hapart

/-- A block of words that is stored inside the context, above the flag. -/
theorem Saved.store (h : s.Saved tid task) {offset : ℕ} {vs : List (BitVec 32)}
    (hoffset : 4 ≤ offset) (hend : offset + 4 * vs.length ≤ SavedTaskContextFPU.size)
    (hs' : s' = { s with
      memory := storeWords s.memory (s.stackPtr task + BitVec.ofNat 32 offset) vs }) :
    s'.stackPtr task = s.stackPtr task ∧ s'.Saved tid task ∧
      (∀ o, o + 4 ≤ SavedTaskContextFPU.size →
        (o + 4 ≤ offset ∨ offset + 4 * vs.length ≤ o) →
          s'.field (s.stackPtr task) o = s.field (s.stackPtr task) o) ∧
      ∀ k v, vs[k]? = some v → s'.field (s.stackPtr task) (offset + 4 * k) = v := by
  have hsize : SavedTaskContextFPU.size = 332 := rfl
  have hptr : s'.stackPtr task = s.stackPtr task := by
    rw [hs']
    exact loadWord_storeWords_of_disjoint _ (by omega) (by omega)
      (h.apart.part (by omega) (by omega)).symm
  have hother : ∀ o, o + 4 ≤ SavedTaskContextFPU.size →
      (o + 4 ≤ offset ∨ offset + 4 * vs.length ≤ o) →
        s'.field (s.stackPtr task) o = s.field (s.stackPtr task) o := by
    intro o ho hout
    rw [hs']
    exact loadWord_storeWords_of_disjoint _ (by omega) (by omega)
      (disjoint_in_block (by omega) (by omega) hout)
  refine ⟨hptr, ?_, hother, ?_⟩
  · apply h.of_flag (by rw [hs'])
    · rw [hptr, hother SavedTaskContextFPU.ulPortTaskHasFPUContext (by decide) (.inl hoffset)]
      exact h.fpu
    · rw [hptr]
      exact h.fits
    · rw [hptr]
      exact h.apart
  · intro k v hv
    have hplace : s.stackPtr task + BitVec.ofNat 32 (offset + 4 * k) =
        s.stackPtr task + BitVec.ofNat 32 offset + BitVec.ofNat 32 (4 * k) := by
      rw [BitVec.ofNat_add, BitVec.add_assoc]
    rw [hs', field, hplace]
    exact loadWord_storeWords _ _ (by omega) hv

/-- What a write to a register does: the register has the value, and nothing else of
the task has changed. -/
structure Wrote (s s' : FreeRtosSystem) (tid : BitVec 32) (task : TaskStatus) (id : ArmRegisterID)
    (v : SavedRegister) : Prop where
  saved : s'.Saved tid task
  self : s'.value task id = v
  other : ∀ id', Exists id' → id' ≠ id → s'.value task id' = s.value task id'
  flag : s'.field (s'.stackPtr task) SavedTaskContextFPU.ulPortTaskHasFPUContext =
    s.field (s.stackPtr task) SavedTaskContextFPU.ulPortTaskHasFPUContext
  nesting : s'.field (s'.stackPtr task) SavedTaskContextFPU.ulCriticalNesting =
    s.field (s.stackPtr task) SavedTaskContextFPU.ulCriticalNesting

/-- A value depends on the words at the register's slot. -/
theorem value_congr (hid : Exists id) (hsp : id = .sp → s'.stackPtr task = s.stackPtr task)
    (h : ∀ o, slot id ≤ o → o + 4 ≤ slot id + slotSize id →
      s'.field (s'.stackPtr task) o = s.field (s.stackPtr task) o) :
    s'.value task id = s.value task id := by
  cases id with
  | sp => simp only [value, hsp rfl]
  | fpr i =>
    have hlow := h (slot (.fpr i)) le_rfl (by simp only [slotSize]; omega)
    have hhigh := h (slot (.fpr i) + 4) (by omega) (by simp only [slotSize]; omega)
    simp only [value, pairField, hlow, hhigh]
  | gpr | lr | pc | cpsr | fpscr =>
    have hword := h _ le_rfl (by simp only [slotSize]; omega)
    simp only [value, hword]

/-- A register of the context, stored as the words of its value. -/
theorem Saved.wrote_of_store (h : s.Saved tid task) (hid : Exists id)
    (vs : List (BitVec 32)) (hlen : 4 * vs.length = slotSize id) {v : SavedRegister}
    (hs' : s' = { s with
      memory := storeWords s.memory (s.stackPtr task + BitVec.ofNat 32 (slot id)) vs })
    (hv : (∀ k x, vs[k]? = some x → s'.field (s'.stackPtr task) (slot id + 4 * k) = x) →
      s'.value task id = v) : s.Wrote s' tid task id v := by
  obtain ⟨hlow, hhigh, hnest⟩ := slot_bounds hid
  obtain ⟨hptr, hsaved, hother, hwords⟩ := h.store hlow (by omega) hs'
  constructor
  case saved => exact hsaved
  case self =>
    apply hv
    rw [hptr]
    exact hwords
  case other =>
    intro id' hid' hne
    obtain ⟨_, hhigh', _⟩ := slot_bounds hid'
    have hdisj := slot_disjoint hid' hid hne
    apply value_congr hid' (fun _ => hptr)
    intro o ho ho'
    rw [hptr]
    exact hother o (by omega) (by omega)
  case flag =>
    rw [hptr]
    exact hother _ (by decide) (.inl hlow)
  case nesting =>
    rw [hptr]
    exact hother _ (by decide) (by omega)

/-- A stack pointer with room for the context under it, apart from the control block. -/
structure ValidSp (task : TaskStatus) (sp : BitVec 32) : Prop where
  room : SavedTaskContextFPU.size ≤ sp.toNat
  apart : Disjoint (sp - BitVec.ofNat 32 SavedTaskContextFPU.size) SavedTaskContextFPU.size
    task.xHandle 4

theorem Saved.setSp (h : s.Saved tid task) {sp : BitVec 32} (hsp : ValidSp task sp)
    (updateCtx : Bool) :
    s.setSp task sp updateCtx = .ok { s with
      memory :=
        if updateCtx then
          copy (storeWord s.memory task.xHandle (sp - BitVec.ofNat 32 SavedTaskContextFPU.size))
            (s.stackPtr task) (sp - BitVec.ofNat 32 SavedTaskContextFPU.size)
            SavedTaskContextFPU.size
        else storeWord s.memory task.xHandle
          (sp - BitVec.ofNat 32 SavedTaskContextFPU.size) } := by
  rw [FreeRtosSystem.setSp, if_neg (Nat.not_lt_of_le hsp.room), h.savedContext]
  rfl

theorem ValidSp.fits {sp : BitVec 32} (h : ValidSp task sp) :
    (sp - BitVec.ofNat 32 SavedTaskContextFPU.size).toNat + SavedTaskContextFPU.size <
      2 ^ 32 := by
  have hroom := h.room
  have hlt := sp.isLt
  have hsize : SavedTaskContextFPU.size = 332 := rfl
  rw [hsize] at hroom ⊢
  rw [BitVec.toNat_sub, BitVec.toNat_ofNat]
  omega

/-- A move takes the whole context along, also onto a part of its old place. -/
theorem Saved.wrote_of_move (h : s.Saved tid task) {sp : BitVec 32} (hsp : ValidSp task sp)
    (hs' : s.setSp task sp true = .ok s') : s.Wrote s' tid task .sp (.u32 sp) := by
  rw [h.setSp hsp, if_pos rfl] at hs'
  have hsize : SavedTaskContextFPU.size = 332 := rfl
  have hptr : s'.stackPtr task = sp - BitVec.ofNat 32 SavedTaskContextFPU.size := by
    rw [← Except.ok.inj hs', stackPtr, loadWord_copy_of_disjoint _ (by omega) hsp.apart.symm]
    exact loadWord_storeWord_self _ _ _ (by omega)
  have hfield : ∀ o, o + 4 ≤ SavedTaskContextFPU.size →
      s'.field (s'.stackPtr task) o = s.field (s.stackPtr task) o := by
    intro o ho
    rw [hptr, ← Except.ok.inj hs', field, loadWord_copy _ _ _ (by omega) ho,
      loadWord_storeWord_of_disjoint _ _ (by omega) (h.apart.part (by omega) ho)]
    rfl
  constructor
  case saved =>
    apply h.of_flag (by rw [← Except.ok.inj hs'])
    · rw [hfield _ (by decide)]
      exact h.fpu
    · rw [hptr]
      exact hsp.fits
    · rw [hptr]
      exact hsp.apart
  case self => simp only [value, hptr, BitVec.sub_add_cancel]
  case other =>
    intro id' hid' hne
    obtain ⟨_, hhigh', _⟩ := slot_bounds hid'
    apply value_congr hid' (fun heq => absurd heq hne)
    intro o ho ho'
    exact hfield o (by omega)
  case flag => exact hfield _ (by decide)
  case nesting => exact hfield _ (by decide)

/-- What a caller of a write guarantees: the register exists, the value has its width,
and a stack pointer is valid. -/
structure Admissible (task : TaskStatus) (id : ArmRegisterID) (v : SavedRegister) : Prop where
  present : Exists id
  width : HasWidth id v
  valid : ∀ sp, id = .sp → v = .u32 sp → ValidSp task sp

theorem Saved.writeSingleRegister (h : s.Saved tid task) {v : SavedRegister}
    (hv : Admissible task id v) :
    ∃ s', s.writeSingleRegister tid id v = .ok s' ∧ s.Wrote s' tid task id v := by
  obtain ⟨hid, hwidth, hvalid⟩ := hv
  simp only [FreeRtosSystem.writeSingleRegister, h.lookup, h.savedContext, bind, Except.bind]
  cases id with
  | fpr i =>
    obtain ⟨x, rfl⟩ := hwidth
    have hi : i.toNat < 32 := hid
    have hok : (if 16 ≤ i.toNat then
          if i.toNat - 16 < 16 then
            (Except.ok (s.setPairField (s.stackPtr task)
              (SavedTaskContextFPU.d16_d31 (i.toNat - 16)) x) : TaskExec FreeRtosSystem)
          else .error .outOfBounds
        else .ok (s.setPairField (s.stackPtr task) (SavedTaskContextFPU.d0_d15 i.toNat) x)) =
        .ok (s.setPairField (s.stackPtr task) (slot (.fpr i)) x) := by
      by_cases hhigh : 16 ≤ i.toNat
      · have hlow : i.toNat - 16 < 16 := by omega
        simp only [hhigh, hlow, if_true, slot]
      · simp only [hhigh, if_false, slot]
    refine ⟨_, hok, h.wrote_of_store hid (pairWords x) rfl rfl ?_⟩
    intro hwords
    have hhigh := hwords 1 _ rfl
    have hlow := hwords 0 _ rfl
    rw [Nat.mul_zero, Nat.add_zero] at hlow
    simp only [value, pairField]
    rw [hhigh, hlow, append_doubleWords]
  | sp =>
    obtain ⟨x, rfl⟩ := hwidth
    have hok := h.setSp (hvalid x rfl rfl) true
    exact ⟨_, hok, h.wrote_of_move (hvalid x rfl rfl) hok⟩
  | gpr i =>
    obtain ⟨x, rfl⟩ := hwidth
    have hi : i.toNat < 13 := hid
    refine ⟨_, if_pos hi, h.wrote_of_store hid [x] rfl rfl ?_⟩
    exact fun hwords => congrArg SavedRegister.u32 (hwords 0 x rfl)
  | lr | pc | cpsr | fpscr =>
    obtain ⟨x, rfl⟩ := hwidth
    refine ⟨_, rfl, h.wrote_of_store hid [x] rfl rfl ?_⟩
    exact fun hwords => congrArg SavedRegister.u32 (hwords 0 x rfl)

def writeEach (s : FreeRtosSystem) (tid : BitVec 32) :
    List (ArmRegisterID × SavedRegister) → TaskExec FreeRtosSystem
  | [] => .ok s
  | (id, v) :: writes => do
    let s ← s.writeSingleRegister tid id v
    s.writeEach tid writes

def lastWritten (writes : List (ArmRegisterID × SavedRegister)) (id : ArmRegisterID)
    (initial : SavedRegister) : SavedRegister :=
  writes.foldl (fun v w => if w.1 = id then w.2 else v) initial

theorem Saved.readRegisters (h : s.Saved tid task) :
    ∃ c, s.readRegisters tid = .ok c ∧ ∀ id, Exists id → recordValue c id = s.value task id := by
  simp only [FreeRtosSystem.readRegisters, h.lookup, h.savedContext, h.sp, bind, Except.bind]
  refine ⟨_, rfl, ?_⟩
  intro id hid
  cases id with
  | gpr i =>
    have hi : i.toNat < 13 := hid
    simp only [recordValue, value, slot, Fin.val_ofNat, Nat.mod_eq_of_lt hi]
  | fpr i =>
    have hi : i.toNat < 32 := hid
    simp only [recordValue, value, slot, Fin.val_ofNat, Nat.mod_eq_of_lt hi]
    by_cases hhigh : 16 ≤ i.toNat
    · rw [if_neg (Nat.not_lt_of_le hhigh), if_pos hhigh]
    · rw [if_pos (Nat.lt_of_not_le hhigh), if_neg hhigh]
  | sp | lr | pc | cpsr | fpscr => rfl

theorem writeEach_spec {writes : List (ArmRegisterID × SavedRegister)} (h : s.Saved tid task)
    (hw : ∀ w ∈ writes, Admissible task w.1 w.2) :
    ∃ s', s.writeEach tid writes = .ok s' ∧ s'.Saved tid task ∧
      (∀ id, Exists id → s'.value task id = lastWritten writes id (s.value task id)) ∧
      s'.field (s'.stackPtr task) SavedTaskContextFPU.ulPortTaskHasFPUContext =
        s.field (s.stackPtr task) SavedTaskContextFPU.ulPortTaskHasFPUContext ∧
      s'.field (s'.stackPtr task) SavedTaskContextFPU.ulCriticalNesting =
        s.field (s.stackPtr task) SavedTaskContextFPU.ulCriticalNesting := by
  induction writes generalizing s with
  | nil => exact ⟨s, rfl, h, fun _ _ => rfl, rfl, rfl⟩
  | cons w writes ih =>
    obtain ⟨id, v⟩ := w
    obtain ⟨hfirst, hrest⟩ := List.forall_mem_cons.mp hw
    obtain ⟨s₁, hwrite, hwrote⟩ := h.writeSingleRegister hfirst
    obtain ⟨s', hrun, hsaved, hvalue, hflag, hnesting⟩ := ih hwrote.saved hrest
    refine ⟨s', ?_, hsaved, ?_, hflag.trans hwrote.flag, hnesting.trans hwrote.nesting⟩
    · rw [writeEach, hwrite]
      exact hrun
    · intro id' hid'
      rw [hvalue id' hid', lastWritten, lastWritten, List.foldl_cons]
      by_cases hid : id = id'
      · rw [if_pos hid, ← hid, hwrote.self]
      · rw [if_neg hid, hwrote.other id' hid' (Ne.symm hid)]

/-- The registers of a switched-out task are a register file, through all writes and
moves of its stack; reading them one by one and all at once is the same. -/
theorem registers_are_file (s : FreeRtosSystem) (tid : BitVec 32) (task : TaskStatus)
    (writes : List (ArmRegisterID × SavedRegister)) (h : s.Saved tid task)
    (hw : ∀ w ∈ writes, Admissible task w.1 w.2) :
    ∃ s' c, s.writeEach tid writes = .ok s' ∧ s'.readRegisters tid = .ok c ∧
      (∀ id, Exists id → ∃ v, s.readSingleRegister tid id = .ok v ∧
        s'.readSingleRegister tid id = .ok (lastWritten writes id v) ∧
        recordValue c id = lastWritten writes id v) ∧
      s'.field (s'.stackPtr task) SavedTaskContextFPU.ulPortTaskHasFPUContext =
        s.field (s.stackPtr task) SavedTaskContextFPU.ulPortTaskHasFPUContext ∧
      s'.field (s'.stackPtr task) SavedTaskContextFPU.ulCriticalNesting =
        s.field (s.stackPtr task) SavedTaskContextFPU.ulCriticalNesting := by
  obtain ⟨s', hrun, hsaved, hvalue, hflag, hnesting⟩ := writeEach_spec h hw
  obtain ⟨c, hread, hrecord⟩ := hsaved.readRegisters
  refine ⟨s', c, hrun, hread, ?_, hflag, hnesting⟩
  intro id hid
  refine ⟨s.value task id, h.readSingleRegister hid, ?_, ?_⟩
  · rw [hsaved.readSingleRegister hid, hvalue id hid]
  · rw [hrecord id hid, hvalue id hid]

def oneTask : FreeRtosSystem where
  tasks := [⟨0x100, 1, .READY⟩]
  memory := storeWord (storeWord (fun _ => 0) 0x100 0x1000) 0x1000 1

theorem oneTask_saved : oneTask.Saved 1 ⟨0x100, 1, .READY⟩ where
  lookup := by decide
  fpu := by decide
  fits := by decide
  apart := (disjoint_of_toNat_le (by decide) (by decide)).symm

/-- The stack is moved onto a part of the old context and a register is written. -/
theorem registers_are_file_moved :
    ∃ s' c, oneTask.writeEach 1 [(.sp, .u32 0x1200), (.lr, .u32 7)] = .ok s' ∧
      s'.readRegisters 1 = .ok c ∧ recordValue c .sp = .u32 0x1200 ∧
      recordValue c .lr = .u32 7 := by
  have hvalid : ValidSp ⟨0x100, 1, .READY⟩ 0x1200 :=
    ⟨by decide, (disjoint_of_toNat_le (by decide) (by decide)).symm⟩
  have hsp : Admissible ⟨0x100, 1, .READY⟩ .sp (.u32 0x1200) := by
    refine ⟨trivial, ⟨_, rfl⟩, ?_⟩
    intro sp _ hval
    obtain rfl := SavedRegister.u32.inj hval
    exact hvalid
  have hlr : Admissible ⟨0x100, 1, .READY⟩ .lr (.u32 7) := by
    refine ⟨trivial, ⟨_, rfl⟩, ?_⟩
    intro sp hid
    cases hid
  obtain ⟨s', c, hrun, hread, hvalues, _⟩ := registers_are_file oneTask 1 _
    [(.sp, .u32 0x1200), (.lr, .u32 7)] oneTask_saved
    (List.forall_mem_cons.mpr ⟨hsp, List.forall_mem_cons.mpr ⟨hlr, List.forall_mem_nil _⟩⟩)
  obtain ⟨_, _, _, hsp'⟩ := hvalues .sp trivial
  obtain ⟨_, _, _, hlr'⟩ := hvalues .lr trivial
  exact ⟨s', c, hrun, hread, hsp', hlr'⟩

end V5gdb.FreeRtosSystem
