import V5gdb.RegisterPaths
import V5gdb.TaskRegisters

/-!
Single registers of any thread.
The stopped thread's registers are those of the saved context, which takes a value
of the register's own length only. For a switched-out task the length alone says
whether the value is a word or a double word, and the task's registers expect the
right one.
-/
namespace V5gdb

open LittleEndian RecordLayouts

namespace SavedRegister

def fromLeBytes (buf : Bytes) : Option SavedRegister :=
  if buf.length = 8 then some (.u64 (fromLe 64 buf))
  else if buf.length = 4 then some (.u32 (fromLe 32 buf))
  else none

def bytes : SavedRegister → ℕ
  | u32 _ => 4
  | u64 _ => 8

theorem bytes_of_fromLeBytes {buf : Bytes} {v : SavedRegister}
    (h : fromLeBytes buf = some v) : v.bytes = buf.length := by
  unfold fromLeBytes at h
  split_ifs at h with h8 h4
  · rw [← Option.some.inj h, h8]
    rfl
  · rw [← Option.some.inj h, h4]
    rfl

theorem fromLeBytes_eq_none_iff (buf : Bytes) :
    fromLeBytes buf = none ↔ buf.length ≠ 4 ∧ buf.length ≠ 8 := by
  unfold fromLeBytes
  split_ifs with h8 h4 <;> simp [*]

theorem fromLeBytes_word {buf : Bytes} (h : buf.length = 4) :
    fromLeBytes buf = some (.u32 (fromLe 32 buf)) := by
  rw [fromLeBytes, if_neg (by omega), if_pos h]

end SavedRegister

/-- `HostIoErrno::EINVAL` -/
def einval : BitVec 8 := 22

def SystemError.toTargetError : SystemError → TargetError
  | noSuchTid => .errno einval

namespace FreeRtosSystem

variable {s : FreeRtosSystem} {tid : BitVec 32} {task : TaskStatus} {id : ArmRegisterID}
  {v : SavedRegister}

theorem hasWidth_iff (id : ArmRegisterID) (v : SavedRegister) :
    HasWidth id v ↔ v.bytes = id.size := by
  cases id <;> cases v <;> simp [HasWidth, SavedRegister.bytes, ArmRegisterID.size]

structure SingleWrite (s : FreeRtosSystem) (tid : BitVec 32) (task : TaskStatus)
    (id : ArmRegisterID) (v : SavedRegister) : Prop where
  noContext : s.field (s.stackPtr task) SavedTaskContextFPU.ulPortTaskHasFPUContext = 0 →
    s.writeSingleRegister tid id v = .error .noFpuContext
  wrongWidth : s.field (s.stackPtr task) SavedTaskContextFPU.ulPortTaskHasFPUContext ≠ 0 →
    v.bytes ≠ id.size → s.writeSingleRegister tid id v = .error .registerWidth
  lowStack : s.field (s.stackPtr task) SavedTaskContextFPU.ulPortTaskHasFPUContext ≠ 0 →
    ∀ sp, id = .sp → v = .u32 sp → sp.toNat < SavedTaskContextFPU.size →
      s.writeSingleRegister tid id v = .error .overflow
  ok : s.field (s.stackPtr task) SavedTaskContextFPU.ulPortTaskHasFPUContext ≠ 0 →
    v.bytes = id.size →
    (∀ sp, id = .sp → v = .u32 sp → SavedTaskContextFPU.size ≤ sp.toNat) →
      ∃ s', s.writeSingleRegister tid id v = .ok s'

theorem writeSingleRegister_wrongWidth (hlookup : s.lookupSavedTask tid = .ok task)
    (hfpu : s.savedContext task = .ok (s.stackPtr task)) (hwidth : v.bytes ≠ id.size) :
    s.writeSingleRegister tid id v = .error .registerWidth := by
  simp only [FreeRtosSystem.writeSingleRegister, hlookup, hfpu, bind, Except.bind]
  cases id <;> cases v <;> first | exact absurd rfl hwidth | rfl

theorem setSp_ok (hfpu : s.savedContext task = .ok (s.stackPtr task)) {sp : BitVec 32}
    (hsp : SavedTaskContextFPU.size ≤ sp.toNat) (updateCtx : Bool) :
    ∃ s', s.setSp task sp updateCtx = .ok s' := by
  rw [FreeRtosSystem.setSp, if_neg (Nat.not_lt_of_le hsp), hfpu]
  exact ⟨_, rfl⟩

theorem writeSingleRegister_ok (hlookup : s.lookupSavedTask tid = .ok task)
    (hfpu : s.savedContext task = .ok (s.stackPtr task)) (hid : Exists id)
    (hwidth : HasWidth id v)
    (hsp : ∀ sp, id = .sp → v = .u32 sp → SavedTaskContextFPU.size ≤ sp.toNat) :
    ∃ s', s.writeSingleRegister tid id v = .ok s' := by
  simp only [FreeRtosSystem.writeSingleRegister, hlookup, hfpu, bind, Except.bind]
  cases id with
  | gpr i =>
    obtain ⟨x, rfl⟩ := hwidth
    have hi : i.toNat < 13 := hid
    simp only [hi, if_true]
    exact ⟨_, rfl⟩
  | fpr i =>
    obtain ⟨x, rfl⟩ := hwidth
    have hi : i.toNat < 32 := hid
    by_cases hhigh : 16 ≤ i.toNat
    · have hlow : i.toNat - 16 < 16 := by omega
      simp only [hhigh, hlow, if_true]
      exact ⟨_, rfl⟩
    · simp only [hhigh, if_false]
      exact ⟨_, rfl⟩
  | sp =>
    obtain ⟨x, rfl⟩ := hwidth
    exact setSp_ok hfpu (hsp x rfl rfl) true
  | lr | pc | cpsr | fpscr =>
    obtain ⟨x, rfl⟩ := hwidth
    exact ⟨_, rfl⟩

theorem singleWrite (hlookup : s.lookupSavedTask tid = .ok task) (hid : Exists id)
    (v : SavedRegister) : s.SingleWrite tid task id v where
  noContext := by
    intro hflag
    have hctx : s.savedContext task = .error .noFpuContext := if_neg (not_not.mpr hflag)
    simp only [FreeRtosSystem.writeSingleRegister, hlookup, hctx, bind, Except.bind]
  wrongWidth := by
    intro hflag hwidth
    exact writeSingleRegister_wrongWidth hlookup (if_pos hflag) hwidth
  lowStack := by
    intro hflag sp hsp hv hlow
    subst hsp hv
    have hctx : s.savedContext task = .ok (s.stackPtr task) := if_pos hflag
    simp only [FreeRtosSystem.writeSingleRegister, hlookup, hctx, bind, Except.bind,
      SavedRegister.unwrapU32]
    exact if_pos hlow
  ok := by
    intro hflag hwidth hsp
    exact writeSingleRegister_ok hlookup (if_pos hflag) hid ((hasWidth_iff id v).mpr hwidth) hsp

end FreeRtosSystem

/-- The registers that GDB can reach: the stopped thread's saved context, and the
other tasks' on their stacks. -/
structure ThreadRegisters where
  exceptionCtx : DebugEventContext
  system : FreeRtosSystem
  currentThread : BitVec 32

namespace ThreadRegisters

/-- Writes a register of a thread. The error of the outer type is a panic. -/
def writeRegister (s : ThreadRegisters) (tid : BitVec 32) (regId : ArmRegisterID) (val : Bytes) :
    TaskExec (ThreadRegisters × Except TargetError Unit) :=
  if tid = s.currentThread then
    let (exceptionCtx, result) := s.exceptionCtx.writeRegister regId val
    .ok ({ s with exceptionCtx }, result)
  else
    match SavedRegister.fromLeBytes val with
    | none => .ok (s, .error .nonFatal)
    | some reg =>
      match s.system.writeSingleRegister tid regId reg with
      | .ok system => .ok ({ s with system }, .ok ())
      | .error (.system e) => .ok (s, .error e.toTargetError)
      | .error e => .error e

/-- The write does not panic, succeeds exactly if the value has `n` bytes, and changes
nothing otherwise. -/
def Validates (s : ThreadRegisters) (tid : BitVec 32) (regId : ArmRegisterID) (n : ℕ)
    (val : Bytes) : Prop :=
  ∃ s' result, s.writeRegister tid regId val = .ok (s', result) ∧
    (result = .ok () ↔ val.length = n) ∧ (result ≠ .ok () → s' = s)

variable {s : ThreadRegisters} {tid : BitVec 32} {task : TaskStatus} {id : ArmRegisterID}
  {raw n : ℕ} {val : Bytes}

theorem exists_of_contextReg {r : ContextReg} (h : DebugEventContext.contextReg? id = some r) :
    FreeRtosSystem.Exists id ∧ (DebugEventContext.field r).size = id.size := by
  cases id with
  | gpr i =>
    simp only [DebugEventContext.contextReg?] at h
    split_ifs at h with hlt
    obtain rfl := Option.some.inj h
    exact ⟨hlt, rfl⟩
  | fpr i =>
    simp only [DebugEventContext.contextReg?] at h
    split_ifs at h with hlt
    obtain rfl := Option.some.inj h
    exact ⟨hlt, rfl⟩
  | sp | lr | pc | cpsr | fpscr =>
    obtain rfl := Option.some.inj h
    exact ⟨trivial, rfl⟩

theorem exists_of_fromRawId (h : ArmRegisterID.fromRawId raw = some (id, n)) :
    FreeRtosSystem.Exists id ∧ id.size = n ∧ (n = 4 ∨ n = 8) := by
  obtain ⟨r, hr, hsize, _⟩ := DebugEventContext.fromRawId_spec h
  obtain ⟨hexists, hfield⟩ := exists_of_contextReg hr
  have hn : id.size = n := hfield.symm.trans hsize
  refine ⟨hexists, hn, ?_⟩
  rw [← hn]
  cases id <;> simp [ArmRegisterID.size]

theorem validates_of_current (h : ArmRegisterID.fromRawId raw = some (id, n))
    (hcurrent : tid = s.currentThread) (val : Bytes) : s.Validates tid id n val := by
  obtain ⟨r, hr, rfl, _⟩ := DebugEventContext.fromRawId_spec h
  simp only [Validates, writeRegister, if_pos hcurrent,
    DebugEventContext.writeRegister_field hr s.exceptionCtx val]
  split_ifs with hlen
  · exact ⟨_, _, rfl, iff_of_true rfl hlen, fun hne => absurd rfl hne⟩
  · exact ⟨_, _, rfl, iff_of_false (fun h => by cases h) hlen, fun _ => rfl⟩

theorem validates_of_odd_length (hn : n = 4 ∨ n = 8) (hother : tid ≠ s.currentThread)
    (hlen : val.length ≠ 4 ∧ val.length ≠ 8) : s.Validates tid id n val := by
  have hnone := (SavedRegister.fromLeBytes_eq_none_iff val).mpr hlen
  refine ⟨s, .error .nonFatal, ?_, ?_, fun _ => rfl⟩
  · rw [writeRegister, if_neg hother, hnone]
  · have hne : val.length ≠ n := by omega
    simp [hne]

theorem writeRegister_of_task (id : ArmRegisterID) (hother : tid ≠ s.currentThread)
    {v : SavedRegister} (hv : SavedRegister.fromLeBytes val = some v) :
    s.writeRegister tid id val =
      match s.system.writeSingleRegister tid id v with
      | .ok system => .ok ({ s with system }, .ok ())
      | .error (.system e) => .ok (s, .error e.toTargetError)
      | .error e => .error e := by
  rw [writeRegister, if_neg hother, hv]

theorem not_validates_of_panic {e : TaskError} (h : s.writeRegister tid id val = .error e) :
    ¬s.Validates tid id n val := by
  rintro ⟨s', result, hok, _⟩
  rw [h] at hok
  cases hok

/-- A write is validated as it should be for the stopped thread, and for values that are
neither a word nor a double word. Otherwise the value must fit the register, and the
task must have a context of the one supported layout, with room below its stack pointer. -/
theorem write_validated_iff (s : ThreadRegisters) (tid : BitVec 32) (task : TaskStatus)
    (raw n : ℕ) (id : ArmRegisterID) (val : Bytes)
    (hthread : tid = s.currentThread ∨ s.system.lookupSavedTask tid = .ok task)
    (hid : ArmRegisterID.fromRawId raw = some (id, n)) :
    s.Validates tid id n val ↔
      tid = s.currentThread ∨ (val.length ≠ 4 ∧ val.length ≠ 8) ∨
        (val.length = n ∧
          s.system.field (s.system.stackPtr task)
            SavedTaskContextFPU.ulPortTaskHasFPUContext ≠ 0 ∧
          (id = .sp → SavedTaskContextFPU.size ≤ (fromLe 32 val).toNat)) := by
  obtain ⟨hexists, hsize, hn⟩ := exists_of_fromRawId hid
  by_cases hcurrent : tid = s.currentThread
  · simp only [hcurrent, true_or, iff_true]
    exact validates_of_current hid rfl val
  have hlookup := hthread.resolve_left hcurrent
  by_cases hodd : val.length ≠ 4 ∧ val.length ≠ 8
  · exact iff_of_true (validates_of_odd_length hn hcurrent hodd) (.inr (.inl hodd))
  obtain ⟨v, hv⟩ : ∃ v, SavedRegister.fromLeBytes val = some v := by
    rw [← Option.ne_none_iff_exists', ne_eq, SavedRegister.fromLeBytes_eq_none_iff]
    exact hodd
  have hbytes := SavedRegister.bytes_of_fromLeBytes hv
  have hwrite := s.system.singleWrite hlookup hexists v
  have hresult := writeRegister_of_task id hcurrent hv
  have hfour : val.length = n → id = .sp → val.length = 4 := by
    intro hlen hsp
    rw [hlen, ← hsize, hsp]
    rfl
  simp only [hcurrent, hodd, false_or]
  constructor
  · intro hvalid
    have hflag : s.system.field (s.system.stackPtr task)
        SavedTaskContextFPU.ulPortTaskHasFPUContext ≠ 0 := by
      intro hzero
      rw [hwrite.noContext hzero] at hresult
      exact not_validates_of_panic hresult hvalid
    have hlen : val.length = n := by
      by_contra hne
      rw [hwrite.wrongWidth hflag (by omega)] at hresult
      exact not_validates_of_panic hresult hvalid
    refine ⟨hlen, hflag, ?_⟩
    intro hsp
    by_contra hlow
    rw [SavedRegister.fromLeBytes_word (hfour hlen hsp)] at hv
    rw [hwrite.lowStack hflag _ hsp (Option.some.inj hv).symm (Nat.lt_of_not_le hlow)] at hresult
    exact not_validates_of_panic hresult hvalid
  · rintro ⟨hlen, hflag, hroom⟩
    have hsp : ∀ sp, id = .sp → v = .u32 sp → SavedTaskContextFPU.size ≤ sp.toNat := by
      intro sp hsp hword
      rw [SavedRegister.fromLeBytes_word (hfour hlen hsp), hword] at hv
      rw [← SavedRegister.u32.inj (Option.some.inj hv)]
      exact hroom hsp
    obtain ⟨system, hok⟩ := hwrite.ok hflag (by omega) hsp
    rw [hok] at hresult
    exact ⟨_, _, hresult, by simp [hlen], fun hne => absurd rfl hne⟩

def twoThreads : ThreadRegisters where
  exceptionCtx := ⟨⟨0x1f⟩, 0, 0, 0, fun _ => 0, fun _ => 0, 0⟩
  system := FreeRtosSystem.oneTask
  currentThread := 2

theorem write_validated_word : twoThreads.Validates 1 (.gpr 0) 4 [1, 2, 3, 4] :=
  (write_validated_iff twoThreads 1 ⟨0x100, 1, .READY⟩ 0 4 (.gpr 0) [1, 2, 3, 4]
    (.inr FreeRtosSystem.oneTask_saved.lookup) (by decide)).mpr
    (.inr (.inr ⟨rfl, FreeRtosSystem.oneTask_saved.fpu, fun h => by cases h⟩))

/-- A double word for `r0` of the switched-out task panics; the stopped thread refuses it. -/
theorem double_word_panics :
    ArmRegisterID.fromRawId 0 = some (.gpr 0, 4) ∧
      twoThreads.system.lookupSavedTask 1 = .ok ⟨0x100, 1, .READY⟩ ∧
      twoThreads.writeRegister 1 (.gpr 0) [1, 2, 3, 4, 5, 6, 7, 8] = .error .registerWidth ∧
      ¬twoThreads.Validates 1 (.gpr 0) 4 [1, 2, 3, 4, 5, 6, 7, 8] ∧
      twoThreads.writeRegister 2 (.gpr 0) [1, 2, 3, 4, 5, 6, 7, 8] =
        .ok (twoThreads, .error .nonFatal) := by
  have hlookup := FreeRtosSystem.oneTask_saved.lookup
  have hid : FreeRtosSystem.Exists (.gpr 0) := by
    show (0 : ℕ) < 13
    decide
  have hwrite := FreeRtosSystem.singleWrite hlookup hid
    (.u64 (fromLe 64 [1, 2, 3, 4, 5, 6, 7, 8]))
  have hpanic : twoThreads.writeRegister 1 (.gpr 0) [1, 2, 3, 4, 5, 6, 7, 8] =
      .error .registerWidth := by
    have hother : (1 : BitVec 32) ≠ twoThreads.currentThread := by decide
    have hwidth := hwrite.wrongWidth FreeRtosSystem.oneTask_saved.fpu (by decide)
    rw [writeRegister_of_task (.gpr 0) hother rfl]
    simp only [twoThreads, hwidth]
  exact ⟨by decide, hlookup, hpanic, not_validates_of_panic hpanic, rfl⟩

end ThreadRegisters
end V5gdb
