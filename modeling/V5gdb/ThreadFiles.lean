import V5gdb.TaskStacks

/-!
The registers of all threads.
GDB reads and writes the registers of any thread. The stopped thread's are those of the saved
context; every other task's lie on its stack, together with what the scheduler keeps there. As
long as the stacks and the control blocks lie apart, the registers of all threads together are
one file, with a place for each register of each thread.
-/
namespace V5gdb

open ByteMemory LittleEndian RecordLayouts

def SavedRegister.toBytes : SavedRegister → Bytes
  | u32 v => toLe 4 v
  | u64 v => toLe 8 v

theorem SavedRegister.toBytes_of_fromLeBytes {buf : Bytes} {v : SavedRegister}
    (h : fromLeBytes buf = some v) : v.toBytes = buf := by
  unfold fromLeBytes at h
  split_ifs at h with hlong hshort
  · rw [← Option.some.inj h, toBytes, ← hlong]
    exact toLe_fromLe buf (by omega)
  · rw [← Option.some.inj h, toBytes, ← hshort]
    exact toLe_fromLe buf (by omega)

/-- A callback for a thread panics in the debugger or in its part for the scheduler. -/
abbrev ThreadExec := Except (Panic ⊕ TaskError)

def TaskExec.toThread {α : Type} : TaskExec α → ThreadExec (Except TargetError α)
  | .ok a => .ok (.ok a)
  | .error (.system e) => .ok (.error e.toTargetError)
  | .error e => .error (.inr e)

namespace ThreadRegisters

/-- `copy_from_slice` into a buffer of another length is a panic. -/
def readRegister (s : ThreadRegisters) (tid : BitVec 32) (regId : ArmRegisterID) (buf : Bytes) :
    ThreadExec (Except TargetError (Bytes × ℕ)) :=
  if tid = s.currentThread then
    match s.exceptionCtx.readRegister regId buf with
    | .ok r => .ok r
    | .error e => .error (.inl e)
  else do
    match ← (s.system.readSingleRegister tid regId).toThread with
    | .error e => return .error e
    | .ok reg =>
      if buf.length = reg.bytes then return .ok (reg.toBytes, reg.bytes)
      else throw (.inl .sliceLength)

def readRegisters (s : ThreadRegisters) (tid : BitVec 32) :
    ThreadExec (Except TargetError DebugEventContext) :=
  if tid = s.currentThread then .ok (.ok s.exceptionCtx)
  else (s.system.readRegisters tid).toThread

structure RegisterWrite where
  tid : BitVec 32
  regId : ArmRegisterID
  val : Bytes

def writeEach (s : ThreadRegisters) : List RegisterWrite →
    TaskExec (ThreadRegisters × List (Except TargetError Unit))
  | [] => .ok (s, [])
  | w :: writes => do
    let (s, result) ← s.writeRegister w.tid w.regId w.val
    let (s, results) ← s.writeEach writes
    return (s, result :: results)

def lastWritten (writes : List RegisterWrite) (tid : BitVec 32) (id : ArmRegisterID)
    (initial : Bytes) : Bytes :=
  writes.foldl (fun bytes w => if w.tid = tid ∧ w.regId = id then w.val else bytes) initial

def Reads (s : ThreadRegisters) (tid : BitVec 32) (id : ArmRegisterID) (bytes : Bytes) : Prop :=
  ∀ buf : Bytes, buf.length = id.size →
    s.readRegister tid id buf = .ok (.ok (bytes, id.size))

def Covers (s : ThreadRegisters) (tasks : List TaskStatus) (tid : BitVec 32) : Prop :=
  tid = s.currentThread ∨ ∃ task ∈ tasks, task.xTaskNumber = tid

/-- What GDB keeps to: the value is as long as the register, and the stack pointer of a task
stays on its stack. -/
structure Allows (s : ThreadRegisters) (stack : TaskStatus → FreeRtosSystem.Stack)
    (tasks : List TaskStatus) (w : RegisterWrite) : Prop where
  covered : s.Covers tasks w.tid
  present : FreeRtosSystem.Exists w.regId
  width : w.val.length = w.regId.size
  fits : w.tid ≠ s.currentThread → w.regId = .sp →
    ∀ task ∈ tasks, task.xTaskNumber = w.tid →
      FreeRtosSystem.FitsStack (stack task) (fromLe 32 w.val)

variable {s s' : ThreadRegisters} {tid : BitVec 32} {id id' : ArmRegisterID}
  {task : TaskStatus} {tasks : List TaskStatus} {stack : TaskStatus → FreeRtosSystem.Stack}
  {w : RegisterWrite}

theorem exists_contextReg (hid : FreeRtosSystem.Exists id) :
    ∃ r, DebugEventContext.contextReg? id = some r ∧
      (DebugEventContext.field r).size = id.size := by
  cases id with
  | gpr i => exact ⟨.gpr ⟨i.toNat, hid⟩, dif_pos hid, rfl⟩
  | fpr i => exact ⟨.fpr ⟨i.toNat, hid⟩, dif_pos hid, rfl⟩
  | sp => exact ⟨.sp, rfl, rfl⟩
  | lr => exact ⟨.lr, rfl, rfl⟩
  | pc => exact ⟨.pc, rfl, rfl⟩
  | cpsr => exact ⟨.cpsr, rfl, rfl⟩
  | fpscr => exact ⟨.fpscr, rfl, rfl⟩

/-- The bytes of a register in a record of all of them. -/
theorem recordValue_toBytes {r : ContextReg} (h : DebugEventContext.contextReg? id = some r)
    (c : DebugEventContext) :
    (FreeRtosSystem.recordValue c id).toBytes = (DebugEventContext.field r).get c := by
  cases id with
  | gpr i =>
    simp only [DebugEventContext.contextReg?] at h
    split_ifs at h with hlt
    obtain rfl := Option.some.inj h
    have hplace : Fin.ofNat 13 i.toNat = ⟨i.toNat, hlt⟩ := Fin.ext (Nat.mod_eq_of_lt hlt)
    simp only [FreeRtosSystem.recordValue, hplace]
    rfl
  | fpr i =>
    simp only [DebugEventContext.contextReg?] at h
    split_ifs at h with hlt
    obtain rfl := Option.some.inj h
    have hplace : Fin.ofNat 32 i.toNat = ⟨i.toNat, hlt⟩ := Fin.ext (Nat.mod_eq_of_lt hlt)
    simp only [FreeRtosSystem.recordValue, hplace]
    rfl
  | sp | lr | pc | cpsr | fpscr =>
    obtain rfl := Option.some.inj h
    rfl

def regId : ContextReg → ArmRegisterID
  | .gpr i => .gpr (BitVec.ofNat 8 i)
  | .sp => .sp
  | .lr => .lr
  | .pc => .pc
  | .cpsr => .cpsr
  | .fpr i => .fpr (BitVec.ofNat 8 i)
  | .fpscr => .fpscr

theorem regId_of_contextReg {r : ContextReg} (h : DebugEventContext.contextReg? id = some r) :
    regId r = id := by
  cases id with
  | gpr i | fpr i =>
    simp only [DebugEventContext.contextReg?] at h
    split_ifs at h
    obtain rfl := Option.some.inj h
    simp only [regId, BitVec.ofNat_toNat, BitVec.setWidth_eq]
  | sp | lr | pc | cpsr | fpscr =>
    obtain rfl := Option.some.inj h
    rfl

theorem reads_current {r : ContextReg} (hr : DebugEventContext.contextReg? id = some r)
    (hsize : (DebugEventContext.field r).size = id.size) (hcurrent : tid = s.currentThread) :
    s.Reads tid id ((DebugEventContext.field r).get s.exceptionCtx) := by
  intro buf hbuf
  unfold readRegister
  rw [if_pos hcurrent,
    DebugEventContext.readRegister_field hr s.exceptionCtx (hbuf.trans hsize.symm), hsize]

theorem bytes_value (s : FreeRtosSystem) (task : TaskStatus) (id : ArmRegisterID) :
    (s.value task id).bytes = id.size := by
  cases id <;> rfl

theorem reads_task {st : FreeRtosSystem.Stack} (h : s.system.OnStack st task)
    (hid : FreeRtosSystem.Exists id) (hother : task.xTaskNumber ≠ s.currentThread) :
    s.Reads task.xTaskNumber id (s.system.value task id).toBytes := by
  intro buf hbuf
  unfold readRegister
  rw [if_neg hother, h.saved.readSingleRegister hid]
  simp only [TaskExec.toThread, bind, Except.bind, bytes_value]
  rw [if_pos hbuf]
  rfl

theorem Reads.unique {bytes bytes' : Bytes} (h : s.Reads tid id bytes)
    (h' : s.Reads tid id bytes') : bytes = bytes' := by
  have hboth := (h (List.replicate id.size 0) List.length_replicate).symm.trans
    (h' (List.replicate id.size 0) List.length_replicate)
  exact (Prod.mk.inj (Except.ok.inj (Except.ok.inj hboth))).1

/-- The saved context is not where the registers of the other threads are. -/
theorem Reads.of_context {bytes : Bytes} (h : s.Reads tid id bytes)
    (hother : tid ≠ s.currentThread) (exceptionCtx : DebugEventContext) :
    { s with exceptionCtx }.Reads tid id bytes := by
  intro buf hbuf
  have hread := h buf hbuf
  unfold readRegister at hread ⊢
  rw [if_neg hother] at hread
  rw [if_neg hother, hread]

/-- The tasks are not where the registers of the stopped thread are. -/
theorem Reads.of_system {bytes : Bytes} (h : s.Reads tid id bytes)
    (hcurrent : tid = s.currentThread) (system : FreeRtosSystem) :
    { s with system }.Reads tid id bytes := by
  intro buf hbuf
  have hread := h buf hbuf
  unfold readRegister at hread ⊢
  rw [if_pos hcurrent] at hread
  rw [if_pos hcurrent, hread]

/-- The registers that GDB can read are there to be read. -/
theorem exists_reads (h : s.system.Laid stack tasks) (hcovers : s.Covers tasks tid)
    (hid : FreeRtosSystem.Exists id) : ∃ bytes, s.Reads tid id bytes := by
  by_cases hcurrent : tid = s.currentThread
  · obtain ⟨r, hr, hsize⟩ := exists_contextReg hid
    exact ⟨_, reads_current hr hsize hcurrent⟩
  · obtain ⟨task, htask, rfl⟩ := hcovers.resolve_left hcurrent
    exact ⟨_, reads_task (h.placed task htask) hid hcurrent⟩

/-- The other registers of the stopped thread are where they were, and those of the tasks. -/
theorem writeRegister_current (h : s.system.Laid stack tasks) (hw : s.Allows stack tasks w)
    (hcurrent : w.tid = s.currentThread) :
    ∃ s', s.writeRegister w.tid w.regId w.val = .ok (s', .ok ()) ∧
      s'.currentThread = s.currentThread ∧ s'.system.Laid stack tasks ∧
      s.system.Keeps s'.system stack tasks ∧ s'.Reads w.tid w.regId w.val ∧
      ∀ tid id bytes, s.Covers tasks tid → FreeRtosSystem.Exists id →
        ¬(w.tid = tid ∧ w.regId = id) → s.Reads tid id bytes → s'.Reads tid id bytes := by
  obtain ⟨r, hr, hsize⟩ := exists_contextReg hw.present
  have hlen : w.val.length = (DebugEventContext.field r).size := hw.width.trans hsize.symm
  let s' : ThreadRegisters :=
    { s with exceptionCtx := (DebugEventContext.field r).set w.val s.exceptionCtx }
  have hself := @reads_current s' w.tid w.regId r hr hsize hcurrent
  rw [(DebugEventContext.field r).get_set w.val s.exceptionCtx hlen] at hself
  refine ⟨s', ?_, rfl, h, .refl s.system, hself, ?_⟩
  · unfold writeRegister
    rw [if_pos hcurrent, DebugEventContext.writeRegister_field hr, if_pos hlen]
  · intro tid id bytes hcovers hid hne hreads
    by_cases htid : tid = s.currentThread
    · obtain ⟨r', hr', hsize'⟩ := exists_contextReg hid
      have hrr : r ≠ r' := by
        intro heq
        subst heq
        exact hne ⟨hcurrent.trans htid.symm, by
          rw [← regId_of_contextReg hr, regId_of_contextReg hr']⟩
      have hold := hreads.unique (reads_current hr' hsize' htid)
      have hnew := @reads_current s' tid id r' hr' hsize' htid
      rw [DebugEventContext.get_set_of_ne hrr, ← hold] at hnew
      exact hnew
    · exact hreads.of_context htid _

theorem exists_value {id : ArmRegisterID} {val : Bytes} (hlen : val.length = id.size) :
    ∃ v, SavedRegister.fromLeBytes val = some v ∧ FreeRtosSystem.HasWidth id v ∧
      (∀ sp, v = .u32 sp → sp = fromLe 32 val) := by
  cases hv : SavedRegister.fromLeBytes val with
  | none =>
    obtain ⟨hshort, hlong⟩ := (SavedRegister.fromLeBytes_eq_none_iff val).mp hv
    rw [hlen] at hshort hlong
    cases id <;> simp [ArmRegisterID.size] at hshort hlong
  | some v =>
    refine ⟨v, rfl, ?_, ?_⟩
    · rw [FreeRtosSystem.hasWidth_iff, SavedRegister.bytes_of_fromLeBytes hv, hlen]
    · intro sp hsp
      subst hsp
      have hshort : val.length = 4 := (SavedRegister.bytes_of_fromLeBytes hv).symm
      rw [SavedRegister.fromLeBytes_word hshort] at hv
      exact (SavedRegister.u32.inj (Option.some.inj hv)).symm

theorem writeRegister_other (h : s.system.Laid stack tasks) (hw : s.Allows stack tasks w)
    (hother : w.tid ≠ s.currentThread) :
    ∃ s', s.writeRegister w.tid w.regId w.val = .ok (s', .ok ()) ∧
      s'.currentThread = s.currentThread ∧ s'.system.Laid stack tasks ∧
      s.system.Keeps s'.system stack tasks ∧ s'.Reads w.tid w.regId w.val ∧
      ∀ tid id bytes, s.Covers tasks tid → FreeRtosSystem.Exists id →
        ¬(w.tid = tid ∧ w.regId = id) → s.Reads tid id bytes → s'.Reads tid id bytes := by
  obtain ⟨task, htask, hnumber⟩ := hw.covered.resolve_left hother
  obtain ⟨v, hv, hwidth, hword⟩ := exists_value hw.width
  have hfits : ∀ sp, w.regId = .sp → v = .u32 sp → FreeRtosSystem.FitsStack (stack task) sp := by
    intro sp hid hsp
    rw [hword sp hsp]
    exact hw.fits hother hid task htask hnumber
  obtain ⟨system, hwrite, hlaid, hkeeps, hself, hothers⟩ :=
    h.writeSingleRegister htask hw.present hwidth hfits
  rw [hnumber] at hwrite
  let s' : ThreadRegisters := { s with system }
  have hother' : task.xTaskNumber ≠ s'.currentThread := by rwa [hnumber]
  have hreads := reads_task (hlaid.placed task htask) hw.present hother'
  rw [hself, SavedRegister.toBytes_of_fromLeBytes hv, hnumber] at hreads
  refine ⟨s', ?_, rfl, hlaid, hkeeps, hreads, ?_⟩
  · rw [writeRegister_of_task _ hother hv, hwrite]
  · intro tid id bytes hcovers hid hne hold
    by_cases htid : tid = s.currentThread
    · exact hold.of_system htid system
    · obtain ⟨task', htask', rfl⟩ := hcovers.resolve_left htid
      have hkept : system.value task' id = s.system.value task' id := by
        apply hothers task' htask' id hid
        by_contra hsame
        rw [not_or, not_not, not_not] at hsame
        exact hne ⟨by rw [hsame.1, hnumber], hsame.2.symm⟩
      have hbytes := hold.unique (reads_task (h.placed task' htask') hid htid)
      have hnew := @reads_task s' id task' _ (hlaid.placed task' htask') hid htid
      rw [show s'.system.value task' id = s.system.value task' id from hkept, ← hbytes] at hnew
      exact hnew

/-- A write that GDB may make is accepted; the register has the value, and no other register of
any thread has changed. -/
theorem writeRegister_spec (h : s.system.Laid stack tasks) (hw : s.Allows stack tasks w) :
    ∃ s', s.writeRegister w.tid w.regId w.val = .ok (s', .ok ()) ∧
      s'.currentThread = s.currentThread ∧ s'.system.Laid stack tasks ∧
      s.system.Keeps s'.system stack tasks ∧ s'.Reads w.tid w.regId w.val ∧
      ∀ tid id bytes, s.Covers tasks tid → FreeRtosSystem.Exists id →
        ¬(w.tid = tid ∧ w.regId = id) → s.Reads tid id bytes → s'.Reads tid id bytes := by
  by_cases hcurrent : w.tid = s.currentThread
  · exact writeRegister_current h hw hcurrent
  · exact writeRegister_other h hw hcurrent

theorem writeEach_spec {writes : List RegisterWrite} (h : s.system.Laid stack tasks)
    (hw : ∀ w ∈ writes, s.Allows stack tasks w) :
    ∃ s', s.writeEach writes = .ok (s', writes.map fun _ => .ok ()) ∧
      s'.currentThread = s.currentThread ∧ s'.system.Laid stack tasks ∧
      ∀ tid id bytes, s.Covers tasks tid → FreeRtosSystem.Exists id → s.Reads tid id bytes →
        s'.Reads tid id (lastWritten writes tid id bytes) := by
  induction writes generalizing s with
  | nil => exact ⟨s, rfl, rfl, h, fun _ _ _ _ _ hreads => hreads⟩
  | cons w writes ih =>
    obtain ⟨hfirst, hrest⟩ := List.forall_mem_cons.mp hw
    obtain ⟨s₁, hwrite, hthread, hlaid, _, hself, hothers⟩ := writeRegister_spec h hfirst
    have hrest' : ∀ w ∈ writes, s₁.Allows stack tasks w := by
      intro w' hw'
      obtain ⟨hcovered, hpresent, hwidth, hfits⟩ := hrest w' hw'
      exact ⟨by rwa [Covers, hthread], hpresent, hwidth, by rwa [hthread]⟩
    obtain ⟨s', hrun, hthread', hlaid', hreads'⟩ := ih hlaid hrest'
    refine ⟨s', ?_, hthread'.trans hthread, hlaid', ?_⟩
    · simp only [writeEach, hwrite, hrun, bind, Except.bind]
      rfl
    · intro tid id bytes hcovers hid hreads
      have hcovers₁ : s₁.Covers tasks tid := by rwa [Covers, hthread]
      rw [lastWritten, List.foldl_cons]
      by_cases hsame : w.tid = tid ∧ w.regId = id
      · rw [if_pos hsame]
        obtain ⟨rfl, rfl⟩ := hsame
        exact hreads' _ _ _ hcovers₁ hid hself
      · rw [if_neg hsame]
        exact hreads' _ _ _ hcovers₁ hid (hothers tid id bytes hcovers hid hsame hreads)

/-- Reading all registers of a thread at once gives what reading each of them gives. -/
theorem exists_record (h : s.system.Laid stack tasks) (hcovers : s.Covers tasks tid) :
    ∃ c, s.readRegisters tid = .ok (.ok c) ∧ ∀ id, FreeRtosSystem.Exists id →
      s.Reads tid id (FreeRtosSystem.recordValue c id).toBytes := by
  unfold readRegisters
  by_cases hcurrent : tid = s.currentThread
  · refine ⟨s.exceptionCtx, if_pos hcurrent, ?_⟩
    intro id hid
    obtain ⟨r, hr, hsize⟩ := exists_contextReg hid
    rw [recordValue_toBytes hr]
    exact reads_current hr hsize hcurrent
  · obtain ⟨task, htask, rfl⟩ := hcovers.resolve_left hcurrent
    have hplaced := h.placed task htask
    obtain ⟨c, hread, hvalue⟩ := hplaced.saved.readRegisters
    refine ⟨c, ?_, ?_⟩
    · rw [if_neg hcurrent, hread]
      rfl
    · intro id hid
      rw [hvalue id hid]
      exact reads_task hplaced hid hcurrent

/-- Through any writes to registers of any threads, all accepted, every register of every
thread reads as what was last written to it, by itself or with all others of its thread; also
where the stacks of tasks are moved. -/
theorem threads_are_files (s : ThreadRegisters) (stack : TaskStatus → FreeRtosSystem.Stack)
    (tasks : List TaskStatus) (h : s.system.Laid stack tasks) (writes : List RegisterWrite)
    (hw : ∀ w ∈ writes, s.Allows stack tasks w) :
    ∃ s', s.writeEach writes = .ok (s', writes.map fun _ => .ok ()) ∧
      ∀ tid, s.Covers tasks tid → ∃ c, s'.readRegisters tid = .ok (.ok c) ∧
        ∀ id, FreeRtosSystem.Exists id → ∃ bytes, s.Reads tid id bytes ∧
          s'.Reads tid id (lastWritten writes tid id bytes) ∧
          (FreeRtosSystem.recordValue c id).toBytes = lastWritten writes tid id bytes := by
  obtain ⟨s', hrun, hthread, hlaid, hreads⟩ := writeEach_spec h hw
  refine ⟨s', hrun, ?_⟩
  intro tid hcovers
  have hcovers' : s'.Covers tasks tid := by rwa [Covers, hthread]
  obtain ⟨c, hrecord, hvalue⟩ := exists_record hlaid hcovers'
  refine ⟨c, hrecord, ?_⟩
  intro id hid
  obtain ⟨bytes, hbytes⟩ := exists_reads h hcovers hid
  have hnew := hreads tid id bytes hcovers hid hbytes
  exact ⟨bytes, hbytes, hnew, (hvalue id hid).unique hnew⟩

def threeThreads : ThreadRegisters where
  exceptionCtx := ⟨⟨0x1f⟩, 0, 0, 0, fun _ => 0, fun _ => 0, 0⟩
  system :=
    { tasks := [⟨0x100, 1, .READY⟩, ⟨0x200, 3, .BLOCKED⟩]
      memory := storeWord (storeWord (storeWord (storeWord (fun _ => 0) 0x100 0x1100) 0x1100 1)
        0x200 0x3100) 0x3100 1 }
  currentThread := 5

def twoStacks (task : TaskStatus) : FreeRtosSystem.Stack :=
  if task.xTaskNumber = 1 then ⟨0x1000, 0x1000⟩ else ⟨0x3000, 0x1000⟩

def InTurn (a b : Addr) (n m : ℕ) : Prop :=
  (a.toNat + n ≤ b.toNat ∧ b.toNat + m ≤ 2 ^ 32) ∨ (b.toNat + m ≤ a.toNat ∧ a.toNat + n ≤ 2 ^ 32)

instance (a b : Addr) (n m : ℕ) : Decidable (InTurn a b n m) :=
  inferInstanceAs (Decidable (_ ∨ _))

theorem InTurn.disjoint {a b : Addr} {n m : ℕ} (h : InTurn a b n m) : Disjoint a n b m := by
  rcases h with ⟨hle, hend⟩ | ⟨hle, hend⟩
  · exact disjoint_of_toNat_le hle hend
  · exact (disjoint_of_toNat_le hle hend).symm

theorem threeThreads_laid :
    threeThreads.system.Laid twoStacks [⟨0x100, 1, .READY⟩, ⟨0x200, 3, .BLOCKED⟩] := by
  have hplaces : ∀ task ∈ [(⟨0x100, 1, .READY⟩ : TaskStatus), ⟨0x200, 3, .BLOCKED⟩],
      ∀ task' ∈ [(⟨0x100, 1, .READY⟩ : TaskStatus), ⟨0x200, 3, .BLOCKED⟩],
        InTurn (twoStacks task).base task'.xHandle (twoStacks task).length 4 ∧
        (task ≠ task' → InTurn (twoStacks task).base (twoStacks task').base
          (twoStacks task).length (twoStacks task').length ∧
          InTurn task.xHandle task'.xHandle 4 4) := by decide
  have hapart : FreeRtosSystem.Apart twoStacks
      [⟨0x100, 1, .READY⟩, ⟨0x200, 3, .BLOCKED⟩] :=
    ⟨fun task htask task' htask' x hin => (hplaces task htask task' htask').1.disjoint x hin,
      fun task htask task' htask' hne x hin =>
        ((hplaces task htask task' htask').2 hne).1.disjoint x hin,
      fun task htask task' htask' hne => ((hplaces task htask task' htask').2 hne).2.disjoint⟩
  refine ⟨hapart, List.forall_mem_cons.mpr ⟨?_, List.forall_mem_singleton.mpr ?_⟩⟩
  · have hturn : InTurn 0x1100 0x100 SavedTaskContextFPU.size 4 := by decide
    refine ⟨⟨by decide, by decide, by decide, hturn.disjoint⟩, fun x hin => ?_⟩
    exact @Within.of_add 32 0x1000 x 0x100 SavedTaskContextFPU.size 0x1000 (by decide) (by decide)
      hin
  · have hturn : InTurn 0x3100 0x200 SavedTaskContextFPU.size 4 := by decide
    refine ⟨⟨by decide, by decide, by decide, hturn.disjoint⟩, fun x hin => ?_⟩
    exact @Within.of_add 32 0x3000 x 0x100 SavedTaskContextFPU.size 0x1000 (by decide) (by decide)
      hin

/-- A stack is moved, and then a register of each of the other threads is written. -/
theorem threads_are_files_of_three :
    ∃ s', threeThreads.writeEach
        [⟨1, .sp, toLe 4 (0x1800 : BitVec 32)⟩, ⟨3, .gpr 0, [1, 2, 3, 4]⟩,
          ⟨5, .pc, [4, 3, 2, 1]⟩] = .ok (s', [.ok (), .ok (), .ok ()]) ∧
      s'.Reads 1 .sp (toLe 4 (0x1800 : BitVec 32)) ∧ s'.Reads 3 (.gpr 0) [1, 2, 3, 4] := by
  have hmove : FreeRtosSystem.FitsStack ⟨0x1000, 0x1000⟩ 0x1800 :=
    ⟨by decide, fun x hin => @Within.of_add 32 0x1000 x 0x6b4 SavedTaskContextFPU.size 0x1000
      (by decide) (by decide) hin⟩
  have hzero : FreeRtosSystem.Exists (.gpr 0) := Nat.zero_lt_succ 12
  have hallowed : ∀ w ∈ [(⟨1, .sp, toLe 4 (0x1800 : BitVec 32)⟩ : RegisterWrite),
      ⟨3, .gpr 0, [1, 2, 3, 4]⟩, ⟨5, .pc, [4, 3, 2, 1]⟩],
      threeThreads.Allows twoStacks [⟨0x100, 1, .READY⟩, ⟨0x200, 3, .BLOCKED⟩] w := by
    refine List.forall_mem_cons.mpr ⟨?_, List.forall_mem_cons.mpr
      ⟨?_, List.forall_mem_singleton.mpr ?_⟩⟩
    · refine ⟨.inr ⟨⟨0x100, 1, .READY⟩, by decide, rfl⟩, trivial, rfl, ?_⟩
      intro _ _ task htask hnum
      obtain rfl : task = ⟨0x100, 1, .READY⟩ := by
        revert task
        decide
      exact hmove
    · exact ⟨.inr ⟨⟨0x200, 3, .BLOCKED⟩, by decide, rfl⟩, hzero, rfl, fun _ h => by cases h⟩
    · exact ⟨.inl rfl, trivial, rfl, fun _ h => by cases h⟩
  obtain ⟨s', hrun, hfile⟩ := threads_are_files threeThreads twoStacks _ threeThreads_laid
    [⟨1, .sp, toLe 4 (0x1800 : BitVec 32)⟩, ⟨3, .gpr 0, [1, 2, 3, 4]⟩, ⟨5, .pc, [4, 3, 2, 1]⟩]
    hallowed
  obtain ⟨_, _, hfirst⟩ := hfile 1 (.inr ⟨⟨0x100, 1, .READY⟩, by decide, rfl⟩)
  obtain ⟨_, _, hsecond⟩ := hfile 3 (.inr ⟨⟨0x200, 3, .BLOCKED⟩, by decide, rfl⟩)
  obtain ⟨_, _, hsp, _⟩ := hfirst .sp trivial
  obtain ⟨_, _, hgpr, _⟩ := hsecond (.gpr 0) hzero
  exact ⟨s', hrun, hsp, hgpr⟩

end ThreadRegisters
end V5gdb
