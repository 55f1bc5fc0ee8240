import V5gdb.TaskRecords
import V5gdb.ThreadFiles

/-!
The requests of GDB that are about threads.
It lists them, asks whether one is alive and what it is called, and reads and writes the
registers of threads that it was told of or that are gone by now. The debugger answers each of
these requests from a new scan of the tasks.
-/
namespace V5gdb

open ByteMemory LittleEndian RecordLayouts

def cStr (m : Mem 32) : ℕ → Addr → Bytes
  | 0, _ => []
  | n + 1, a => if m a = 0 then [] else m a :: cStr m n (a + 1)

/-- `CStr::from_ptr` -/
def cStrAt (m : Mem 32) (a : Addr) : Bytes := cStr m (2 ^ 32) a

theorem cStr_congr {m m' : Mem 32} {n : ℕ} {a : Addr}
    (h : ∀ i ≤ (cStr m n a).length, m' (a + BitVec.ofNat 32 i) = m (a + BitVec.ofNat 32 i)) :
    cStr m' n a = cStr m n a := by
  induction n generalizing a with
  | zero => rfl
  | succ n ih =>
    have hfirst : m' a = m a := by
      have hzero := h 0 (Nat.zero_le _)
      rwa [show a + BitVec.ofNat 32 0 = a from BitVec.add_zero a] at hzero
    unfold cStr at h ⊢
    rw [hfirst]
    split_ifs at h ⊢ with hend
    · rfl
    · congr 1
      apply ih
      intro i hi
      have hnext : a + 1 + BitVec.ofNat 32 i = a + BitVec.ofNat 32 (i + 1) := by
        rw [BitVec.ofNat_add, BitVec.add_assoc, BitVec.add_comm 1]
        rfl
      rw [hnext]
      apply h
      simp only [List.length_cons]
      omega

namespace FreeRtosSystem

/-- The scheduler fills an array of 128 with all its tasks, or with none if they are more. -/
def scanTasks (known : List TaskStatus) : List TaskStatus :=
  if known.length ≤ 128 then known else []

/-- The threads, each given to the handler; `none` is a panic at one with number zero. -/
def allThreads (s : FreeRtosSystem) : Option (List (BitVec 32)) :=
  (s.tasks.filter fun task => task.eCurrentState ≠ .DELETED).mapM fun task =>
    if task.xTaskNumber = 0 then none else some task.xTaskNumber

def threadExists (s : FreeRtosSystem) (tid : BitVec 32) : Bool :=
  match s.tasks.find? fun task => task.xTaskNumber = tid with
  | none => false
  | some task => task.eCurrentState ≠ .DELETED

/-- The buffer with the name in front, and how much of the name it has. `pcTaskName` is the
field of the status that points to the name. -/
def readThreadName (s : FreeRtosSystem) (pcTaskName : TaskStatus → Addr) (tid : BitVec 32)
    (buf : Bytes) : Except SystemError (Bytes × ℕ) :=
  match s.tasks.find? fun task => task.xTaskNumber = tid with
  | none => .error .noSuchTid
  | some task =>
    let nameBytes := cStrAt s.memory (pcTaskName task)
    let copyLen := min nameBytes.length buf.length
    .ok (nameBytes.take copyLen ++ buf.drop copyLen, copyLen)

end FreeRtosSystem

inductive ThreadPanic
  | target (e : Panic)
  | task (e : TaskError)
  /-- "Thread IDs should be nonzero" -/
  | zeroThreadId
  deriving DecidableEq, Repr

abbrev RequestExec := Except ThreadPanic

inductive ThreadRequest
  | listActiveThreads
  | isThreadAlive (tid : BitVec 32)
  | threadExtraInfo (tid : BitVec 32) (buf : Bytes)
  | readRegisters (tid : BitVec 32)
  | writeRegisters (tid : BitVec 32) (regs : DebugEventContext)
  | readRegister (tid : BitVec 32) (regId : ArmRegisterID) (buf : Bytes)
  | writeRegister (w : ThreadRegisters.RegisterWrite)

inductive ThreadAnswer
  | threads (ids : List (BitVec 32))
  | alive (isAlive : Bool)
  | extraInfo (buf : Bytes) (n : ℕ)
  | registers (regs : DebugEventContext)
  | register (buf : Bytes) (n : ℕ)
  | written

namespace ThreadRegisters

def writeRegisters (s : ThreadRegisters) (tid : BitVec 32) (regs : DebugEventContext) :
    TaskExec (ThreadRegisters × Except TargetError Unit) :=
  if tid = s.currentThread then .ok ({ s with exceptionCtx := regs }, .ok ())
  else
    match s.system.writeRegisters tid regs with
    | .ok system => .ok ({ s with system }, .ok ())
    | .error (.system e) => .ok (s, .error e.toTargetError)
    | .error e => .error e

def threadExtraInfo (s : ThreadRegisters) (pcTaskName : TaskStatus → Addr) (tid : BitVec 32)
    (buf : Bytes) : Bytes × ℕ :=
  match s.system.readThreadName pcTaskName tid buf with
  | .ok written => written
  | .error _ => (buf, 0)

def answerRead {α : Type} (s : ThreadRegisters) (answer : α → ThreadAnswer) :
    ThreadExec (Except TargetError α) →
      RequestExec (ThreadRegisters × Except TargetError ThreadAnswer)
  | .ok result => .ok (s, result.map answer)
  | .error (.inl e) => .error (.target e)
  | .error (.inr e) => .error (.task e)

def answerWrite : TaskExec (ThreadRegisters × Except TargetError Unit) →
    RequestExec (ThreadRegisters × Except TargetError ThreadAnswer)
  | .ok (s, result) => .ok (s, result.map fun _ => .written)
  | .error e => .error (.task e)

def request (s : ThreadRegisters) (pcTaskName : TaskStatus → Addr) :
    ThreadRequest → RequestExec (ThreadRegisters × Except TargetError ThreadAnswer)
  | .listActiveThreads =>
    match s.system.allThreads with
    | some ids => .ok (s, .ok (.threads ids))
    | none => .error .zeroThreadId
  | .isThreadAlive tid => .ok (s, .ok (.alive (s.system.threadExists tid)))
  | .threadExtraInfo tid buf =>
    let (buf, n) := s.threadExtraInfo pcTaskName tid buf
    .ok (s, .ok (.extraInfo buf n))
  | .readRegisters tid => s.answerRead .registers (s.readRegisters tid)
  | .writeRegisters tid regs => answerWrite (s.writeRegisters tid regs)
  | .readRegister tid regId buf =>
    s.answerRead (fun r => .register r.1 r.2) (s.readRegister tid regId buf)
  | .writeRegister w => answerWrite (s.writeRegister w.tid w.regId w.val)

def requestEach (s : ThreadRegisters) (pcTaskName : TaskStatus → Addr) :
    List ThreadRequest → RequestExec (ThreadRegisters × List (Except TargetError ThreadAnswer))
  | [] => .ok (s, [])
  | r :: requests => do
    let (s, answer) ← s.request pcTaskName r
    let (s, answers) ← s.requestEach pcTaskName requests
    return (s, answer :: answers)

end ThreadRegisters

namespace FreeRtosSystem

/-- The numbers that the scheduler gives: one for each task, none of them zero. Only the stopped
thread is running. -/
structure Numbered (tasks : List TaskStatus) (current : BitVec 32) : Prop where
  nodup : (tasks.map (·.xTaskNumber)).Nodup
  nonzero : ∀ task ∈ tasks, task.xTaskNumber ≠ 0
  running : ∀ task ∈ tasks, task.eCurrentState = .RUNNING → task.xTaskNumber = current

structure SwitchedOut (s : FreeRtosSystem) (stack : Stack) (task : TaskStatus) : Prop where
  fpu : s.field (s.stackPtr task) SavedTaskContextFPU.ulPortTaskHasFPUContext ≠ 0
  fits : (s.stackPtr task).toNat + SavedTaskContextFPU.size < 2 ^ 32
  inside : ∀ x, Within (s.stackPtr task) SavedTaskContextFPU.size x → stack.Holds x

variable {s s' : FreeRtosSystem} {tid current : BitVec 32} {task : TaskStatus}
  {stack : TaskStatus → Stack} {tasks : List TaskStatus} {registers : DebugEventContext}

theorem Numbered.find? (h : Numbered tasks current) (htask : task ∈ tasks)
    {p : TaskStatus → Prop} [DecidablePred p] (hp : p task)
    (hunique : ∀ task', p task' → task'.xTaskNumber = task.xTaskNumber) :
    tasks.find? (fun task' => p task') = some task := by
  cases hfind : tasks.find? (fun task' => p task') with
  | none => exact absurd (decide_eq_true hp) (List.find?_eq_none.mp hfind task htask)
  | some task' =>
    have hmem := List.mem_of_find?_eq_some hfind
    have hfound := List.find?_some hfind
    simp only [decide_eq_true_eq] at hfound
    have hnumber := hunique task' hfound
    rw [List.inj_on_of_nodup_map h.nodup hmem htask hnumber]

theorem Numbered.lookup (h : Numbered s.tasks current) (htask : task ∈ s.tasks)
    (halive : task.eCurrentState ≠ .DELETED) (hother : task.xTaskNumber ≠ current) :
    s.lookupSavedTask task.xTaskNumber = .ok task := by
  have hfind : (s.tasks.find? fun task' =>
      task'.xTaskNumber = task.xTaskNumber ∧ task'.eCurrentState ≠ .DELETED) = some task :=
    h.find? htask ⟨rfl, halive⟩ (fun _ hfound => hfound.1)
  unfold lookupSavedTask
  rw [hfind]
  exact if_neg fun hrunning => hother (h.running task htask hrunning)

/-- A number that no task has, or only one that was deleted. -/
theorem lookup_of_absent
    (h : ∀ task ∈ s.tasks, task.eCurrentState ≠ .DELETED → task.xTaskNumber ≠ tid) :
    s.lookupSavedTask tid = .error (.system .noSuchTid) := by
  have hfind : (s.tasks.find? fun task =>
      task.xTaskNumber = tid ∧ task.eCurrentState ≠ .DELETED) = none := by
    rw [List.find?_eq_none]
    intro task htask hfound
    obtain ⟨hnumber, halive⟩ := of_decide_eq_true hfound
    exact h task htask halive hnumber
  unfold lookupSavedTask
  rw [hfind]

theorem threadIds {tasks : List TaskStatus} (h : ∀ task ∈ tasks, task.xTaskNumber ≠ 0) :
    (tasks.mapM fun task => if task.xTaskNumber = 0 then none else some task.xTaskNumber) =
      some (tasks.map (·.xTaskNumber)) := by
  induction tasks with
  | nil => rfl
  | cons task tasks ih =>
    obtain ⟨hfirst, hrest⟩ := List.forall_mem_cons.mp h
    rw [List.mapM_cons, if_neg hfirst, ih hrest]
    rfl

theorem Numbered.allThreads (h : Numbered s.tasks current) :
    s.allThreads =
      some ((s.tasks.filter fun task => task.eCurrentState ≠ .DELETED).map (·.xTaskNumber)) := by
  apply threadIds
  intro task htask
  exact h.nonzero task (List.mem_of_mem_filter htask)

theorem Numbered.threadExists (h : Numbered s.tasks current) (tid : BitVec 32) :
    s.threadExists tid = decide
      (tid ∈ (s.tasks.filter fun task => task.eCurrentState ≠ .DELETED).map (·.xTaskNumber)) := by
  unfold FreeRtosSystem.threadExists
  rw [Bool.eq_iff_iff, decide_eq_true_iff]
  simp only [List.mem_map, List.mem_filter, decide_eq_true_eq]
  split
  · rename_i hfind
    rw [List.find?_eq_none] at hfind
    simp only [Bool.false_eq_true, false_iff, not_exists, not_and]
    intro task htask hnumber
    exact hfind task htask.1 (decide_eq_true hnumber)
  · rename_i task hfind
    have hnumber := List.find?_some hfind
    have hmem := List.mem_of_find?_eq_some hfind
    simp only [decide_eq_true_eq] at hnumber ⊢
    constructor
    · intro halive
      exact ⟨task, ⟨hmem, halive⟩, hnumber⟩
    · intro hlisted
      obtain ⟨task', ⟨hmem', halive⟩, hnumber'⟩ := hlisted
      rwa [List.inj_on_of_nodup_map h.nodup hmem hmem' (hnumber.trans hnumber'.symm)]

/-- The tasks whose stacks hold their contexts can be looked up there. -/
theorem laid_of_switchedOut (hnumbered : Numbered s.tasks current) (hapart : Apart stack tasks)
    (htasks : ∀ task ∈ tasks, task ∈ s.tasks ∧ task.eCurrentState ≠ .DELETED ∧
      task.xTaskNumber ≠ current)
    (h : ∀ task ∈ tasks, s.SwitchedOut (stack task) task) : s.Laid stack tasks where
  apart := hapart
  placed := by
    intro task htask
    obtain ⟨hmem, halive, hother⟩ := htasks task htask
    obtain ⟨hfpu, hfits, hinside⟩ := h task htask
    refine ⟨⟨hnumbered.lookup hmem halive hother, hfpu, hfits, ?_⟩, hinside⟩
    intro x hx
    exact hapart.control task htask task htask x (hinside x hx)

/-- A write of all registers of a task is a write to no register of another one. -/
theorem Laid.writeRegisters (h : s.Laid stack tasks) (htask : task ∈ tasks)
    (hsp : FitsStack (stack task) registers.stackPointer)
    (hflag : loadWord s.memory
      (registers.stackPointer - BitVec.ofNat 32 SavedTaskContextFPU.size) ≠ 0) :
    ∃ s', s.writeRegisters task.xTaskNumber registers = .ok s' ∧ s'.Laid stack tasks ∧
      s.Keeps s' stack tasks ∧
      (∀ id, Exists id → s'.value task id = recordValue registers id) ∧
      ∀ task' ∈ tasks, task' ≠ task → ∀ id, Exists id → s'.value task' id = s.value task' id := by
  have hsize : SavedTaskContextFPU.size = 332 := rfl
  have hsaved := (h.placed task htask).saved
  have hvalid : ValidSp task registers.stackPointer :=
    ⟨hsp.room, fun x hx => h.apart.control task htask task htask x (hsp.inside x hx)⟩
  have hwrite := hsaved.writeRegisters hvalid
  rw [if_pos hflag] at hwrite
  have hfits := hvalid.fits
  have hapart := hvalid.apart
  have hinside := hsp.inside
  obtain ⟨place, hplace⟩ : ∃ place, place =
    registers.stackPointer - BitVec.ofNat 32 SavedTaskContextFPU.size := ⟨_, rfl⟩
  obtain ⟨nesting, hnesting⟩ : ∃ nesting, nesting =
    s.field (s.stackPtr task) SavedTaskContextFPU.ulCriticalNesting := ⟨_, rfl⟩
  rw [← hplace] at hfits hapart hinside
  rw [← hplace, ← hnesting] at hwrite
  have hlen := (contextLayout registers nesting).length
  obtain ⟨s', hs'⟩ : ∃ s' : FreeRtosSystem, s' = { s with
    memory := storeWords (storeWord s.memory task.xHandle place) place
      (contextWords registers nesting) } := ⟨_, rfl⟩
  rw [← hs'] at hwrite
  obtain ⟨hread, _, hone⟩ := hsaved.wrote_all hvalid hplace hs'
  have hptr : s'.stackPtr task = place := by
    rw [hs', stackPtr, loadWord_storeWords_of_disjoint _ (by omega) (by omega)]
    · exact loadWord_storeWord_self _ _ _ (by omega)
    · rw [hlen]
      exact hapart.symm
  have hknown : s'.tasks = s.tasks := by rw [hs']
  have hplaced : s'.OnStack (stack task) task := by
    rw [← hptr] at hfits hapart hinside
    refine ⟨hsaved.of_flag hknown ?_ hfits hapart, hinside⟩
    rw [hone]
    decide
  have hframe : ∀ x, ¬(stack task).Holds x → ¬Within task.xHandle 4 x →
      s'.memory x = s.memory x := by
    intro x hout hcontrol
    have hnot : ¬Within place (4 * (contextWords registers nesting).length) x := by
      rw [hlen]
      exact fun hin => hout (hinside x hin)
    rw [hs']
    exact (storeWords_of_not_within _ (by omega) hnot).trans
      (storeWord_of_not_within _ _ hcontrol)
  obtain ⟨hlaid, hkeeps, hothers⟩ := h.of_write htask hknown hplaced hframe
  refine ⟨s', hwrite, hlaid, hkeeps, ?_, hothers⟩
  intro id hid
  obtain ⟨c, hc, hvalue⟩ := hplaced.saved.readRegisters
  rw [← hvalue id hid, Except.ok.inj (hc.symm.trans hread)]

end FreeRtosSystem

end V5gdb
