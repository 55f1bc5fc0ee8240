import V5gdb.ThreadRequests

/-!
The view that GDB has of the threads.
It says which threads there are, what they are called, and what is in their registers, and how
requests are answered from it.
-/
namespace V5gdb

open ByteMemory LittleEndian RecordLayouts

structure ThreadView where
  ids : List (BitVec 32)
  current : BitVec 32
  name : BitVec 32 → Bytes
  register : BitVec 32 → ArmRegisterID → Bytes

namespace ThreadView

/-- The registers of the stopped thread can be reached even if it is not listed. -/
def Reaches (v : ThreadView) (tid : BitVec 32) : Prop := tid = v.current ∨ tid ∈ v.ids

instance (v : ThreadView) (tid : BitVec 32) : Decidable (v.Reaches tid) :=
  inferInstanceAs (Decidable (_ ∨ _))

def after (v : ThreadView) : ThreadRequest → ThreadView
  | .writeRegister w =>
    if v.Reaches w.tid then
      { v with
        register := fun tid id =>
          if w.tid = tid ∧ w.regId = id then w.val else v.register tid id }
    else v
  | .writeRegisters tid regs =>
    if v.Reaches tid then
      { v with
        register := fun tid' id =>
          if tid = tid' then (FreeRtosSystem.recordValue regs id).toBytes
          else v.register tid' id }
    else v
  | _ => v

def afterEach (v : ThreadView) (requests : List ThreadRequest) : ThreadView :=
  requests.foldl after v

/-- The answer that shows the view. A value for a thread out of reach is refused for its length
before its thread is looked for. -/
def Answers (v : ThreadView) : ThreadRequest → Except TargetError ThreadAnswer → Prop
  | .listActiveThreads, answer => answer = .ok (.threads v.ids)
  | .isThreadAlive tid, answer => answer = .ok (.alive (decide (tid ∈ v.ids)))
  | .threadExtraInfo tid buf, answer =>
    answer = .ok (.extraInfo ((v.name tid).take buf.length ++ buf.drop (v.name tid).length)
      (min (v.name tid).length buf.length))
  | .readRegisters tid, answer =>
    if v.Reaches tid then ∃ regs, answer = .ok (.registers regs) ∧
      ∀ id, FreeRtosSystem.Exists id →
        (FreeRtosSystem.recordValue regs id).toBytes = v.register tid id
    else answer = .error (.errno einval)
  | .readRegister tid id _, answer =>
    if v.Reaches tid then answer = .ok (.register (v.register tid id) id.size)
    else answer = .error (.errno einval)
  | .writeRegisters tid _, answer =>
    answer = if v.Reaches tid then .ok .written else .error (.errno einval)
  | .writeRegister w, answer =>
    answer = if v.Reaches w.tid then .ok .written
      else if w.val.length = 4 ∨ w.val.length = 8 then .error (.errno einval)
      else .error .nonFatal

def AnswersEach (v : ThreadView) :
    List ThreadRequest → List (Except TargetError ThreadAnswer) → Prop
  | [], answers => answers = []
  | r :: requests, answers => ∃ answer rest, answers = answer :: rest ∧ v.Answers r answer ∧
      (v.after r).AnswersEach requests rest

end ThreadView

namespace ThreadRegisters

def listed (s : ThreadRegisters) : List (BitVec 32) :=
  (s.system.tasks.filter fun task => task.eCurrentState ≠ .DELETED).map (·.xTaskNumber)

def otherTasks (s : ThreadRegisters) : List TaskStatus :=
  s.system.tasks.filter fun task =>
    task.eCurrentState ≠ .DELETED ∧ task.xTaskNumber ≠ s.currentThread

def nameOf (s : ThreadRegisters) (pcTaskName : TaskStatus → Addr) (tid : BitVec 32) : Bytes :=
  match s.system.tasks.find? fun task => task.xTaskNumber = tid with
  | none => []
  | some task => cStrAt s.system.memory (pcTaskName task)

/-- The names with their ends lie apart from the stacks and from the saved stack pointers. -/
def NamesApart (s : ThreadRegisters) (pcTaskName : TaskStatus → Addr)
    (stack : TaskStatus → FreeRtosSystem.Stack) : Prop :=
  ∀ task ∈ s.system.tasks, ∀ i ≤ (cStrAt s.system.memory (pcTaskName task)).length,
    ∀ task' ∈ s.otherTasks,
      ¬(stack task').Holds (pcTaskName task + BitVec.ofNat 32 i) ∧
        ¬Within task'.xHandle 4 (pcTaskName task + BitVec.ofNat 32 i)

structure Ready (s : ThreadRegisters) (pcTaskName : TaskStatus → Addr)
    (stack : TaskStatus → FreeRtosSystem.Stack) : Prop where
  numbered : FreeRtosSystem.Numbered s.system.tasks s.currentThread
  laid : s.system.Laid stack s.otherTasks
  names : s.NamesApart pcTaskName stack

structure Shows (s : ThreadRegisters) (pcTaskName : TaskStatus → Addr) (v : ThreadView) :
    Prop where
  ids : s.listed = v.ids
  current : s.currentThread = v.current
  name : ∀ tid, s.nameOf pcTaskName tid = v.name tid
  register : ∀ tid, v.Reaches tid → ∀ id, FreeRtosSystem.Exists id →
    s.Reads tid id (v.register tid id)

/-- What GDB keeps to: buffers and values have the length of the register, and a stack pointer
for a task stays on its stack. All registers of a task are only written where the new place of
its context does not begin with a zero word. -/
def Permits (s : ThreadRegisters) (stack : TaskStatus → FreeRtosSystem.Stack) :
    ThreadRequest → Prop
  | .readRegister tid id buf =>
    s.Covers s.otherTasks tid → FreeRtosSystem.Exists id ∧ buf.length = id.size
  | .writeRegister w => s.Covers s.otherTasks w.tid → s.Allows stack s.otherTasks w
  | .writeRegisters tid regs =>
    tid ≠ s.currentThread → ∀ task ∈ s.otherTasks, task.xTaskNumber = tid →
      FreeRtosSystem.FitsStack (stack task) regs.stackPointer ∧
        loadWord s.system.memory
          (regs.stackPointer - BitVec.ofNat 32 SavedTaskContextFPU.size) ≠ 0
  | _ => True

def PermitsEach (s : ThreadRegisters) (pcTaskName : TaskStatus → Addr)
    (stack : TaskStatus → FreeRtosSystem.Stack) : List ThreadRequest → Prop
  | [] => True
  | r :: requests => s.Permits stack r ∧
      ∀ s' answer, s.request pcTaskName r = .ok (s', answer) →
        s'.PermitsEach pcTaskName stack requests

def Serves (s : ThreadRegisters) (pcTaskName : TaskStatus → Addr)
    (stack : TaskStatus → FreeRtosSystem.Stack) (v : ThreadView) (r : ThreadRequest) : Prop :=
  ∃ s' answer, s.request pcTaskName r = .ok (s', answer) ∧ v.Answers r answer ∧
    s'.Ready pcTaskName stack ∧ s'.Shows pcTaskName (v.after r)

variable {s s' : ThreadRegisters} {pcTaskName : TaskStatus → Addr}
  {stack : TaskStatus → FreeRtosSystem.Stack} {v : ThreadView} {r : ThreadRequest}
  {tid : BitVec 32} {id : ArmRegisterID} {answer : Except TargetError ThreadAnswer}

theorem Shows.reaches_iff (h : s.Shows pcTaskName v) (tid : BitVec 32) :
    v.Reaches tid ↔ s.Covers s.otherTasks tid := by
  unfold ThreadView.Reaches Covers
  rw [← h.current, ← h.ids]
  simp only [listed, otherTasks, List.mem_map, List.mem_filter, decide_eq_true_eq]
  constructor
  · intro hreach
    by_cases hcurrent : tid = s.currentThread
    · exact .inl hcurrent
    · obtain ⟨task, ⟨hmem, halive⟩, hnumber⟩ := hreach.resolve_left hcurrent
      exact .inr ⟨task, ⟨hmem, halive, by rwa [hnumber]⟩, hnumber⟩
  · intro hcovers
    apply hcovers.imp_right
    intro hother
    obtain ⟨task, ⟨hmem, halive, _⟩, hnumber⟩ := hother
    exact ⟨task, ⟨hmem, halive⟩, hnumber⟩

/-- A thread out of reach is not the stopped one, and no task is found for it. -/
theorem Shows.absent (h : s.Shows pcTaskName v) (hreach : ¬v.Reaches tid) :
    tid ≠ s.currentThread ∧ s.system.lookupSavedTask tid = .error (.system .noSuchTid) := by
  obtain ⟨hcurrent, hids⟩ := not_or.mp hreach
  rw [← h.current] at hcurrent
  refine ⟨hcurrent, FreeRtosSystem.lookup_of_absent ?_⟩
  intro task htask halive hnumber
  apply hids
  rw [← h.ids, listed, List.mem_map]
  exact ⟨task, List.mem_filter.mpr ⟨htask, decide_eq_true halive⟩, hnumber⟩

theorem Ready.of_keeps (h : s.Ready pcTaskName stack)
    (hcurrent : s'.currentThread = s.currentThread) (hlaid : s'.system.Laid stack s.otherTasks)
    (hkeeps : s.system.Keeps s'.system stack s.otherTasks) :
    s'.Ready pcTaskName stack ∧ s'.listed = s.listed ∧
      ∀ tid, s'.nameOf pcTaskName tid = s.nameOf pcTaskName tid := by
  have hothers : s'.otherTasks = s.otherTasks := by
    unfold otherTasks
    rw [hkeeps.known, hcurrent]
  have hname : ∀ task ∈ s.system.tasks, cStrAt s'.system.memory (pcTaskName task) =
      cStrAt s.system.memory (pcTaskName task) := by
    intro task htask
    apply cStr_congr
    intro i hi
    apply hkeeps.memory
    exact h.names task htask i hi
  refine ⟨⟨?_, by rwa [hothers], ?_⟩, ?_, ?_⟩
  · rw [hkeeps.known, hcurrent]
    exact h.numbered
  · intro task htask
    rw [hkeeps.known] at htask
    rw [hname task htask, hothers]
    exact h.names task htask
  · unfold listed
    rw [hkeeps.known]
  · intro tid
    unfold nameOf
    rw [hkeeps.known]
    cases hfind : s.system.tasks.find? fun task => task.xTaskNumber = tid with
    | none => rfl
    | some task => exact hname task (List.mem_of_find?_eq_some hfind)

theorem Shows.of_keeps {v' : ThreadView} (h : s.Shows pcTaskName v)
    (hready : s.Ready pcTaskName stack) (hcurrent : s'.currentThread = s.currentThread)
    (hlaid : s'.system.Laid stack s.otherTasks)
    (hkeeps : s.system.Keeps s'.system stack s.otherTasks)
    (hview : v' = { v with register := v'.register })
    (hregister : ∀ tid, v.Reaches tid → ∀ id, FreeRtosSystem.Exists id →
      s'.Reads tid id (v'.register tid id)) :
    s'.Ready pcTaskName stack ∧ s'.Shows pcTaskName v' := by
  obtain ⟨hready', hlisted, hname⟩ := hready.of_keeps hcurrent hlaid hkeeps
  rw [hview]
  refine ⟨hready', hlisted.trans h.ids, hcurrent.trans h.current, ?_, hregister⟩
  exact fun tid => (hname tid).trans (h.name tid)


end ThreadRegisters
end V5gdb
