import V5gdb.ThreadRegisters

/-!
The stacks of the tasks.
Every switched-out task has its context on a stack of its own. As long as the stacks and the
control blocks lie apart, what is written to a register of one task leaves the registers of
all others as they were, also where the context moves with its stack pointer.
-/
namespace V5gdb

open ByteMemory LittleEndian RecordLayouts

namespace FreeRtosSystem

structure Stack where
  base : Addr
  length : ℕ

def Stack.Holds (stack : Stack) (x : Addr) : Prop := Within stack.base stack.length x

structure Apart (stack : TaskStatus → Stack) (tasks : List TaskStatus) : Prop where
  control : ∀ task ∈ tasks, ∀ task' ∈ tasks, ∀ x, (stack task).Holds x → ¬Within task'.xHandle 4 x
  owned : ∀ task ∈ tasks, ∀ task' ∈ tasks, task ≠ task' → ∀ x, (stack task).Holds x →
    ¬(stack task').Holds x
  handles : ∀ task ∈ tasks, ∀ task' ∈ tasks, task ≠ task' →
    Disjoint task.xHandle 4 task'.xHandle 4

structure OnStack (s : FreeRtosSystem) (stack : Stack) (task : TaskStatus) : Prop where
  saved : s.Saved task.xTaskNumber task
  inside : ∀ x, Within (s.stackPtr task) SavedTaskContextFPU.size x → stack.Holds x

variable {s s' : FreeRtosSystem} {tid : BitVec 32} {task task' : TaskStatus} {id : ArmRegisterID}
  {v : SavedRegister} {stack : TaskStatus → Stack} {tasks : List TaskStatus}

/-- A write to a register changes the context and, for the stack pointer, the control block. -/
theorem Saved.writeSingleRegister_frame (h : s.Saved tid task) (hv : Admissible task id v)
    (hwrite : s.writeSingleRegister tid id v = .ok s') :
    s'.tasks = s.tasks ∧
      ∀ x, ¬Within (s.stackPtr task) SavedTaskContextFPU.size x →
        ¬Within (s'.stackPtr task) SavedTaskContextFPU.size x → ¬Within task.xHandle 4 x →
          s'.memory x = s.memory x := by
  have hsize : SavedTaskContextFPU.size = 332 := rfl
  obtain ⟨hid, hwidth, hvalid⟩ := hv
  obtain ⟨_, hhigh, _⟩ := slot_bounds hid
  have hstored : ∀ vs : List (BitVec 32), 4 * vs.length = slotSize id →
      s' = { s with
        memory := storeWords s.memory (s.stackPtr task + BitVec.ofNat 32 (slot id)) vs } →
      s'.tasks = s.tasks ∧ ∀ x, ¬Within (s.stackPtr task) SavedTaskContextFPU.size x →
        s'.memory x = s.memory x := by
    intro vs hlen hs'
    subst hs'
    refine ⟨rfl, fun x hx => ?_⟩
    apply storeWords_of_not_within s.memory (by omega)
    exact fun hin => hx (hin.of_add (by omega) (by omega))
  have hword : ∀ x : BitVec 32, slotSize id = 4 →
      s.setField (s.stackPtr task) (slot id) x = s' →
      s'.tasks = s.tasks ∧ ∀ x, ¬Within (s.stackPtr task) SavedTaskContextFPU.size x →
        s'.memory x = s.memory x := by
    intro x hfour hs'
    exact hstored [x] hfour.symm hs'.symm
  simp only [FreeRtosSystem.writeSingleRegister, h.lookup, h.savedContext, bind, Except.bind]
    at hwrite
  cases id with
  | sp =>
    obtain ⟨sp, rfl⟩ := hwidth
    have hsp := hvalid sp rfl rfl
    have hmoved : s.setSp task sp true = .ok s' := hwrite
    have hnew : s'.stackPtr task = sp - BitVec.ofNat 32 SavedTaskContextFPU.size := by
      rw [← SavedRegister.u32.inj (h.wrote_of_move hsp hmoved).self, BitVec.add_sub_cancel]
    rw [h.setSp hsp, if_pos rfl] at hmoved
    rw [hnew, ← Except.ok.inj hmoved]
    refine ⟨rfl, fun x _ hplace hcontrol => ?_⟩
    exact (copy_of_not_within _ hplace).trans (storeWord_of_not_within _ _ hcontrol)
  | gpr i =>
    obtain ⟨x, rfl⟩ := hwidth
    have hi : i.toNat < 13 := hid
    simp only [SavedRegister.unwrapU32, hi, if_true] at hwrite
    obtain ⟨htasks, hmem⟩ := hword x rfl (Except.ok.inj hwrite)
    exact ⟨htasks, fun x hx _ _ => hmem x hx⟩
  | fpr i =>
    obtain ⟨x, rfl⟩ := hwidth
    have hi : i.toNat < 32 := hid
    have hpair : s.setPairField (s.stackPtr task) (slot (.fpr i)) x = s' := by
      by_cases hupper : 16 ≤ i.toNat
      · have hlow : i.toNat - 16 < 16 := by omega
        simp only [SavedRegister.unwrapU64, hupper, hlow, if_true] at hwrite
        simp only [slot, hupper, if_true]
        exact Except.ok.inj hwrite
      · simp only [SavedRegister.unwrapU64, hupper, if_false] at hwrite
        simp only [slot, hupper, if_false]
        exact Except.ok.inj hwrite
    obtain ⟨htasks, hmem⟩ := hstored (pairWords x) rfl hpair.symm
    exact ⟨htasks, fun x hx _ _ => hmem x hx⟩
  | lr | pc | cpsr | fpscr =>
    obtain ⟨x, rfl⟩ := hwidth
    obtain ⟨htasks, hmem⟩ := hword x rfl (Except.ok.inj hwrite)
    exact ⟨htasks, fun x hx _ _ => hmem x hx⟩

/-- What a task's registers depend on. -/
theorem OnStack.congr {st : Stack} (h : s.OnStack st task) (htasks : s'.tasks = s.tasks)
    (hmem : ∀ x, st.Holds x ∨ Within task.xHandle 4 x → s'.memory x = s.memory x) :
    s'.OnStack st task ∧ ∀ id, Exists id → s'.value task id = s.value task id := by
  have hsize : SavedTaskContextFPU.size = 332 := rfl
  have hptr : s'.stackPtr task = s.stackPtr task :=
    loadWord_congr (by omega) fun x hx => hmem x (.inr hx)
  have hfield : ∀ o, o + 4 ≤ SavedTaskContextFPU.size →
      s'.field (s'.stackPtr task) o = s.field (s.stackPtr task) o := by
    intro o ho
    rw [hptr]
    exact loadWord_congr (by omega) fun x hx =>
      hmem x (.inl (h.inside x (hx.of_add (by omega) ho)))
  constructor
  · constructor
    · apply h.saved.of_flag htasks
      · rw [hfield _ (by decide)]
        exact h.saved.fpu
      · rw [hptr]
        exact h.saved.fits
      · rw [hptr]
        exact h.saved.apart
    · rw [hptr]
      exact h.inside
  · intro id hid
    obtain ⟨_, hhigh, _⟩ := slot_bounds hid
    exact value_congr hid (fun _ => hptr) fun o _ ho => hfield o (by omega)

structure Laid (s : FreeRtosSystem) (stack : TaskStatus → Stack) (tasks : List TaskStatus) :
    Prop where
  apart : Apart stack tasks
  placed : ∀ task ∈ tasks, s.OnStack (stack task) task

/-- Outside the stacks and the control blocks of these tasks, everything is as it was. -/
structure Keeps (s s' : FreeRtosSystem) (stack : TaskStatus → Stack) (tasks : List TaskStatus) :
    Prop where
  known : s'.tasks = s.tasks
  memory : ∀ x, (∀ task ∈ tasks, ¬(stack task).Holds x ∧ ¬Within task.xHandle 4 x) →
    s'.memory x = s.memory x

theorem Keeps.refl (s : FreeRtosSystem) : s.Keeps s stack tasks := ⟨rfl, fun _ _ => rfl⟩

/-- A write on the stack and in the control block of one task reaches no other one. -/
theorem Laid.of_write (h : s.Laid stack tasks) (htask : task ∈ tasks)
    (hknown : s'.tasks = s.tasks) (hplaced : s'.OnStack (stack task) task)
    (hframe : ∀ x, ¬(stack task).Holds x → ¬Within task.xHandle 4 x → s'.memory x = s.memory x) :
    s'.Laid stack tasks ∧ s.Keeps s' stack tasks ∧
      ∀ task' ∈ tasks, task' ≠ task → ∀ id, Exists id → s'.value task' id = s.value task' id := by
  have hothers : ∀ task' ∈ tasks, task' ≠ task → s'.OnStack (stack task') task' ∧
      ∀ id, Exists id → s'.value task' id = s.value task' id := by
    intro task' htask' hne
    apply (h.placed task' htask').congr hknown
    intro x hx
    apply hframe x
    · intro hin
      rcases hx with hx | hx
      · exact h.apart.owned task' htask' task htask hne x hx hin
      · exact h.apart.control task htask task' htask' x hin hx
    · intro hin
      rcases hx with hx | hx
      · exact h.apart.control task' htask' task htask x hx hin
      · exact h.apart.handles task' htask' task htask hne x hx hin
  refine ⟨⟨h.apart, ?_⟩, ⟨hknown, ?_⟩, fun task' htask' hne => (hothers task' htask' hne).2⟩
  · intro task' htask'
    by_cases hsame : task' = task
    · rwa [hsame]
    · exact (hothers task' htask' hsame).1
  · intro x hx
    obtain ⟨hout, hcontrol⟩ := hx task htask
    exact hframe x hout hcontrol

structure FitsStack (st : Stack) (sp : BitVec 32) : Prop where
  room : SavedTaskContextFPU.size ≤ sp.toNat
  inside : ∀ x,
    Within (sp - BitVec.ofNat 32 SavedTaskContextFPU.size) SavedTaskContextFPU.size x →
      st.Holds x

/-- A write to a register of a task is a write to no other register of any task. -/
theorem Laid.writeSingleRegister (h : s.Laid stack tasks) (htask : task ∈ tasks)
    (hid : Exists id) (hwidth : HasWidth id v)
    (hsp : ∀ sp, id = .sp → v = .u32 sp → FitsStack (stack task) sp) :
    ∃ s', s.writeSingleRegister task.xTaskNumber id v = .ok s' ∧ s'.Laid stack tasks ∧
      s.Keeps s' stack tasks ∧ s'.value task id = v ∧
      ∀ task' ∈ tasks, ∀ id', Exists id' → (task' ≠ task ∨ id' ≠ id) →
        s'.value task' id' = s.value task' id' := by
  have hplaced := h.placed task htask
  have hvalid : Admissible task id v := by
    refine ⟨hid, hwidth, ?_⟩
    intro sp hsp' hv
    have hfits := hsp sp hsp' hv
    exact ⟨hfits.room, fun x hx => h.apart.control task htask task htask x (hfits.inside x hx)⟩
  obtain ⟨s', hwrite, hwrote⟩ := hplaced.saved.writeSingleRegister hvalid
  obtain ⟨htasks, hframe⟩ := hplaced.saved.writeSingleRegister_frame hvalid hwrite
  have hinside : ∀ x, Within (s'.stackPtr task) SavedTaskContextFPU.size x →
      (stack task).Holds x := by
    by_cases hmoved : id = .sp
    · subst hmoved
      obtain ⟨sp, rfl⟩ := hwidth
      have hnew := SavedRegister.u32.inj hwrote.self
      have hptr : s'.stackPtr task = sp - BitVec.ofNat 32 SavedTaskContextFPU.size := by
        rw [← hnew, BitVec.add_sub_cancel]
      rw [hptr]
      exact (hsp sp rfl rfl).inside
    · have hkept := SavedRegister.u32.inj (hwrote.other .sp trivial (Ne.symm hmoved))
      rw [add_right_cancel hkept]
      exact hplaced.inside
  have hstack : ∀ x, ¬(stack task).Holds x → ¬Within task.xHandle 4 x →
      s'.memory x = s.memory x := by
    intro x hout hcontrol
    apply hframe x _ _ hcontrol
    · exact fun hin => hout (hplaced.inside x hin)
    · exact fun hin => hout (hinside x hin)
  obtain ⟨hlaid, hkeeps, hothers⟩ := h.of_write htask htasks ⟨hwrote.saved, hinside⟩ hstack
  refine ⟨s', hwrite, hlaid, hkeeps, hwrote.self, ?_⟩
  intro task' htask' id' hid' hne
  by_cases hsame : task' = task
  · rw [hsame]
    exact hwrote.other id' hid' (hne.resolve_left (fun h => h hsame))
  · exact hothers task' htask' hsame id' hid'

end FreeRtosSystem
end V5gdb
