import V5gdb.ThreadViews

/-!
What GDB sees of the threads.
All answers together show one view of them: a fixed list, fixed names, and a file of registers.
-/
namespace V5gdb

open ByteMemory LittleEndian RecordLayouts

namespace ThreadRegisters

variable {s s' : ThreadRegisters} {pcTaskName : TaskStatus → Addr}
  {stack : TaskStatus → FreeRtosSystem.Stack} {v : ThreadView} {r : ThreadRequest}
  {tid : BitVec 32} {id : ArmRegisterID} {answer : Except TargetError ThreadAnswer}

/-- Requests that change nothing. -/
theorem serves_of_unchanged (hready : s.Ready pcTaskName stack) (h : s.Shows pcTaskName v)
    (hrequest : s.request pcTaskName r = .ok (s, answer)) (hanswer : v.Answers r answer)
    (hafter : v.after r = v) : s.Serves pcTaskName stack v r :=
  ⟨s, answer, hrequest, hanswer, hready, by rwa [hafter]⟩

theorem threadExtraInfo_eq (s : ThreadRegisters) (pcTaskName : TaskStatus → Addr)
    (tid : BitVec 32) (buf : Bytes) :
    s.threadExtraInfo pcTaskName tid buf =
      ((s.nameOf pcTaskName tid).take buf.length ++ buf.drop (s.nameOf pcTaskName tid).length,
        min (s.nameOf pcTaskName tid).length buf.length) := by
  unfold threadExtraInfo FreeRtosSystem.readThreadName nameOf
  cases hfind : s.system.tasks.find? fun task => task.xTaskNumber = tid with
  | none => simp
  | some task =>
    simp only
    obtain ⟨name, hname⟩ : ∃ name, name = cStrAt s.system.memory (pcTaskName task) := ⟨_, rfl⟩
    rw [← hname]
    by_cases hfits : name.length ≤ buf.length
    · rw [Nat.min_eq_left hfits, List.take_of_length_le hfits, List.take_length]
    · have hlong : buf.length ≤ name.length := by omega
      rw [Nat.min_eq_right hlong, List.drop_length, List.drop_of_length_le hlong]

theorem serves_listActiveThreads (hready : s.Ready pcTaskName stack)
    (h : s.Shows pcTaskName v) : s.Serves pcTaskName stack v .listActiveThreads := by
  have hids : s.system.allThreads = some v.ids := by
    rw [hready.numbered.allThreads, ← h.ids]
    rfl
  have hrequest : s.request pcTaskName .listActiveThreads = .ok (s, .ok (.threads v.ids)) := by
    simp only [request, hids]
  exact serves_of_unchanged hready h hrequest rfl rfl

theorem serves_isThreadAlive (hready : s.Ready pcTaskName stack) (h : s.Shows pcTaskName v)
    (tid : BitVec 32) : s.Serves pcTaskName stack v (.isThreadAlive tid) := by
  have halive : s.system.threadExists tid = decide (tid ∈ v.ids) := by
    rw [hready.numbered.threadExists, ← h.ids]
    rfl
  have hrequest : s.request pcTaskName (.isThreadAlive tid) =
      .ok (s, .ok (.alive (decide (tid ∈ v.ids)))) := by
    simp only [request, halive]
  exact serves_of_unchanged hready h hrequest rfl rfl

theorem serves_threadExtraInfo (hready : s.Ready pcTaskName stack) (h : s.Shows pcTaskName v)
    (tid : BitVec 32) (buf : Bytes) :
    s.Serves pcTaskName stack v (.threadExtraInfo tid buf) := by
  have hinfo := s.threadExtraInfo_eq pcTaskName tid buf
  rw [h.name] at hinfo
  have hrequest : s.request pcTaskName (.threadExtraInfo tid buf) =
      .ok (s, .ok (.extraInfo ((v.name tid).take buf.length ++ buf.drop (v.name tid).length)
        (min (v.name tid).length buf.length))) := by
    simp only [request, hinfo]
  exact serves_of_unchanged hready h hrequest rfl rfl

theorem serves_readRegisters (hready : s.Ready pcTaskName stack) (h : s.Shows pcTaskName v)
    (tid : BitVec 32) : s.Serves pcTaskName stack v (.readRegisters tid) := by
  by_cases hreach : v.Reaches tid
  · obtain ⟨regs, hread, hvalue⟩ := exists_record hready.laid ((h.reaches_iff tid).mp hreach)
    have hrequest : s.request pcTaskName (.readRegisters tid) =
        .ok (s, .ok (.registers regs)) := by
      simp only [request, hread]
      rfl
    apply serves_of_unchanged hready h hrequest _ rfl
    simp only [ThreadView.Answers, if_pos hreach]
    refine ⟨regs, rfl, ?_⟩
    intro id hid
    exact (hvalue id hid).unique (h.register tid hreach id hid)
  · obtain ⟨hother, hlookup⟩ := h.absent hreach
    have hrequest : s.request pcTaskName (.readRegisters tid) =
        .ok (s, .error (.errno einval)) := by
      simp only [request, readRegisters, if_neg hother, FreeRtosSystem.readRegisters, hlookup,
        bind, Except.bind]
      rfl
    apply serves_of_unchanged hready h hrequest _ rfl
    simp only [ThreadView.Answers, if_neg hreach]

theorem serves_readRegister (hready : s.Ready pcTaskName stack) (h : s.Shows pcTaskName v)
    {buf : Bytes} (hpermits : s.Permits stack (.readRegister tid id buf)) :
    s.Serves pcTaskName stack v (.readRegister tid id buf) := by
  by_cases hreach : v.Reaches tid
  · obtain ⟨hid, hlen⟩ := hpermits ((h.reaches_iff tid).mp hreach)
    have hread := h.register tid hreach id hid buf hlen
    have hrequest : s.request pcTaskName (.readRegister tid id buf) =
        .ok (s, .ok (.register (v.register tid id) id.size)) := by
      simp only [request, hread]
      rfl
    apply serves_of_unchanged hready h hrequest _ rfl
    simp only [ThreadView.Answers, if_pos hreach]
  · obtain ⟨hother, hlookup⟩ := h.absent hreach
    have hrequest : s.request pcTaskName (.readRegister tid id buf) =
        .ok (s, .error (.errno einval)) := by
      simp only [request, readRegister, if_neg hother, FreeRtosSystem.readSingleRegister, hlookup,
        bind, Except.bind]
      rfl
    apply serves_of_unchanged hready h hrequest _ rfl
    simp only [ThreadView.Answers, if_neg hreach]

theorem serves_writeRegister (hready : s.Ready pcTaskName stack) (h : s.Shows pcTaskName v)
    {w : RegisterWrite} (hpermits : s.Permits stack (.writeRegister w)) :
    s.Serves pcTaskName stack v (.writeRegister w) := by
  by_cases hreach : v.Reaches w.tid
  · have hallows := hpermits ((h.reaches_iff w.tid).mp hreach)
    obtain ⟨s', hwrite, hcurrent, hlaid, hkeeps, hself, hothers⟩ :=
      writeRegister_spec hready.laid hallows
    refine ⟨s', .ok .written, ?_, ?_, ?_⟩
    · simp only [request, hwrite]
      rfl
    · simp only [ThreadView.Answers, if_pos hreach]
    · simp only [ThreadView.after, if_pos hreach]
      apply h.of_keeps hready hcurrent hlaid hkeeps rfl
      intro tid htid id hid
      by_cases hsame : w.tid = tid ∧ w.regId = id
      · simp only [if_pos hsame]
        rwa [← hsame.1, ← hsame.2]
      · simp only [if_neg hsame]
        exact hothers tid id _ ((h.reaches_iff tid).mp htid) hid hsame
          (h.register tid htid id hid)
  · obtain ⟨hother, hlookup⟩ := h.absent hreach
    have hafter : v.after (.writeRegister w) = v := if_neg hreach
    cases hval : SavedRegister.fromLeBytes w.val with
    | none =>
      have hodd := (SavedRegister.fromLeBytes_eq_none_iff w.val).mp hval
      have hrequest : s.request pcTaskName (.writeRegister w) = .ok (s, .error .nonFatal) := by
        simp only [request, writeRegister, if_neg hother, hval]
        rfl
      apply serves_of_unchanged hready h hrequest _ hafter
      simp only [ThreadView.Answers, if_neg hreach]
      rw [if_neg (by omega)]
    | some reg =>
      have hlen : w.val.length = 4 ∨ w.val.length = 8 := by
        by_contra hodd
        rw [(SavedRegister.fromLeBytes_eq_none_iff w.val).mpr (not_or.mp hodd)] at hval
        cases hval
      have hrequest : s.request pcTaskName (.writeRegister w) =
          .ok (s, .error (.errno einval)) := by
        simp only [request, writeRegister_of_task _ hother hval,
          FreeRtosSystem.writeSingleRegister, hlookup, bind, Except.bind]
        rfl
      apply serves_of_unchanged hready h hrequest _ hafter
      simp only [ThreadView.Answers, if_neg hreach, if_pos hlen]

/-- All registers of the stopped thread are replaced. -/
theorem serves_writeRegisters_current (hready : s.Ready pcTaskName stack)
    (h : s.Shows pcTaskName v) (regs : DebugEventContext) (hcurrent : tid = s.currentThread) :
    s.Serves pcTaskName stack v (.writeRegisters tid regs) := by
  have hreach : v.Reaches tid := .inl (hcurrent.trans h.current)
  let s' : ThreadRegisters := { s with exceptionCtx := regs }
  refine ⟨s', .ok .written, ?_, ?_, ?_⟩
  · simp only [request, writeRegisters, if_pos hcurrent]
    rfl
  · simp only [ThreadView.Answers, if_pos hreach]
  · simp only [ThreadView.after, if_pos hreach]
    have hstopped : s'.currentThread = s.currentThread := rfl
    apply h.of_keeps hready hstopped hready.laid (.refl s.system) rfl
    intro tid' htid' id hid
    by_cases hsame : tid = tid'
    · obtain ⟨r, hr, hsize⟩ := exists_contextReg hid
      simp only [if_pos hsame, recordValue_toBytes hr]
      exact @reads_current s' tid' id r hr hsize (hsame.symm.trans hcurrent)
    · simp only [if_neg hsame]
      have hother : tid' ≠ s.currentThread := fun heq => hsame (hcurrent.trans heq.symm)
      exact (h.register tid' htid' id hid).of_context hother regs

theorem serves_writeRegisters (hready : s.Ready pcTaskName stack) (h : s.Shows pcTaskName v)
    {regs : DebugEventContext} (hpermits : s.Permits stack (.writeRegisters tid regs)) :
    s.Serves pcTaskName stack v (.writeRegisters tid regs) := by
  by_cases hcurrent : tid = s.currentThread
  · exact serves_writeRegisters_current hready h regs hcurrent
  by_cases hreach : v.Reaches tid
  · obtain ⟨task, htask, hnumber⟩ := ((h.reaches_iff tid).mp hreach).resolve_left hcurrent
    obtain ⟨hfits, hflag⟩ := hpermits hcurrent task htask hnumber
    obtain ⟨system, hwrite, hlaid, hkeeps, hself, hothers⟩ :=
      hready.laid.writeRegisters htask hfits hflag
    rw [hnumber] at hwrite
    let s' : ThreadRegisters := { s with system }
    refine ⟨s', .ok .written, ?_, ?_, ?_⟩
    · simp only [request, writeRegisters, if_neg hcurrent, hwrite]
      rfl
    · simp only [ThreadView.Answers, if_pos hreach]
    · simp only [ThreadView.after, if_pos hreach]
      have hthread : s'.currentThread = s.currentThread := rfl
      apply h.of_keeps hready hthread hlaid hkeeps rfl
      intro tid' htid' id hid
      by_cases hstopped : tid' = s.currentThread
      · have hne : tid ≠ tid' := fun heq => hcurrent (heq.trans hstopped)
        simp only [if_neg hne]
        exact (h.register tid' htid' id hid).of_system hstopped system
      · obtain ⟨task', htask', hnumber'⟩ :=
          ((h.reaches_iff tid').mp htid').resolve_left hstopped
        subst hnumber'
        have hreads := @reads_task s' id task' _ (hlaid.placed task' htask') hid hstopped
        by_cases hsame : tid = task'.xTaskNumber
        · have htasks : task' = task := by
            have hmem := List.mem_of_mem_filter htask
            have hmem' := List.mem_of_mem_filter htask'
            exact List.inj_on_of_nodup_map hready.numbered.nodup hmem' hmem
              (hsame.symm.trans hnumber.symm)
          simp only [if_pos hsame, ← hself id hid]
          rwa [htasks] at hreads ⊢
        · simp only [if_neg hsame]
          have hne : task' ≠ task := by
            intro heq
            exact hsame (by rw [heq, hnumber])
          have hold := (h.register _ htid' id hid).unique
            (reads_task (hready.laid.placed task' htask') hid hstopped)
          rw [hold, ← hothers task' htask' hne id hid]
          exact hreads
  · obtain ⟨_, hlookup⟩ := h.absent hreach
    have hrequest : s.request pcTaskName (.writeRegisters tid regs) =
        .ok (s, .error (.errno einval)) := by
      simp only [request, writeRegisters, if_neg hcurrent, FreeRtosSystem.writeRegisters, hlookup,
        bind, Except.bind]
      rfl
    apply serves_of_unchanged hready h hrequest _ (if_neg hreach)
    simp only [ThreadView.Answers, if_neg hreach]

/-- Every request is served, also about threads that are gone or never were there. -/
theorem serves (hready : s.Ready pcTaskName stack) (h : s.Shows pcTaskName v)
    (hpermits : s.Permits stack r) : s.Serves pcTaskName stack v r := by
  cases r with
  | listActiveThreads => exact serves_listActiveThreads hready h
  | isThreadAlive tid => exact serves_isThreadAlive hready h tid
  | threadExtraInfo tid buf => exact serves_threadExtraInfo hready h tid buf
  | readRegisters tid => exact serves_readRegisters hready h tid
  | writeRegisters tid regs => exact serves_writeRegisters hready h hpermits
  | readRegister tid id buf => exact serves_readRegister hready h hpermits
  | writeRegister w => exact serves_writeRegister hready h hpermits

theorem serves_each {requests : List ThreadRequest} (hready : s.Ready pcTaskName stack)
    (h : s.Shows pcTaskName v) (hpermits : s.PermitsEach pcTaskName stack requests) :
    ∃ s' answers, s.requestEach pcTaskName requests = .ok (s', answers) ∧
      v.AnswersEach requests answers ∧ s'.Shows pcTaskName (v.afterEach requests) := by
  induction requests generalizing s v with
  | nil => exact ⟨s, [], rfl, rfl, h⟩
  | cons r requests ih =>
    obtain ⟨hfirst, hrest⟩ := hpermits
    obtain ⟨s₁, answer, hrequest, hanswer, hready₁, h₁⟩ := serves hready h hfirst
    obtain ⟨s', answers, hrun, hanswers, h'⟩ := ih hready₁ h₁ (hrest s₁ answer hrequest)
    refine ⟨s', answer :: answers, ?_, ⟨answer, answers, rfl, hanswer, hanswers⟩, h'⟩
    simp only [requestEach, hrequest, hrun, bind, Except.bind]
    rfl

theorem exists_shows (hready : s.Ready pcTaskName stack) : ∃ v, s.Shows pcTaskName v := by
  have hreads : ∀ tid id, ∃ bytes, s.Covers s.otherTasks tid → FreeRtosSystem.Exists id →
      s.Reads tid id bytes := by
    intro tid id
    by_cases hboth : s.Covers s.otherTasks tid ∧ FreeRtosSystem.Exists id
    · obtain ⟨bytes, hbytes⟩ := exists_reads hready.laid hboth.1 hboth.2
      exact ⟨bytes, fun _ _ => hbytes⟩
    · exact ⟨[], fun hcovers hid => absurd ⟨hcovers, hid⟩ hboth⟩
  choose register hregister using hreads
  let blank : ThreadView := ⟨s.listed, s.currentThread, s.nameOf pcTaskName, fun _ _ => []⟩
  refine ⟨{ blank with register }, rfl, rfl, fun _ => rfl, ?_⟩
  intro tid hreach id hid
  apply hregister tid id _ hid
  by_cases hcurrent : tid = s.currentThread
  · exact .inl hcurrent
  · obtain ⟨task, hmem, hnumber⟩ := List.mem_map.mp (hreach.resolve_left hcurrent)
    obtain ⟨htask, halive⟩ := List.mem_filter.mp hmem
    refine .inr ⟨task, List.mem_filter.mpr ⟨htask, ?_⟩, hnumber⟩
    rw [decide_eq_true_iff] at halive ⊢
    exact ⟨halive, by rwa [hnumber]⟩

/-- In every stop there is a view that all requests are answered from, whatever threads they are
about, and that is changed by accepted writes to registers alone. It lists each thread once. The
stopped thread is on the list unless the scheduler has more tasks than a scan can hold; then
nothing is, and only the registers of the stopped thread can be reached. -/
theorem requests_show_view (s : ThreadRegisters) (pcTaskName : TaskStatus → Addr)
    (stack : TaskStatus → FreeRtosSystem.Stack) (known : List TaskStatus)
    (hscan : s.system.tasks = FreeRtosSystem.scanTasks known)
    (hnumbered : FreeRtosSystem.Numbered known s.currentThread)
    (hcurrent : ∃ task ∈ known, task.xTaskNumber = s.currentThread ∧
      task.eCurrentState = .RUNNING)
    (hapart : FreeRtosSystem.Apart stack s.otherTasks)
    (hstacks : ∀ task ∈ s.otherTasks, s.system.SwitchedOut (stack task) task)
    (hnames : s.NamesApart pcTaskName stack) :
    ∃ v, s.Shows pcTaskName v ∧ v.ids.Nodup ∧ (v.current ∈ v.ids ↔ known.length ≤ 128) ∧
      ∀ requests, s.PermitsEach pcTaskName stack requests →
        ∃ s' answers, s.requestEach pcTaskName requests = .ok (s', answers) ∧
          v.AnswersEach requests answers ∧ s'.Shows pcTaskName (v.afterEach requests) := by
  have hsub : s.system.tasks.Sublist known := by
    rw [hscan, FreeRtosSystem.scanTasks]
    split_ifs
    · exact List.Sublist.refl known
    · exact List.nil_sublist known
  have htasks : FreeRtosSystem.Numbered s.system.tasks s.currentThread :=
    ⟨hnumbered.nodup.sublist (hsub.map _),
      fun task htask => hnumbered.nonzero task (hsub.mem htask),
      fun task htask => hnumbered.running task (hsub.mem htask)⟩
  have hothers : ∀ task ∈ s.otherTasks, task ∈ s.system.tasks ∧
      task.eCurrentState ≠ .DELETED ∧ task.xTaskNumber ≠ s.currentThread := by
    intro task htask
    obtain ⟨hmem, hother⟩ := List.mem_filter.mp htask
    exact ⟨hmem, of_decide_eq_true hother⟩
  have hready : s.Ready pcTaskName stack :=
    ⟨htasks, FreeRtosSystem.laid_of_switchedOut htasks hapart hothers hstacks, hnames⟩
  obtain ⟨v, h⟩ := exists_shows hready
  refine ⟨v, h, ?_, ?_, fun requests hpermits => serves_each hready h hpermits⟩
  · rw [← h.ids]
    exact htasks.nodup.sublist (List.filter_sublist.map _)
  · rw [← h.current, ← h.ids]
    simp only [listed, List.mem_map, List.mem_filter, hscan, FreeRtosSystem.scanTasks]
    split_ifs with hlen
    · simp only [hlen, iff_true]
      obtain ⟨task, htask, hnumber, hrunning⟩ := hcurrent
      exact ⟨task, ⟨htask, by rw [hrunning]; decide⟩, hnumber⟩
    · simp [hlen]

/-- Thread 5 is stopped, task 1 is switched out, and task 4 was deleted. Task 1 is named `a`. -/
def oneDeleted : ThreadRegisters where
  exceptionCtx := ⟨⟨0x1f⟩, 0, 0, 0, fun _ => 0, fun _ => 0, 0⟩
  system :=
    { tasks := [⟨0x300, 5, .RUNNING⟩, ⟨0x100, 1, .READY⟩, ⟨0x400, 4, .DELETED⟩]
      memory := fun x => if x = 0x134 then 0x61 else
        storeWord (storeWord (fun _ => 0) 0x100 0x1100) 0x1100 1 x }
  currentThread := 5

theorem oneDeleted_names :
    oneDeleted.NamesApart (fun task => task.xHandle + 0x34) (fun _ => ⟨0x1000, 0x1000⟩) := by
  have hothers : oneDeleted.otherTasks = [⟨0x100, 1, .READY⟩] := by decide
  unfold NamesApart FreeRtosSystem.Stack.Holds Within
  rw [hothers]
  decide

theorem oneDeleted_stacks : ∀ task ∈ oneDeleted.otherTasks,
    oneDeleted.system.SwitchedOut ⟨0x1000, 0x1000⟩ task := by
  have hothers : oneDeleted.otherTasks = [⟨0x100, 1, .READY⟩] := by decide
  rw [hothers, List.forall_mem_singleton]
  refine ⟨by decide, by decide, ?_⟩
  intro x hx
  have hptr : oneDeleted.system.stackPtr ⟨0x100, 1, .READY⟩ = 0x1100 := by decide
  rw [hptr] at hx
  exact @Within.of_add 32 0x1000 x 0x100 SavedTaskContextFPU.size 0x1000 (by decide) (by decide)
    hx

/-- A register of task 1 is written and read back; the deleted task is not listed, and a write to
one of its registers is refused. -/
theorem requests_show_view_of_deleted :
    ∃ s', oneDeleted.requestEach (fun task => task.xHandle + 0x34)
      [.listActiveThreads, .isThreadAlive 4, .threadExtraInfo 1 [0, 0],
        .writeRegister ⟨1, .gpr 0, [1, 2, 3, 4]⟩, .readRegister 1 (.gpr 0) [0, 0, 0, 0],
        .writeRegister ⟨4, .pc, [0, 0, 0, 0]⟩] =
      .ok (s', [.ok (.threads [5, 1]), .ok (.alive false), .ok (.extraInfo [0x61, 0] 1),
        .ok .written, .ok (.register [1, 2, 3, 4] 4), .error (.errno einval)]) := by
  have hzero : FreeRtosSystem.Exists (.gpr 0) := Nat.zero_lt_succ 12
  have hothers : oneDeleted.otherTasks = [⟨0x100, 1, .READY⟩] := by decide
  have hapart : FreeRtosSystem.Apart (fun _ => ⟨0x1000, 0x1000⟩) oneDeleted.otherTasks := by
    have hcontrol : InTurn 0x1000 0x100 0x1000 4 := by decide
    rw [hothers]
    constructor <;> simp only [List.forall_mem_singleton]
    · exact hcontrol.disjoint
    · exact fun h => absurd rfl h
    · exact fun h => absurd rfl h
  obtain ⟨⟨ids, current, name, register⟩, h, _, _, hserved⟩ := requests_show_view oneDeleted
    (fun task => task.xHandle + 0x34) (fun _ => ⟨0x1000, 0x1000⟩) oneDeleted.system.tasks rfl
    ⟨by decide, by decide, by decide⟩ ⟨⟨0x300, 5, .RUNNING⟩, by decide, rfl, rfl⟩
    hapart oneDeleted_stacks oneDeleted_names
  obtain ⟨s', answers, hrun, hanswers, _⟩ := hserved
    [.listActiveThreads, .isThreadAlive 4, .threadExtraInfo 1 [0, 0],
      .writeRegister ⟨1, .gpr 0, [1, 2, 3, 4]⟩, .readRegister 1 (.gpr 0) [0, 0, 0, 0],
      .writeRegister ⟨4, .pc, [0, 0, 0, 0]⟩]
    ⟨trivial, fun _ _ _ => ⟨trivial, fun _ _ _ => ⟨trivial, fun _ _ _ =>
      ⟨fun hcovers => ⟨hcovers, hzero, rfl, fun _ hsp => by cases hsp⟩, fun _ _ _ =>
        ⟨fun _ => ⟨hzero, rfl⟩, fun _ _ _ =>
          ⟨fun hcovers => ⟨hcovers, trivial, rfl, fun _ hsp => by cases hsp⟩,
            fun _ _ _ => trivial⟩⟩⟩⟩⟩⟩
  obtain rfl : [5, 1] = ids := h.ids
  obtain rfl : 5 = current := h.current
  have hname : [0x61] = name 1 := h.name 1
  have hone : ∀ register, (ThreadView.mk [5, 1] 5 name register).Reaches 1 :=
    fun _ => .inr (List.mem_cons_of_mem 5 (List.mem_singleton_self 1))
  have hfour : ∀ register, ¬(ThreadView.mk [5, 1] 5 name register).Reaches 4 := by
    simp [ThreadView.Reaches]
  simp only [ThreadView.AnswersEach, ThreadView.Answers, ThreadView.after, hone, hfour, ← hname,
    if_true, if_false] at hanswers
  obtain ⟨_, _, rfl, rfl, _, _, rfl, rfl, _, _, rfl, rfl, _, _, rfl, rfl, _, _, rfl, rfl, _, _,
    rfl, rfl, rfl⟩ := hanswers
  exact ⟨s', hrun⟩

end ThreadRegisters
end V5gdb
