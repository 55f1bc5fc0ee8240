import V5gdb.ArmState
import V5gdb.Context
import V5gdb.Transitions

/-!
The abort stack that all tasks share.
A debug event pushes the context of the running task as a frame and the restore
pops it again, in two parts: the status and the banked registers come off before
the scheduler is resumed, the general registers after that. The resume may
switch to another task, and the stack pointer and the saved status of abort mode
are not part of what a switch saves.
-/
namespace V5gdb

open Transitions ByteMemory

namespace DebugEventContext

/-- What the end of the restore pops. -/
def generalWords (c : DebugEventContext) : List (BitVec 32) :=
  c.fpscr :: ((List.finRange 32).flatMap (fun i => doubleWords (c.vfpRegisters i)) ++
    (List.finRange 13).map c.registers ++ [c.programCounter])

def frameWords (c : DebugEventContext) : List (BitVec 32) :=
  [c.cpsr.raw, c.stackPointer, c.linkRegister] ++ c.generalWords

theorem length_generalWords (c : DebugEventContext) : c.generalWords.length = 79 := by
  simp [generalWords, doubleWords]

theorem length_frameWords (c : DebugEventContext) : c.frameWords.length = 82 := by
  simp [frameWords, length_generalWords]

end DebugEventContext

inductive ActivationPhase
  | handling
  /-- inside `xTaskResumeAll` -/
  | resuming
  | leaving
  deriving DecidableEq, Repr

structure Activation where
  phase : ActivationPhase
  ctx : DebugEventContext
  /-- the status that is to be restored, as it was put into `SPSR_abt` -/
  status : BitVec 32
  /-- the abort stack under the event's frame -/
  below : List (BitVec 32)

/-- The part of the frame that is still on the stack. -/
def Activation.words (a : Activation) : List (BitVec 32) :=
  if a.phase = .handling then a.ctx.frameWords else a.ctx.generalWords

/-- The stack and the status are those of abort mode, of which the CPU has one;
the first word of the stack is its top. -/
structure Cpu (τ : Type*) where
  current : τ
  abortStack : List (BitVec 32)
  spsr : BitVec 32
  suspended : Bool
  /-- the innermost event first -/
  tasks : τ → List Activation

inductive CpuEvent (τ : Type*)
  | debugEvent (ctx : DebugEventContext)
  | handled (ctx : DebugEventContext) (unpause : Bool)
  | switch (t : τ)
  | resumed
  | exceptionReturn (words : List (BitVec 32)) (cpsr : BitVec 32)

namespace Cpu

variable {τ : Type*} [DecidableEq τ]

def setCurrent (s : Cpu τ) (as : List Activation) : τ → List Activation :=
  Function.update s.tasks s.current as

/-- The exception loads the status of the task into `SPSR_abt`, and the handler
suspends the scheduler. -/
def catchDebugEvent (s : Cpu τ) (ctx : DebugEventContext) : Cpu τ :=
  { s with
    abortStack := ctx.frameWords ++ s.abortStack
    spsr := ctx.cpsr.raw
    suspended := true
    tasks := s.setCurrent
      (⟨.handling, ctx, ctx.cpsr.raw, s.abortStack⟩ :: s.tasks s.current) }

/-- The handler writes the context into the frame where it lies, on top of the
stack. -/
def writeFrame (stack : List (BitVec 32)) (ctx : DebugEventContext) : List (BitVec 32) :=
  ctx.frameWords ++ stack.drop ctx.frameWords.length

/-- The first part of the restore: the status goes to `SPSR_abt`, in the fields that
`msr spsr` stands for, and the stack pointer and the link register to the banked
ones of the task. -/
def popStatus (fields : Arm.StatusFields) (s : Cpu τ) (a : Activation) (rest : List Activation)
    (ctx : DebugEventContext) (unpause : Bool) : Cpu τ :=
  let stack := writeFrame s.abortStack ctx
  let status := fields.merge s.spsr (stack.headD 0)
  { s with
    abortStack := stack.drop 3
    spsr := status
    suspended := if unpause then false else s.suspended
    tasks := s.setCurrent
      ({ a with ctx, status, phase := if unpause then .resuming else .leaving } :: rest) }

def popGeneral (s : Cpu τ) (rest : List Activation) : Cpu τ :=
  { s with abortStack := s.abortStack.drop 79, tasks := s.setCurrent rest }

/-- Outside of abort mode: in the task's own code or inside `xTaskResumeAll`. -/
def Interruptible (s : Cpu τ) : Prop :=
  ∀ a ∈ (s.tasks s.current).head?, a.phase = .resuming

inductive Step (fields : Arm.StatusFields) : Cpu τ → CpuEvent τ → Cpu τ → Prop
  | debugEvent (s : Cpu τ) (ctx : DebugEventContext) (hmode : s.Interruptible) :
      Step fields s (.debugEvent ctx) (s.catchDebugEvent ctx)
  | handled (s : Cpu τ) (ctx : DebugEventContext) (unpause : Bool) (a : Activation)
      (rest : List Activation) (htask : s.tasks s.current = a :: rest)
      (hphase : a.phase = .handling) :
      Step fields s (.handled ctx unpause) (s.popStatus fields a rest ctx unpause)
  | switch (s : Cpu τ) (t : τ) (hready : s.suspended = false) (hmode : s.Interruptible) :
      Step fields s (.switch t) { s with current := t }
  | resumed (s : Cpu τ) (a : Activation) (rest : List Activation)
      (htask : s.tasks s.current = a :: rest) (hphase : a.phase = .resuming) :
      Step fields s .resumed
        { s with tasks := s.setCurrent ({ a with phase := .leaving } :: rest) }
  | exceptionReturn (s : Cpu τ) (a : Activation) (rest : List Activation)
      (htask : s.tasks s.current = a :: rest) (hphase : a.phase = .leaving) :
      Step fields s (.exceptionReturn (s.abortStack.take 79) s.spsr) (s.popGeneral rest)

/-- An exception return from here pops the frame of the very event that it ends,
and loads the status that was restored for it. -/
def GetsOwnContext (fields : Arm.StatusFields) (s : Cpu τ) : Prop :=
  ∀ words cpsr s', Step fields s (.exceptionReturn words cpsr) s' →
    ∃ a rest, s.tasks s.current = a :: rest ∧ words = a.ctx.generalWords ∧
      cpsr = a.status ∧ s'.abortStack = a.below

/-- No debug event is taken while a task is inside `xTaskResumeAll`. -/
def OutsideWindows (s : Cpu τ) : CpuEvent τ → Prop
  | .debugEvent _ => ∀ t, ∀ a ∈ s.tasks t, a.phase ≠ .resuming
  | _ => True

def QuietStep (fields : Arm.StatusFields) (s : Cpu τ) (e : CpuEvent τ) (s' : Cpu τ) : Prop :=
  Step fields s e s' ∧ s.OutsideWindows e

def NoEvents (s : Cpu τ) : Prop := ∀ t, s.tasks t = []

variable {fields : Arm.StatusFields} {s s' s'' : Cpu τ} {e : CpuEvent τ}
  {es : List (CpuEvent τ)} {t : τ} {a : Activation}

@[simp] theorem setCurrent_self (s : Cpu τ) (as : List Activation) :
    s.setCurrent as s.current = as := by
  simp [setCurrent]

theorem setCurrent_of_ne {u : τ} (s : Cpu τ) (as : List Activation) (h : u ≠ s.current) :
    s.setCurrent as u = s.tasks u := by
  simp [setCurrent, h]

omit [DecidableEq τ] in
theorem interruptible_of_nil (h : s.tasks s.current = []) : s.Interruptible := by
  intro a ha
  rw [h] at ha
  cases ha

omit [DecidableEq τ] in
theorem interruptible_of_resuming {rest : List Activation} (htask : s.tasks s.current = a :: rest)
    (hphase : a.phase = .resuming) : s.Interruptible := by
  intro b hb
  rw [htask] at hb
  obtain rfl := Option.some.inj hb
  exact hphase

theorem writeFrame_top (stack rest : List (BitVec 32)) (ctx ctx' : DebugEventContext)
    (h : stack = ctx.frameWords ++ rest) : writeFrame stack ctx' = ctx'.frameWords ++ rest := by
  subst h
  have hlen : ctx'.frameWords.length = ctx.frameWords.length := by
    rw [DebugEventContext.length_frameWords, DebugEventContext.length_frameWords]
  rw [writeFrame, hlen, List.drop_left]

/-- What the first part of the restore leaves for the second. -/
theorem popStatus_stack {rest : List (BitVec 32)} {ctx : DebugEventContext}
    (h : s.abortStack = ctx.frameWords ++ rest) (a : Activation) (as : List Activation)
    (ctx' : DebugEventContext) (unpause : Bool) :
    (s.popStatus fields a as ctx' unpause).abortStack = ctx'.generalWords ++ rest ∧
      (s.popStatus fields a as ctx' unpause).spsr = fields.merge s.spsr ctx'.cpsr.raw := by
  have htop := writeFrame_top s.abortStack rest ctx ctx' h
  simp only [popStatus, htop]
  simp [DebugEventContext.frameWords]

structure Alone (s : Cpu τ) (t : τ) (a : Activation) : Prop where
  task : s.tasks t = [a]
  others : ∀ u, u ≠ t → s.tasks u = []
  stack : s.abortStack = a.words ++ a.below
  spsr : s.spsr = a.status
  current : a.phase ≠ .resuming → s.current = t

def Orderly (s : Cpu τ) : Prop := s.NoEvents ∨ ∃ t a, s.Alone t a

/-- The task that is out of its own code is the one with the event. -/
theorem Alone.of_current {a' : Activation} {rest : List Activation} (h : s.Alone t a)
    (htask : s.tasks s.current = a' :: rest) : s.current = t ∧ a' = a ∧ rest = [] := by
  have hcur : s.current = t := by
    by_contra hne
    rw [h.others _ hne] at htask
    cases htask
  rw [hcur, h.task] at htask
  obtain ⟨rfl, rfl⟩ := List.cons.inj htask
  exact ⟨hcur, rfl, rfl⟩

theorem Orderly.of_current {rest : List Activation} (h : s.Orderly)
    (htask : s.tasks s.current = a :: rest) : s.Alone s.current a ∧ rest = [] := by
  rcases h with hnone | ⟨t, b, halone⟩
  · rw [hnone] at htask
    cases htask
  · obtain ⟨rfl, rfl, rfl⟩ := halone.of_current htask
    exact ⟨halone, rfl⟩

theorem alone_catchDebugEvent (h : s.NoEvents) (ctx : DebugEventContext) :
    (s.catchDebugEvent ctx).Alone s.current ⟨.handling, ctx, ctx.cpsr.raw, s.abortStack⟩ where
  task := by simp [catchDebugEvent, h s.current]
  others := by
    intro u hu
    exact (setCurrent_of_ne s _ hu).trans (h u)
  stack := by simp [catchDebugEvent, Activation.words]
  spsr := rfl
  current := fun _ => rfl

theorem alone_popStatus (h : s.Alone s.current a) (hphase : a.phase = .handling)
    (ctx : DebugEventContext) (unpause : Bool) :
    (s.popStatus fields a [] ctx unpause).Alone s.current
      { a with
        ctx
        status := fields.merge s.spsr ctx.cpsr.raw
        phase := if unpause then .resuming else .leaving } := by
  have hframe : s.abortStack = a.ctx.frameWords ++ a.below := by
    rw [h.stack, Activation.words, if_pos hphase]
  obtain ⟨hstack, hspsr⟩ : (s.popStatus fields a [] ctx unpause).abortStack = _ ∧ _ :=
    popStatus_stack hframe a [] ctx unpause
  constructor
  case task =>
    have htop := writeFrame_top s.abortStack a.below a.ctx ctx hframe
    simp [popStatus, htop, DebugEventContext.frameWords]
  case others =>
    intro u hu
    exact (setCurrent_of_ne s _ hu).trans (h.others u hu)
  case stack =>
    rw [hstack, Activation.words, if_neg (by cases unpause <;> simp)]
  case spsr => exact hspsr
  case current => exact fun _ => rfl

theorem alone_resumed (h : s.Alone s.current a) (hphase : a.phase = .resuming) :
    Alone { s with tasks := s.setCurrent [{ a with phase := .leaving }] } s.current
      { a with phase := .leaving } := by
  constructor
  case task => simp
  case others =>
    intro u hu
    exact (setCurrent_of_ne s _ hu).trans (h.others u hu)
  case stack =>
    have hstack := h.stack
    rw [Activation.words, if_neg (by rw [hphase]; decide)] at hstack
    rw [Activation.words, if_neg (by simp)]
    exact hstack
  case spsr => exact h.spsr
  case current => exact fun _ => rfl

theorem noEvents_popGeneral (h : s.Alone s.current a) : (s.popGeneral []).NoEvents := by
  intro u
  by_cases hu : u = s.current
  · subst hu
    simp [popGeneral]
  · exact (setCurrent_of_ne s _ hu).trans (h.others u hu)

omit [DecidableEq τ] in
/-- The CPU leaves abort mode only for the resume. -/
theorem Alone.resuming_of_interruptible (h : s.Alone t a) (hmode : s.Interruptible) :
    a.phase = .resuming := by
  by_contra hphase
  have hcur := h.current hphase
  refine hphase (hmode a ?_)
  rw [hcur, h.task]
  rfl

omit [DecidableEq τ] in
theorem Alone.switch (h : s.Alone t a) (hmode : s.Interruptible) (u : τ) :
    Alone { s with current := u } t a where
  task := h.task
  others := h.others
  stack := h.stack
  spsr := h.spsr
  current := fun hphase => absurd (h.resuming_of_interruptible hmode) hphase

theorem Orderly.step (h : s.Orderly) (hstep : QuietStep fields s e s') : s'.Orderly := by
  obtain ⟨hstep, hquiet⟩ := hstep
  cases hstep with
  | debugEvent ctx hmode =>
    rcases h with hnone | ⟨t, a, halone⟩
    · exact .inr ⟨_, _, alone_catchDebugEvent hnone ctx⟩
    · have hmem : a ∈ s.tasks t := by
        rw [halone.task]
        exact List.mem_singleton_self a
      exact absurd (halone.resuming_of_interruptible hmode) (hquiet t a hmem)
  | handled ctx unpause a rest htask hphase =>
    obtain ⟨halone, rfl⟩ := h.of_current htask
    exact .inr ⟨_, _, alone_popStatus halone hphase ctx unpause⟩
  | switch t _ hmode =>
    rcases h with hnone | ⟨u, a, halone⟩
    · exact .inl hnone
    · exact .inr ⟨u, a, halone.switch hmode t⟩
  | resumed a rest htask hphase =>
    obtain ⟨halone, rfl⟩ := h.of_current htask
    exact .inr ⟨_, _, alone_resumed halone hphase⟩
  | exceptionReturn a rest htask =>
    obtain ⟨halone, rfl⟩ := h.of_current htask
    exact .inl (noEvents_popGeneral halone)

theorem orderly_of_run (h : s.NoEvents) (hrun : Run (QuietStep fields) s es s') : s'.Orderly :=
  hrun.invariant (P := fun _ t => t.Orderly) (.inl h) (fun _ _ _ _ ht hstep => ht.step hstep)

theorem Orderly.getsOwnContext (h : s.Orderly) : s.GetsOwnContext fields := by
  intro words cpsr s' hstep
  cases hstep with
  | exceptionReturn a rest htask hphase =>
    obtain ⟨halone, rfl⟩ := h.of_current htask
    have hstack : s.abortStack = a.ctx.generalWords ++ a.below := by
      rw [halone.stack, Activation.words, if_neg (by rw [hphase]; decide)]
    have hlen := a.ctx.length_generalWords
    refine ⟨a, [], htask, ?_, halone.spsr, ?_⟩
    · rw [hstack, ← hlen, List.take_left]
    · rw [popGeneral, hstack, ← hlen, List.drop_left]

/-- Some continuation ends where a restore gets a context that is not its own. -/
def LosesContext (fields : Arm.StatusFields) (s : Cpu τ) : Prop :=
  ∃ es s', Run (Step fields) s es s' ∧ ¬ s'.GetsOwnContext fields

theorem not_getsOwnContext {rest : List Activation} (htask : s.tasks s.current = a :: rest)
    (hphase : a.phase = .leaving) (hspsr : s.spsr ≠ a.status) : ¬ s.GetsOwnContext fields := by
  intro h
  obtain ⟨b, rest', htask', _, hcpsr, _⟩ := h _ _ _ (.exceptionReturn s a rest htask hphase)
  rw [htask] at htask'
  obtain ⟨rfl, rfl⟩ := List.cons.inj htask'
  exact hspsr hcpsr

/-- The task `t` has returned from the resume, and another event was the last to
write `SPSR_abt`. -/
structure Overwritten (s : Cpu τ) (t : τ) (a : Activation) (status : BitVec 32)
    (stack : List (BitVec 32)) : Prop where
  current : s.current = t
  task : s.tasks t = [{ a with phase := .leaving }]
  stack : s.abortStack = stack
  spsr : s.spsr = status

theorem Overwritten.not_getsOwnContext {status : BitVec 32} {stack : List (BitVec 32)}
    (h : s.Overwritten t a status stack) (hstatus : status ≠ a.status) :
    ¬ s.GetsOwnContext fields := by
  obtain ⟨rfl, htask, _, hspsr⟩ := h
  refine Cpu.not_getsOwnContext htask rfl ?_
  rw [hspsr]
  exact hstatus

/-- An event of another task, whose own resume switches back before that task has
popped the rest of its frame. -/
theorem Alone.overtaken (h : s.Alone t a) (hphase : a.phase = .resuming) (hne : s.current ≠ t)
    (ctx ctx' : DebugEventContext) :
    ∃ s', Run (Step fields) (s.catchDebugEvent ctx) [.handled ctx' true, .switch t, .resumed] s' ∧
      s'.Overwritten t a (fields.merge ctx.cpsr.raw ctx'.cpsr.raw)
        (ctx'.generalWords ++ s.abortStack) := by
  let event : Activation := ⟨.handling, ctx, ctx.cpsr.raw, s.abortStack⟩
  let resuming := (s.catchDebugEvent ctx).popStatus fields event [] ctx' true
  have hevent : (s.catchDebugEvent ctx).tasks s.current = [event] := by
    simp [catchDebugEvent, event, h.others _ hne]
  have htask : resuming.tasks t = [a] := by
    have hpop : resuming.tasks t = (s.catchDebugEvent ctx).tasks t :=
      setCurrent_of_ne (s.catchDebugEvent ctx) _ hne.symm
    have hcatch : (s.catchDebugEvent ctx).tasks t = s.tasks t := setCurrent_of_ne s _ hne.symm
    rw [hpop, hcatch, h.task]
  have hself : resuming.tasks resuming.current = [_] :=
    setCurrent_self (s.catchDebugEvent ctx) _
  have hmode := interruptible_of_resuming hself rfl
  obtain ⟨hstack, hspsr⟩ : resuming.abortStack = _ ∧ resuming.spsr = _ :=
    popStatus_stack rfl event [] ctx' true
  refine ⟨_, Run.cons (.handled _ ctx' true event [] hevent rfl)
    (Run.cons (.switch _ t rfl hmode) (Run.single (.resumed _ a [] htask hphase))), ?_⟩
  exact ⟨rfl, setCurrent_self { resuming with current := t } _, hstack, hspsr⟩

/-- An event of the very task that is inside the resume. -/
theorem Alone.nested (h : s.Alone t a) (hphase : a.phase = .resuming) (hcur : s.current = t)
    (ctx ctx' : DebugEventContext) :
    ∃ s', Run (Step fields) (s.catchDebugEvent ctx)
        [.handled ctx' false, .exceptionReturn ctx'.generalWords
          (fields.merge ctx.cpsr.raw ctx'.cpsr.raw), .resumed] s' ∧
      s'.Overwritten t a (fields.merge ctx.cpsr.raw ctx'.cpsr.raw) s.abortStack := by
  subst hcur
  let event : Activation := ⟨.handling, ctx, ctx.cpsr.raw, s.abortStack⟩
  let leaving := (s.catchDebugEvent ctx).popStatus fields event [a] ctx' false
  have hevent : (s.catchDebugEvent ctx).tasks s.current = [event, a] := by
    simp [catchDebugEvent, event, h.task]
  have hleaving : leaving.tasks leaving.current = [_, a] :=
    setCurrent_self (s.catchDebugEvent ctx) _
  obtain ⟨hstack, hspsr⟩ : leaving.abortStack = _ ∧ leaving.spsr = _ :=
    popStatus_stack rfl event [a] ctx' false
  have hhandled : Step fields (s.catchDebugEvent ctx) (.handled ctx' false) leaving :=
    .handled _ ctx' false event [a] hevent rfl
  have hcurrent : leaving.current = s.current := rfl
  have hstatus : (s.catchDebugEvent ctx).spsr = ctx.cpsr.raw := rfl
  rw [hstatus] at hspsr
  clear_value leaving
  have hwords : leaving.abortStack.take 79 = ctx'.generalWords := by
    rw [hstack, ← ctx'.length_generalWords, List.take_left]
  have hrest : leaving.abortStack.drop 79 = s.abortStack := by
    rw [hstack, ← ctx'.length_generalWords, List.drop_left]
  have hreturn : Step fields leaving _ _ := .exceptionReturn leaving _ _ hleaving rfl
  rw [hwords, hspsr] at hreturn
  refine ⟨_, Run.cons hhandled
    (Run.cons hreturn (Run.single (.resumed _ a [] (setCurrent_self leaving _) hphase))), ?_⟩
  rw [← hcurrent]
  exact ⟨rfl, setCurrent_self (leaving.popGeneral [a]) _, hrest, hspsr⟩

/-- Whoever takes an event inside a window can take the context of the task whose
window it is. -/
theorem Alone.losesContext (h : s.Alone t a) (hphase : a.phase = .resuming)
    (hfields : fields.control = true) (ctx : DebugEventContext) :
    (s.catchDebugEvent ctx).LosesContext fields := by
  let other : DebugEventContext := { ctx with cpsr := ⟨~~~a.status⟩ }
  have hcpsr : fields.merge ctx.cpsr.raw other.cpsr.raw ≠ a.status := by
    intro heq
    have hmode := fields.mode_merge ctx.cpsr.raw other.cpsr.raw
    rw [heq, if_pos hfields] at hmode
    have hbit : (Bitfields.field 0 5 a.status).getLsbD 0 =
        (Bitfields.field 0 5 other.cpsr.raw).getLsbD 0 := by rw [hmode]
    rw [Bitfields.getLsbD_field, Bitfields.getLsbD_field] at hbit
    simp [other] at hbit
  by_cases hcur : s.current = t
  · obtain ⟨s', hrun, hs'⟩ := h.nested hphase hcur ctx other
    exact ⟨_, s', hrun, hs'.not_getsOwnContext hcpsr⟩
  · obtain ⟨s', hrun, hs'⟩ := h.overtaken hphase hcur ctx other
    exact ⟨_, s', hrun, hs'.not_getsOwnContext hcpsr⟩

theorem Orderly.losesContext (h : s.Orderly) (hfields : fields.control = true)
    (hstep : Step fields s e s') (hwindow : ¬ s.OutsideWindows e) : s'.LosesContext fields := by
  cases hstep with
  | debugEvent ctx =>
    rcases h with hnone | ⟨t, a, halone⟩
    · refine absurd ?_ hwindow
      intro t b hb
      rw [hnone t] at hb
      cases hb
    · by_cases hphase : a.phase = .resuming
      · exact halone.losesContext hphase hfields ctx
      · refine absurd ?_ hwindow
        intro u b hb
        by_cases hu : u = t
        · rw [hu, halone.task, List.mem_singleton] at hb
          rw [hb]
          exact hphase
        · rw [halone.others u hu] at hb
          cases hb
  | handled | switch | resumed | exceptionReturn => exact absurd trivial hwindow

/-- Every restore gets its own context while no event is taken inside a window,
and the first event that is taken there can cost the task of the window its own. -/
theorem own_context_restored (h : s.NoEvents) (hrun : Run (QuietStep fields) s es s') :
    s'.GetsOwnContext fields ∧
      (fields.control = true →
        ∀ e s'', Step fields s' e s'' → ¬ s'.OutsideWindows e → s''.LosesContext fields) := by
  have horderly := orderly_of_run h hrun
  exact ⟨horderly.getsOwnContext,
    fun hfields _ _ hstep hwindow => horderly.losesContext hfields hstep hwindow⟩

/-- The window of a task is open and `u` runs. -/
theorem exists_switched (h : s.NoEvents) (ctx : DebugEventContext) (u : τ) :
    ∃ s', Run (QuietStep fields) s [.debugEvent ctx, .handled ctx true, .switch u] s' ∧
      s'.Alone s.current
        ⟨.resuming, ctx, fields.merge ctx.cpsr.raw ctx.cpsr.raw, s.abortStack⟩ ∧
      s'.current = u := by
  let event : Activation := ⟨.handling, ctx, ctx.cpsr.raw, s.abortStack⟩
  have hevent := alone_catchDebugEvent h ctx
  have hresuming : Alone ((s.catchDebugEvent ctx).popStatus fields event [] ctx true) _ _ :=
    alone_popStatus hevent rfl ctx true
  have hmode := interruptible_of_nil (h s.current)
  have hmode' : ((s.catchDebugEvent ctx).popStatus fields event [] ctx true).Interruptible :=
    interruptible_of_resuming hresuming.task rfl
  have hquiet : s.OutsideWindows (.debugEvent ctx) := by
    intro t b hb
    rw [h t] at hb
    cases hb
  refine ⟨_, Run.cons ⟨.debugEvent s ctx hmode, hquiet⟩
    (Run.cons ⟨.handled _ ctx true event [] hevent.task rfl, trivial⟩
      (Run.single ⟨.switch _ u rfl hmode', trivial⟩)), ?_⟩
  exact ⟨hresuming.switch hmode' u, rfl⟩

theorem own_context_restored_one_event :
    ∃ s : Cpu Bool, Run (QuietStep .fc) ⟨false, [], 0, false, fun _ => []⟩
        [.debugEvent ⟨⟨0x1f⟩, 0, 0, 0, fun _ => 0, fun _ => 0, 0x03800000⟩,
          .handled ⟨⟨0x1f⟩, 0, 0, 0, fun _ => 0, fun _ => 0, 0x03800000⟩ true, .switch true] s ∧
      s.GetsOwnContext .fc := by
  have hnone : NoEvents (⟨false, [], 0, false, fun _ => []⟩ : Cpu Bool) := fun _ => rfl
  obtain ⟨s, hrun, _⟩ :=
    exists_switched hnone ⟨⟨0x1f⟩, 0, 0, 0, fun _ => 0, fun _ => 0, 0x03800000⟩ true
  exact ⟨s, hrun, (own_context_restored hnone hrun).1⟩

/-- Two tasks stop, the second one while the first is inside the resume, and the
first is switched back to before the second has popped its registers. -/
theorem exists_overtaken {u : τ} (h : s.NoEvents) (hne : u ≠ s.current)
    (ctx ctx' : DebugEventContext) :
    ∃ s', Run (Step fields) s [.debugEvent ctx, .handled ctx true, .switch u, .debugEvent ctx',
        .handled ctx' true, .switch s.current, .resumed] s' ∧
      s'.Overwritten s.current
        ⟨.resuming, ctx, fields.merge ctx.cpsr.raw ctx.cpsr.raw, s.abortStack⟩
        (fields.merge ctx'.cpsr.raw ctx'.cpsr.raw)
        (ctx'.generalWords ++ (ctx.generalWords ++ s.abortStack)) := by
  obtain ⟨s₁, hrun, halone, rfl⟩ := exists_switched h ctx u
  obtain ⟨s₂, hrest, hs₂⟩ := halone.overtaken rfl hne ctx' ctx'
  have hstack : s₁.abortStack = ctx.generalWords ++ s.abortStack := by
    rw [halone.stack, Activation.words, if_neg (by simp)]
  rw [hstack] at hs₂
  have hnone : s₁.tasks s₁.current = [] := halone.others _ hne
  have hevent : Step fields s₁ _ _ := .debugEvent s₁ ctx' (interruptible_of_nil hnone)
  exact ⟨s₂, (hrun.mono fun _ _ _ hstep => hstep.1).trans (Run.cons hevent hrest), hs₂⟩

/-- The first task returns with the registers and the status of the second. -/
theorem context_of_other_task_restored :
    ∃ s s' : Cpu Bool, Run (Step .fc) ⟨false, [], 0, false, fun _ => []⟩
        [.debugEvent ⟨⟨0x1f⟩, 0, 0, 0, fun _ => 0, fun _ => 0, 0x03800000⟩,
          .handled ⟨⟨0x1f⟩, 0, 0, 0, fun _ => 0, fun _ => 0, 0x03800000⟩ true, .switch true,
          .debugEvent ⟨⟨0x3f⟩, 0, 0, 0, fun _ => 0, fun _ => 0, 0x03900000⟩,
          .handled ⟨⟨0x3f⟩, 0, 0, 0, fun _ => 0, fun _ => 0, 0x03900000⟩ true, .switch false,
          .resumed] s ∧
      s.current = false ∧
      Step .fc s (.exceptionReturn
        (DebugEventContext.generalWords ⟨⟨0x3f⟩, 0, 0, 0, fun _ => 0, fun _ => 0, 0x03900000⟩)
        0x3f) s' ∧
      ¬ s.GetsOwnContext .fc := by
  have hnone : NoEvents (⟨false, [], 0, false, fun _ => []⟩ : Cpu Bool) := fun _ => rfl
  obtain ⟨s, hrun, hs⟩ := exists_overtaken (u := true) hnone (by decide)
    ⟨⟨0x1f⟩, 0, 0, 0, fun _ => 0, fun _ => 0, 0x03800000⟩
    ⟨⟨0x3f⟩, 0, 0, 0, fun _ => 0, fun _ => 0, 0x03900000⟩
  have hreturn : Step .fc s _ _ := .exceptionReturn s _ [] (hs.current ▸ hs.task) rfl
  rw [hs.stack, ← DebugEventContext.length_generalWords, List.take_left, hs.spsr] at hreturn
  exact ⟨s, _, hrun, hs.current, hreturn, hs.not_getsOwnContext (by decide)⟩

end Cpu
end V5gdb
