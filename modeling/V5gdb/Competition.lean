import V5gdb.Bitfields
import V5gdb.Transitions

/-!
The override of the competition status.
The program asks a function that answers with the override if there is one. A command
changes a part of the status that the program sees and makes the whole of it the override,
so what the first command did not change stays as it was then, until the override is given
up.
-/
namespace V5gdb

open Bitfields Transitions

structure CompetitionStatus where
  raw : BitVec 32
  deriving DecidableEq, Repr

namespace CompetitionStatus

def bit (s : CompetitionStatus) (i : ℕ) : Bool := s.raw.getLsbD i

def withBit (s : CompetitionStatus) (i : ℕ) (b : Bool) : CompetitionStatus :=
  ⟨setField i s.raw (BitVec.ofBool b)⟩

def disabled (s : CompetitionStatus) : Bool := s.bit 0
def autonomous (s : CompetitionStatus) : Bool := s.bit 1
def connected (s : CompetitionStatus) : Bool := s.bit 2
def system (s : CompetitionStatus) : Bool := s.bit 3
def gdbOverride (s : CompetitionStatus) : Bool := s.bit 31

def withDisabled (s : CompetitionStatus) (b : Bool) : CompetitionStatus := s.withBit 0 b
def withAutonomous (s : CompetitionStatus) (b : Bool) : CompetitionStatus := s.withBit 1 b
def withConnected (s : CompetitionStatus) (b : Bool) : CompetitionStatus := s.withBit 2 b
def withSystem (s : CompetitionStatus) (b : Bool) : CompetitionStatus := s.withBit 3 b
def withGdbOverride (s : CompetitionStatus) (b : Bool) : CompetitionStatus := s.withBit 31 b

def ZERO : CompetitionStatus := ⟨0⟩

def debug (s : CompetitionStatus) : String :=
  let mode :=
    if s.disabled then "disabled" else if s.autonomous then "autonomous" else "opcontrol"
  let system :=
    if s.connected then if s.system then "field-control" else "competition-switch"
    else "disconnected"
  mode ++ "/" ++ system

theorem bit_withBit (s : CompetitionStatus) {i j : ℕ} (b : Bool) (hj : j < 32) :
    (s.withBit i b).bit j = if j = i then b else s.bit j := by
  unfold withBit bit
  simp only
  rw [getLsbD_setField _ _ _ _ hj]
  by_cases hij : j = i
  · simp [hij]
  · rw [if_neg (by omega), if_neg hij]

theorem bit_withPair {s : CompetitionStatus} {i j : ℕ} (a b : Bool) (hj : j < 32) :
    ((s.withBit i a).withBit (i + 1) b).bit j =
      if j = i + 1 then b else if j = i then a else s.bit j := by
  rw [bit_withBit _ _ hj, bit_withBit _ _ hj]

def modeFlags (s : CompetitionStatus) : Bool × Bool := (s.disabled, s.autonomous)

def systemFlags (s : CompetitionStatus) : Bool × Bool := (s.connected, s.system)

end CompetitionStatus

inductive CompetitionChange
  | driver
  | auton
  | disabled
  | none
  | fieldControl
  | switch
  deriving DecidableEq, Repr

namespace CompetitionChange

def apply (s : CompetitionStatus) : CompetitionChange → CompetitionStatus
  | driver => (s.withDisabled false).withAutonomous false
  | auton => (s.withDisabled false).withAutonomous true
  | disabled => (s.withDisabled true).withAutonomous false
  | none => (s.withConnected false).withSystem false
  | fieldControl => (s.withConnected true).withSystem true
  | switch => (s.withConnected true).withSystem false

def mode? : CompetitionChange → Option (Bool × Bool)
  | driver => some (false, false)
  | auton => some (false, true)
  | disabled => some (true, false)
  | _ => Option.none

def system? : CompetitionChange → Option (Bool × Bool)
  | none => some (false, false)
  | fieldControl => some (true, true)
  | switch => some (true, false)
  | _ => Option.none

/-- A change sets the flags of its own part and no other bit. -/
theorem apply_spec (c : CompetitionChange) (s : CompetitionStatus) :
    (c.apply s).modeFlags = c.mode?.getD s.modeFlags ∧
      (c.apply s).systemFlags = c.system?.getD s.systemFlags ∧
      ∀ i, 4 ≤ i → i < 32 → (c.apply s).bit i = s.bit i := by
  have hmode : ∀ a b, ((s.withBit 0 a).withBit 1 b).modeFlags = (a, b) ∧
      ((s.withBit 0 a).withBit 1 b).systemFlags = s.systemFlags := by
    intro a b
    have hflags := fun j => @CompetitionStatus.bit_withPair s 0 j a b
    constructor
    · exact Prod.ext (hflags 0 (by omega)) (hflags 1 (by omega))
    · exact Prod.ext (hflags 2 (by omega)) (hflags 3 (by omega))
  have hsystem : ∀ a b, ((s.withBit 2 a).withBit 3 b).modeFlags = s.modeFlags ∧
      ((s.withBit 2 a).withBit 3 b).systemFlags = (a, b) := by
    intro a b
    have hflags := fun j => @CompetitionStatus.bit_withPair s 2 j a b
    constructor
    · exact Prod.ext (hflags 0 (by omega)) (hflags 1 (by omega))
    · exact Prod.ext (hflags 2 (by omega)) (hflags 3 (by omega))
  have hrest : ∀ i a b j, i < 3 → 4 ≤ j → j < 32 →
      ((s.withBit i a).withBit (i + 1) b).bit j = s.bit j := by
    intro i a b j hi hlow hhigh
    rw [CompetitionStatus.bit_withPair a b hhigh, if_neg (by omega), if_neg (by omega)]
  cases c with
  | driver => exact ⟨(hmode _ _).1, (hmode _ _).2, fun j => hrest 0 _ _ j (by omega)⟩
  | auton => exact ⟨(hmode _ _).1, (hmode _ _).2, fun j => hrest 0 _ _ j (by omega)⟩
  | disabled => exact ⟨(hmode _ _).1, (hmode _ _).2, fun j => hrest 0 _ _ j (by omega)⟩
  | none => exact ⟨(hsystem _ _).1, (hsystem _ _).2, fun j => hrest 2 _ _ j (by omega)⟩
  | fieldControl => exact ⟨(hsystem _ _).1, (hsystem _ _).2, fun j => hrest 2 _ _ j (by omega)⟩
  | switch => exact ⟨(hsystem _ _).1, (hsystem _ _).2, fun j => hrest 2 _ _ j (by omega)⟩

end CompetitionChange

/-- `COMP_STATUS_OVERRIDE`, and the status that the system itself gives. -/
structure Competition where
  statusOverride : CompetitionStatus
  real : CompetitionStatus

namespace Competition

def setOverride (c : Competition) (value : Option CompetitionStatus) : Competition :=
  let status :=
    match value with
    | some status => status.withGdbOverride true
    | none => CompetitionStatus.ZERO
  { c with statusOverride := status }

def readOverride (c : Competition) : Option CompetitionStatus :=
  if c.statusOverride.gdbOverride then some (c.statusOverride.withGdbOverride false) else none

def readRealStatus (c : Competition) : CompetitionStatus := c.real

/-- What the program is answered in the place of `vexCompetitionStatus`. -/
def readStatus (c : Competition) : CompetitionStatus :=
  match c.readOverride with
  | some statusOverride => statusOverride
  | none => c.readRealStatus

/-- The commands `comp driver` and so on. -/
def change (c : Competition) (change : CompetitionChange) : Competition :=
  c.setOverride (some (change.apply c.readStatus))

/-- `comp real` -/
def giveUp (c : Competition) : Competition := c.setOverride none

inductive Event
  | change (change : CompetitionChange)
  | giveUp
  | real (status : CompetitionStatus)

def Event.change? : Event → Option CompetitionChange
  | .change c => some c
  | _ => none

def Event.real? : Event → Option CompetitionStatus
  | .real s => some s
  | _ => none

inductive Step : Competition → Event → Competition → Prop
  | change {c : Competition} (change : CompetitionChange) :
      Step c (.change change) (c.change change)
  | giveUp {c : Competition} : Step c .giveUp c.giveUp
  | real {c : Competition} (status : CompetitionStatus) :
      Step c (.real status) { c with real := status }

def start (real : CompetitionStatus) : Competition := ⟨CompetitionStatus.ZERO, real⟩

variable {c c' : Competition}

theorem readStatus_change (c : Competition) (change : CompetitionChange) :
    (c.change change).readStatus =
      ((change.apply c.readStatus).withGdbOverride true).withGdbOverride false := by
  unfold readStatus readOverride
  have hmark : (c.change change).statusOverride.gdbOverride = true := by
    show ((change.apply c.readStatus).withBit 31 true).bit 31 = true
    rw [CompetitionStatus.bit_withBit _ _ (by decide), if_pos rfl]
  rw [if_pos hmark]
  rfl

theorem readOverride_change (c : Competition) (change : CompetitionChange) :
    (c.change change).readOverride = some (c.change change).readStatus := by
  have hmark : (c.change change).statusOverride.gdbOverride = true := by
    show ((change.apply c.readStatus).withBit 31 true).bit 31 = true
    rw [CompetitionStatus.bit_withBit _ _ (by decide), if_pos rfl]
  unfold readStatus readOverride
  rw [if_pos hmark]

theorem readOverride_giveUp (c : Competition) : c.giveUp.readOverride = none := by
  have hmark : CompetitionStatus.ZERO.gdbOverride = false := by decide
  show (if CompetitionStatus.ZERO.gdbOverride then _ else none) = none
  rw [hmark]
  rfl

structure Overridden (base : CompetitionStatus) (changes : List CompetitionChange)
    (seen : CompetitionStatus) : Prop where
  mode : seen.modeFlags = (changes.filterMap CompetitionChange.mode?).getLastD base.modeFlags
  system : seen.systemFlags =
    (changes.filterMap CompetitionChange.system?).getLastD base.systemFlags
  rest : ∀ i, 4 ≤ i → i < 31 → seen.bit i = base.bit i
  unmarked : seen.gdbOverride = false

theorem getLastD_filterMap_concat {α β : Type*} (f : α → Option β) (as : List α) (a : α) (b : β) :
    ((as ++ [a]).filterMap f).getLastD b = (f a).getD ((as.filterMap f).getLastD b) := by
  rw [List.filterMap_append]
  cases hfa : f a with
  | none => simp [hfa]
  | some b' =>
    rw [List.filterMap_cons_some hfa, List.filterMap_nil, List.getLastD_concat]
    rfl

/-- The mark of an override is the highest bit, which is no flag. -/
theorem remark_spec (s : CompetitionStatus) :
    ((s.withGdbOverride true).withGdbOverride false).modeFlags = s.modeFlags ∧
      ((s.withGdbOverride true).withGdbOverride false).systemFlags = s.systemFlags ∧
      (∀ i, i < 31 → ((s.withGdbOverride true).withGdbOverride false).bit i = s.bit i) ∧
      ((s.withGdbOverride true).withGdbOverride false).gdbOverride = false := by
  have hlow : ∀ i, i < 31 →
      ((s.withGdbOverride true).withGdbOverride false).bit i = s.bit i := by
    intro i hi
    unfold CompetitionStatus.withGdbOverride
    rw [CompetitionStatus.bit_withBit _ _ (by omega), if_neg (by omega),
      CompetitionStatus.bit_withBit _ _ (by omega), if_neg (by omega)]
  refine ⟨?_, ?_, hlow, ?_⟩
  · exact Prod.ext (hlow 0 (by omega)) (hlow 1 (by omega))
  · exact Prod.ext (hlow 2 (by omega)) (hlow 3 (by omega))
  · unfold CompetitionStatus.withGdbOverride CompetitionStatus.gdbOverride
    rw [CompetitionStatus.bit_withBit _ _ (by omega), if_pos rfl]

/-- One more change to what was seen. -/
theorem overridden_change {base seen : CompetitionStatus} {changes : List CompetitionChange}
    (hmode : seen.modeFlags =
      (changes.filterMap CompetitionChange.mode?).getLastD base.modeFlags)
    (hsystem : seen.systemFlags =
      (changes.filterMap CompetitionChange.system?).getLastD base.systemFlags)
    (hrest : ∀ i, 4 ≤ i → i < 31 → seen.bit i = base.bit i) (change : CompetitionChange) :
    Overridden base (changes ++ [change])
      (((change.apply seen).withGdbOverride true).withGdbOverride false) := by
  obtain ⟨hmode', hsystem', hrest'⟩ := change.apply_spec seen
  obtain ⟨hremode, hresystem, hlow, hmark⟩ := remark_spec (change.apply seen)
  constructor
  · rw [hremode, hmode', getLastD_filterMap_concat, hmode]
  · rw [hresystem, hsystem', getLastD_filterMap_concat, hsystem]
  · intro i hi hhigh
    rw [hlow i hhigh, hrest' i hi (by omega), hrest i hi hhigh]
  · exact hmark

theorem Overridden.change {base seen : CompetitionStatus} {changes : List CompetitionChange}
    (h : Overridden base changes seen) (change : CompetitionChange) :
    Overridden base (changes ++ [change])
      (((change.apply seen).withGdbOverride true).withGdbOverride false) :=
  overridden_change h.mode h.system h.rest change

def realAt (real : CompetitionStatus) (es : List Event) : CompetitionStatus :=
  (es.filterMap Event.real?).getLastD real

def Event.IsChange (e : Event) : Prop := e.change?.isSome

def Event.IsGiveUp : Event → Prop
  | .giveUp => True
  | _ => False

/-- What the program is answered: the system's status, unless a part was changed since the
override was last given up. Then it is the system's status at the time of the first such
change, with the changes made since. -/
inductive Answers (real : CompetitionStatus) (es : List Event) (seen : CompetitionStatus) : Prop
  | real (hquiet : ¬Since Event.IsChange Event.IsGiveUp es) (hseen : seen = realAt real es)
  | overridden (before : List Event) (first : CompetitionChange) (after : List Event)
      (hes : es = before ++ .change first :: after)
      (hbefore : ¬Since Event.IsChange Event.IsGiveUp before)
      (hafter : ∀ e ∈ after, ¬e.IsGiveUp)
      (hseen : Overridden (realAt real before) (first :: after.filterMap Event.change?) seen)

inductive Kept (real : CompetitionStatus) (es : List Event) (c : Competition) : Prop
  | real (hoverride : c.readOverride = none) (hreal : c.real = realAt real es)
      (hquiet : ¬Since Event.IsChange Event.IsGiveUp es)
  | overridden (hreal : c.real = realAt real es) (before : List Event)
      (first : CompetitionChange) (after : List Event)
      (hes : es = before ++ .change first :: after)
      (hbefore : ¬Since Event.IsChange Event.IsGiveUp before)
      (hafter : ∀ e ∈ after, ¬e.IsGiveUp) (seen : CompetitionStatus)
      (hoverride : c.readOverride = some seen)
      (hseen : Overridden (realAt real before) (first :: after.filterMap Event.change?) seen)

theorem readStatus_of_readOverride {seen : CompetitionStatus}
    (h : c.readOverride = some seen) : c.readStatus = seen := by
  unfold readStatus
  rw [h]

theorem readStatus_of_none (h : c.readOverride = none) : c.readStatus = c.real := by
  unfold readStatus
  rw [h]
  rfl

theorem Kept.answers {real : CompetitionStatus} {es : List Event} (h : Kept real es c) :
    Answers real es c.readStatus := by
  cases h with
  | real hoverride hreal hquiet =>
    exact .real hquiet (by rw [readStatus_of_none hoverride, hreal])
  | overridden hreal before first after hes hbefore hafter seen hoverride hseen =>
    rw [readStatus_of_readOverride hoverride]
    exact .overridden before first after hes hbefore hafter hseen

theorem Kept.step {real : CompetitionStatus} {es : List Event} {e : Event} (h : Kept real es c)
    (hstep : Step c e c') : Kept real (es ++ [e]) c' := by
  have hrealAt := getLastD_filterMap_concat Event.real? es e real
  cases hstep with
  | change change =>
    have hnew := readOverride_change c change
    rw [readStatus_change] at hnew
    cases h with
    | real hoverride hreal hquiet =>
      rw [readStatus_of_none hoverride, hreal] at hnew
      refine .overridden (hreal.trans hrealAt.symm) es change [] rfl hquiet (by simp) _ hnew ?_
      exact @overridden_change _ _ [] rfl rfl (fun i _ _ => rfl) change
    | overridden hreal before first after hes hbefore hafter seen hoverride hseen =>
      rw [readStatus_of_readOverride hoverride] at hnew
      refine .overridden (hreal.trans hrealAt.symm) before first (after ++ [.change change])
        (by rw [hes]; simp) hbefore ?_ _ hnew ?_
      · intro e he
        rcases List.mem_append.mp he with he | he
        · exact hafter e he
        · rw [List.mem_singleton.mp he]
          exact id
      · rw [List.filterMap_append, ← List.cons_append]
        exact hseen.change change
  | giveUp =>
    have hreal : c.real = realAt real es := by cases h <;> assumption
    refine .real (readOverride_giveUp c) (hreal.trans hrealAt.symm) ?_
    rw [since_snoc]
    simp [Event.IsChange, Event.IsGiveUp, Event.change?]
  | real status =>
    cases h with
    | real hoverride hreal hquiet =>
      refine .real hoverride hrealAt.symm ?_
      rw [since_snoc]
      simp [Event.IsChange, Event.change?, hquiet]
    | overridden hreal before first after hes hbefore hafter seen hoverride hseen =>
      refine .overridden hrealAt.symm before first (after ++ [.real status])
        (by rw [hes]; simp) hbefore ?_ seen hoverride ?_
      · intro e he
        rcases List.mem_append.mp he with he | he
        · exact hafter e he
        · rw [List.mem_singleton.mp he]
          exact id
      · rw [List.filterMap_append, List.filterMap_cons_none (by rfl), List.filterMap_nil,
          List.append_nil]
        exact hseen

theorem answers_of_run {real : CompetitionStatus} {es : List Event}
    (hrun : Run Step (start real) es c) : Answers real es c.readStatus := by
  have hstart : Kept real [] (start real) :=
    .real (readOverride_giveUp (start real)) rfl not_since_nil
  exact (hrun.invariant hstart fun _ _ _ _ h hstep => h.step hstep).answers

end Competition
end V5gdb
