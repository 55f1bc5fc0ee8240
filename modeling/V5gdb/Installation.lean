import V5gdb.VectorTable

/-!
Installing the debugger while other tasks run.
A task may lose the processor anywhere in `install_by_ref`, and another one may call it
in the meantime. The overlay table is never in use without a debugger to take the debug
events. Where the calls do not overlap, it leads to the entries that were in use before;
where two of them do, it may lead to itself.
-/
namespace V5gdb

open ByteMemory Arm Transitions

inductive InstallPoint (δ : Type*)
  | outside
  /-- Behind the assertion that there is no debugger. -/
  | callOnce (debugger : δ)
  | installVectors
  /-- It has found `ORIGINAL_VECTOR_ADDRESSES_SET` unset. -/
  | readTable
  | keepAddresses (oldVbar : VectorBaseAddressRegister)
  | writeTable
  | initializing
  | panicked
  deriving DecidableEq

def InstallPoint.atRest {δ : Type*} : InstallPoint δ → Bool
  | outside => true
  | panicked => true
  | _ => false

def InstallPoint.behindOnce {δ : Type*} : InstallPoint δ → Bool
  | outside => false
  | callOnce _ => false
  | panicked => false
  | _ => true

/-- The critical section of the first installation. -/
def Image.keepAddresses (image : Image) (p : Processor) (oldVbar : VectorBaseAddressRegister) :
    Processor :=
  let s := p.cpu.cpsidF.cps 0b10111
  let s := (s.setSp (image.abortStack + ABORT_STACK_SIZE)).cps 0b11111
  let s := { s with
    mem := storeWords s.mem image.originalAddresses (Image.originalVectorAddresses oldVbar) }
  { p with cpu := s.cpsieF }

structure Installing (τ δ : Type*) where
  processor : Processor
  debugger : Option δ
  /-- The debugger's `internal_breaks` are registered. -/
  initialized : Bool
  tasks : τ → InstallPoint δ

inductive InstallEvent (τ δ : Type*)
  | call (t : τ) (debugger : δ)
  | advance (t : τ)
  | run

namespace Installing

variable {τ δ : Type*} [DecidableEq τ]

def moveTo (s : Installing τ δ) (t : τ) (point : InstallPoint δ) : Installing τ δ :=
  { s with tasks := Function.update s.tasks t point }

/-- "A debugger is already installed." -/
def call (s : Installing τ δ) (t : τ) (debugger : δ) : Installing τ δ :=
  s.moveTo t (if s.debugger.isSome then .panicked else .callOnce debugger)

/-- What a task does before it can lose the processor again. -/
def advance (image : Image) (s : Installing τ δ) (t : τ) : Installing τ δ :=
  match s.tasks t with
  | .outside => s
  | .callOnce debugger =>
    { s with debugger := s.debugger.or (some debugger) }.moveTo t .installVectors
  | .installVectors =>
    -- ORIGINAL_VECTOR_ADDRESSES_SET.swap(true)
    { s with processor := { s.processor with originalVectorAddressesSet := true } }.moveTo t
      (if s.processor.originalVectorAddressesSet then .writeTable else .readTable)
  | .readTable => s.moveTo t (.keepAddresses s.processor.vbar)
  | .keepAddresses oldVbar =>
    { s with processor := image.keepAddresses s.processor oldVbar }.moveTo t .writeTable
  | .writeTable =>
    match VectorBaseAddressRegister.new? image.vectorTable with
    | some vbar => { s with processor := { s.processor with vbar } }.moveTo t .initializing
    | none => s.moveTo t .panicked
  | .initializing =>
    -- there must be a debugger, and its breakpoints must not be registered yet
    if s.debugger.isSome ∧ s.initialized = false then
      { s with initialized := true }.moveTo t .outside
    else s.moveTo t .panicked
  | .panicked => s

inductive Step (image : Image) : Installing τ δ → InstallEvent τ δ → Installing τ δ → Prop
  | call {s : Installing τ δ} {t : τ} {debugger : δ} (houtside : s.tasks t = .outside) :
      Step image s (.call t debugger) (s.call t debugger)
  | advance {s : Installing τ δ} {t : τ} (hinside : (s.tasks t).atRest = false) :
      Step image s (.advance t) (s.advance image t)
  | run {s : Installing τ δ} {processor : Processor}
      (hmem : ∀ x, Within image.originalAddresses 32 x →
        processor.cpu.mem x = s.processor.cpu.mem x)
      (hset : processor.originalVectorAddressesSet = s.processor.originalVectorAddressesSet)
      (hvbar : processor.vbar = s.processor.vbar) : Step image s .run { s with processor }

def start (processor : Processor) : Installing τ δ := ⟨processor, none, false, fun _ => .outside⟩

/-- A call is made while another task is in the middle of its own. -/
def Overlaps (s : Installing τ δ) : InstallEvent τ δ → Prop
  | .call _ _ => ∃ u, (s.tasks u).atRest = false
  | _ => False

def QuietStep (image : Image) (s : Installing τ δ) (e : InstallEvent τ δ) (s' : Installing τ δ) :
    Prop := Step image s e s' ∧ ¬ s.Overlaps e

variable {image : Image} {s s' : Installing τ δ} {e : InstallEvent τ δ}
  {es : List (InstallEvent τ δ)} {t u : τ} {vbar : VectorBaseAddressRegister}

@[simp] theorem moveTo_tasks (s : Installing τ δ) (t : τ) (point : InstallPoint δ) :
    (s.moveTo t point).tasks = Function.update s.tasks t point := rfl

inductive Advanced (image : Image) (s : Installing τ δ) (t : τ) : Installing τ δ → Prop
  | once (debugger : δ) (hpoint : s.tasks t = .callOnce debugger) :
      Advanced image s t
        ({ s with debugger := s.debugger.or (some debugger) }.moveTo t .installVectors)
  | first (hpoint : s.tasks t = .installVectors)
      (hset : s.processor.originalVectorAddressesSet = false) :
      Advanced image s t ({ s with processor :=
        { s.processor with originalVectorAddressesSet := true } }.moveTo t .readTable)
  | again (hpoint : s.tasks t = .installVectors)
      (hset : s.processor.originalVectorAddressesSet = true) :
      Advanced image s t (s.moveTo t .writeTable)
  | read (hpoint : s.tasks t = .readTable) :
      Advanced image s t (s.moveTo t (.keepAddresses s.processor.vbar))
  | kept (oldVbar : VectorBaseAddressRegister) (hpoint : s.tasks t = .keepAddresses oldVbar) :
      Advanced image s t
        ({ s with processor := image.keepAddresses s.processor oldVbar }.moveTo t .writeTable)
  | written (hpoint : s.tasks t = .writeTable) :
      Advanced image s t ({ s with processor :=
        { s.processor with vbar := ⟨image.vectorTable⟩ } }.moveTo t .initializing)
  | unaligned (hpoint : s.tasks t = .writeTable) : Advanced image s t (s.moveTo t .panicked)
  | initialized (hpoint : s.tasks t = .initializing) (hdebugger : s.debugger.isSome = true)
      (hfirst : s.initialized = false) :
      Advanced image s t ({ s with initialized := true }.moveTo t .outside)
  | refused (hpoint : s.tasks t = .initializing)
      (hwhy : s.debugger.isSome = true → s.initialized = true) :
      Advanced image s t (s.moveTo t .panicked)

theorem advanced (image : Image) (hinside : (s.tasks t).atRest = false) :
    Advanced image s t (s.advance image t) := by
  unfold advance
  cases hpoint : s.tasks t with
  | outside | panicked =>
    rw [hpoint] at hinside
    cases hinside
  | callOnce debugger => exact .once debugger hpoint
  | installVectors =>
    cases hset : s.processor.originalVectorAddressesSet with
    | false => exact .first hpoint hset
    | true =>
      have hsame : { s.processor with originalVectorAddressesSet := true } = s.processor := by
        rw [← hset]
      simp only [hsame]
      exact .again hpoint hset
  | readTable => exact .read hpoint
  | keepAddresses oldVbar => exact .kept oldVbar hpoint
  | writeTable =>
    cases hnew : VectorBaseAddressRegister.new? image.vectorTable with
    | none => exact .unaligned hpoint
    | some vbar =>
      unfold VectorBaseAddressRegister.new? at hnew
      split_ifs at hnew
      obtain rfl := Option.some.inj hnew
      exact .written hpoint
  | initializing =>
    simp only
    split_ifs with hfirst
    · exact .initialized hpoint hfirst.1 hfirst.2
    · refine .refused hpoint fun hdebugger => ?_
      cases hinit : s.initialized with
      | true => rfl
      | false => exact absurd ⟨hdebugger, hinit⟩ hfirst

/-- A debugger, once there is one, stays. -/
theorem Step.debugger {d : δ} (hstep : Step image s e s') (hd : s.debugger = some d) :
    s'.debugger = some d := by
  cases hstep with
  | call | run => exact hd
  | advance hinside =>
    have hadvanced := advanced image hinside
    generalize s.advance image _ = s' at hadvanced ⊢
    cases hadvanced with
    | once offered hpoint =>
      show s.debugger.or (some offered) = some d
      rw [hd, Option.some_or]
    | _ => exact hd

theorem debugger_of_run {d : δ} (hrun : Run (Step image) s es s') (hd : s.debugger = some d) :
    s'.debugger = some d :=
  hrun.invariant (P := fun _ s => s.debugger = some d) hd fun _ _ _ _ h hstep => hstep.debugger h

/-- Whoever is behind the assertion has a debugger, and so has the overlay table. -/
structure Guarded (image : Image) (s : Installing τ δ) : Prop where
  tasks : ∀ t, (s.tasks t).behindOnce = true → s.debugger.isSome = true
  overlay : s.processor.vbar = ⟨image.vectorTable⟩ → s.debugger.isSome = true

omit [DecidableEq τ] in
theorem Guarded.of_isSome (hd : s.debugger.isSome = true) : s.Guarded image :=
  ⟨fun _ _ => hd, fun _ => hd⟩

theorem Guarded.step (h : s.Guarded image) (hstep : Step image s e s') : s'.Guarded image := by
  cases hstep with
  | @call t debugger houtside =>
    refine ⟨?_, h.overlay⟩
    intro u hu
    show s.debugger.isSome = true
    unfold Installing.call at hu
    rw [moveTo_tasks] at hu
    by_cases hut : u = t
    · subst hut
      rw [Function.update_self] at hu
      split_ifs at hu with hd
      · exact hd
      · cases hu
    · rw [Function.update_of_ne hut] at hu
      exact h.tasks u hu
  | run hmem hset hvbar => exact ⟨h.tasks, fun hoverlay => h.overlay (hvbar.symm.trans hoverlay)⟩
  | @advance t hinside =>
    have hadvanced := advanced image hinside
    generalize s.advance image t = s' at hadvanced ⊢
    apply Guarded.of_isSome
    cases hadvanced with
    | once debugger hpoint =>
      show (s.debugger.or (some debugger)).isSome = true
      simp
    | initialized hpoint hd => exact hd
    | first hpoint => exact h.tasks t (by rw [hpoint]; rfl)
    | again hpoint => exact h.tasks t (by rw [hpoint]; rfl)
    | read hpoint => exact h.tasks t (by rw [hpoint]; rfl)
    | kept oldVbar hpoint => exact h.tasks t (by rw [hpoint]; rfl)
    | written hpoint => exact h.tasks t (by rw [hpoint]; rfl)
    | unaligned hpoint => exact h.tasks t (by rw [hpoint]; rfl)
    | refused hpoint => exact h.tasks t (by rw [hpoint]; rfl)

theorem guarded_of_run {p : Processor} (hother : p.vbar ≠ ⟨image.vectorTable⟩)
    (hrun : Run (Step image) (start p : Installing τ δ) es s) : s.Guarded image := by
  apply hrun.invariant (P := fun _ s => s.Guarded image)
  · exact ⟨fun _ hbehind => (by cases hbehind), fun hoverlay => absurd hoverlay hother⟩
  · intro _ _ _ _ h hstep
    exact h.step hstep

structure Untouched (vbar : VectorBaseAddressRegister) (p : Processor) (debugger? : Option δ) :
    Prop where
  debugger : debugger? = none
  set : p.originalVectorAddressesSet = false
  vbar : p.vbar = vbar

def AtPoint (image : Image) (vbar : VectorBaseAddressRegister) (p : Processor)
    (debugger? : Option δ) : InstallPoint δ → Prop
  | .callOnce _ => Untouched vbar p debugger?
  | .installVectors => p.originalVectorAddressesSet = false ∧ p.vbar = vbar
  | .readTable => p.vbar = vbar
  | .keepAddresses oldVbar => p.vbar = vbar ∧ oldVbar = vbar
  | .writeTable => p.vbar = vbar ∧ image.HoldsOriginals vbar p.cpu.mem
  | .initializing => image.HoldsOriginals vbar p.cpu.mem
  | _ => Untouched vbar p debugger? ∨ (debugger?.isSome = true ∧
      (p.vbar = vbar ∨ image.HoldsOriginals vbar p.cpu.mem))

inductive Single (image : Image) (vbar : VectorBaseAddressRegister) (s : Installing τ δ) : Prop
  | nobody (hrest : ∀ t, (s.tasks t).atRest = true)
      (hat : AtPoint image vbar s.processor s.debugger .outside)
  | one (t : τ) (hothers : ∀ u, u ≠ t → (s.tasks u).atRest = true)
      (hat : AtPoint image vbar s.processor s.debugger (s.tasks t))

section AtPoint

variable {p p' : Processor} {debugger? : Option δ} {point : InstallPoint δ}

theorem AtPoint.congr (h : AtPoint image vbar p debugger? point)
    (hmem : ∀ x, Within image.originalAddresses 32 x → p'.cpu.mem x = p.cpu.mem x)
    (hset : p'.originalVectorAddressesSet = p.originalVectorAddressesSet)
    (hvbar : p'.vbar = p.vbar) : AtPoint image vbar p' debugger? point := by
  have huntouched : Untouched vbar p debugger? → Untouched vbar p' debugger? :=
    fun h => ⟨h.debugger, hset.trans h.set, hvbar.trans h.vbar⟩
  have hholds : image.HoldsOriginals vbar p.cpu.mem → image.HoldsOriginals vbar p'.cpu.mem :=
    fun h => h.congr hmem
  cases point with
  | outside | panicked =>
    rcases h with h | ⟨hd, h | h⟩
    · exact .inl (huntouched h)
    · exact .inr ⟨hd, .inl (hvbar.trans h)⟩
    · exact .inr ⟨hd, .inr (hholds h)⟩
  | callOnce => exact huntouched h
  | installVectors => exact ⟨hset.trans h.1, hvbar.trans h.2⟩
  | readTable => exact hvbar.trans h
  | keepAddresses => exact ⟨hvbar.trans h.1, h.2⟩
  | writeTable => exact ⟨hvbar.trans h.1, hholds h.2⟩
  | initializing => exact hholds h

theorem AtPoint.atRest (h : AtPoint image vbar p debugger? point) (hrest : point.atRest = true) :
    AtPoint image vbar p debugger? .outside := by
  cases point with
  | outside | panicked => exact h
  | _ => cases hrest

/-- The overlay table is in use only with the original entries at hand. -/
theorem AtPoint.holdsOriginals (h : AtPoint image vbar p debugger? point)
    (hne : p.vbar ≠ vbar) : image.HoldsOriginals vbar p.cpu.mem := by
  cases point with
  | outside | panicked =>
    rcases h with h | ⟨_, h | h⟩
    · exact absurd h.vbar hne
    · exact absurd h hne
    · exact h
  | callOnce => exact absurd h.vbar hne
  | installVectors => exact absurd h.2 hne
  | readTable => exact absurd h hne
  | keepAddresses => exact absurd h.1 hne
  | writeTable => exact h.2
  | initializing => exact h

end AtPoint

omit [DecidableEq τ] in
theorem Single.holdsOriginals (h : s.Single image vbar) (hne : s.processor.vbar ≠ vbar) :
    image.HoldsOriginals vbar s.processor.cpu.mem := by
  cases h with
  | nobody _ hat => exact hat.holdsOriginals hne
  | one t _ hat => exact hat.holdsOriginals hne

omit [DecidableEq τ] in
theorem Single.atRest (h : s.Single image vbar) (hrest : ∀ t, (s.tasks t).atRest = true) :
    AtPoint image vbar s.processor s.debugger .outside := by
  cases h with
  | nobody _ hat => exact hat
  | one t _ hat => exact hat.atRest (hrest t)

theorem single_moveTo {point : InstallPoint δ}
    (hothers : ∀ u, u ≠ t → (s.tasks u).atRest = true)
    (hat : AtPoint image vbar s.processor s.debugger point) :
    (s.moveTo t point).Single image vbar := by
  refine .one t ?_ ?_
  · intro u hu
    rw [moveTo_tasks, Function.update_of_ne hu]
    exact hothers u hu
  · rw [moveTo_tasks, Function.update_self]
    exact hat

/-- The task that is inside goes on. -/
theorem AtPoint.advance (h : AtPoint image vbar s.processor s.debugger (s.tasks t))
    (hguarded : s.Guarded image) (hinside : (s.tasks t).atRest = false)
    (hothers : ∀ u, u ≠ t → (s.tasks u).atRest = true) :
    (s.advance image t).Single image vbar := by
  have hadvanced := advanced image hinside
  have hbehind := hguarded.tasks t
  generalize s.advance image t = s' at hadvanced ⊢
  cases hadvanced with
  | once debugger hpoint =>
    rw [hpoint] at h
    apply single_moveTo
    · exact hothers
    · exact ⟨h.set, h.vbar⟩
  | first hpoint =>
    rw [hpoint] at h
    apply single_moveTo
    · exact hothers
    · exact h.2
  | again hpoint hset =>
    rw [hpoint] at h
    cases hset.symm.trans h.1
  | read hpoint =>
    rw [hpoint] at h
    apply single_moveTo
    · exact hothers
    · exact ⟨h, h⟩
  | kept oldVbar hpoint =>
    rw [hpoint] at h
    obtain ⟨hvbar, rfl⟩ := h
    apply single_moveTo
    · exact hothers
    · refine ⟨hvbar, holdsWords_storeWords _ _ ?_⟩
      rw [Image.length_originalVectorAddresses]
      decide
  | written hpoint =>
    rw [hpoint] at h
    apply single_moveTo
    · exact hothers
    · exact h.2
  | unaligned hpoint =>
    rw [hpoint] at h hbehind
    apply single_moveTo
    · exact hothers
    · exact .inr ⟨hbehind rfl, .inl h.1⟩
  | initialized hpoint hd =>
    rw [hpoint] at h
    apply single_moveTo
    · exact hothers
    · exact .inr ⟨hd, .inr h⟩
  | refused hpoint =>
    rw [hpoint] at h hbehind
    apply single_moveTo
    · exact hothers
    · exact .inr ⟨hbehind rfl, .inr h⟩

theorem Single.step (h : s.Single image vbar) (hguarded : s.Guarded image)
    (hstep : QuietStep image s e s') : s'.Single image vbar := by
  obtain ⟨hstep, hquiet⟩ := hstep
  cases hstep with
  | @call t debugger houtside =>
    have hrest : ∀ u, (s.tasks u).atRest = true := by
      intro u
      by_contra hu
      exact hquiet ⟨u, Bool.eq_false_of_not_eq_true hu⟩
    have hat := h.atRest hrest
    unfold Installing.call
    apply single_moveTo
    · exact fun u _ => hrest u
    · split_ifs with hd
      · exact hat
      · rcases hat with huntouched | ⟨hsome, _⟩
        · exact huntouched
        · exact absurd hsome hd
  | run hmem hset hvbar =>
    cases h with
    | nobody hrest hat => exact .nobody hrest (hat.congr hmem hset hvbar)
    | one t hothers hat => exact .one t hothers (hat.congr hmem hset hvbar)
  | @advance t hinside =>
    cases h with
    | nobody hrest hat =>
      rw [hrest t] at hinside
      cases hinside
    | one t' hothers hat =>
      obtain rfl : t = t' := by
        by_contra hne
        rw [hothers t hne] at hinside
        cases hinside
      exact hat.advance hguarded hinside hothers

theorem single_of_run {p : Processor} (hfresh : p.originalVectorAddressesSet = false)
    (hother : p.vbar ≠ ⟨image.vectorTable⟩)
    (hrun : Run (QuietStep image) (start p : Installing τ δ) es s) :
    s.Single image p.vbar := by
  have hboth := hrun.invariant (P := fun _ s => s.Guarded image ∧ s.Single image p.vbar) ?_ ?_
  · exact hboth.2
  · exact ⟨guarded_of_run hother (.nil _), .nobody (fun _ => rfl) (.inl ⟨rfl, hfresh, rfl⟩)⟩
  · intro _ _ _ _ h hstep
    exact ⟨h.1.step hstep.1, h.2.step h.1 hstep⟩

/-- A call that is not disturbed is the installation in one piece. -/
theorem exists_installed (image : Image) {p : Processor} (t : τ) (debugger : δ)
    (haligned : image.vectorTable &&& 0b11111 = 0)
    (hfresh : p.originalVectorAddressesSet = false) :
    ∃ (es : List (InstallEvent τ δ)) (s : Installing τ δ),
      Run (QuietStep image) (start p) es s ∧ image.installVectors p = some s.processor ∧
      s.processor.vbar = ⟨image.vectorTable⟩ ∧ s.debugger = some debugger ∧
      s.initialized = false ∧ s.tasks = Function.update (fun _ => .outside) t .initializing := by
  have hnew : VectorBaseAddressRegister.new? image.vectorTable = some ⟨image.vectorTable⟩ :=
    if_pos haligned
  have hquiet : ∀ {s : Installing τ δ} {t : τ}, ¬ s.Overlaps (.advance t) := fun h => h
  have hcall : QuietStep image (start p) (.call t debugger)
      ((start p : Installing τ δ).moveTo t (.callOnce debugger)) := by
    refine ⟨.call rfl, ?_⟩
    rintro ⟨u, hu⟩
    cases hu
  let s₁ : Installing τ δ := (start p).moveTo t (.callOnce debugger)
  let s₂ : Installing τ δ := { s₁ with debugger := some debugger }.moveTo t .installVectors
  let s₃ : Installing τ δ :=
    { s₂ with processor := { p with originalVectorAddressesSet := true } }.moveTo t .readTable
  let s₄ : Installing τ δ := s₃.moveTo t (.keepAddresses p.vbar)
  let s₅ : Installing τ δ :=
    { s₄ with processor := image.setOriginalVectorAddresses p }.moveTo t .writeTable
  let s₆ : Installing τ δ :=
    { s₅ with processor := { image.setOriginalVectorAddresses p with
      vbar := ⟨image.vectorTable⟩ } }.moveTo t .initializing
  have honce : s₁.advance image t = s₂ := by simp [advance, s₁, s₂, start, moveTo]
  have hswap : s₂.advance image t = s₃ := by
    simp [advance, s₁, s₂, s₃, start, moveTo, hfresh]
  have hread : s₃.advance image t = s₄ := by simp [advance, s₃, s₄, moveTo]
  have hkeep : s₄.advance image t = s₅ := by
    simp [advance, s₃, s₄, s₅, moveTo, Image.keepAddresses, Image.setOriginalVectorAddresses]
  have hwrite : s₅.advance image t = s₆ := by simp [advance, s₅, s₆, moveTo, hnew]
  have hstep : ∀ {s s' : Installing τ δ}, (s.tasks t).atRest = false → s.advance image t = s' →
      QuietStep image s (.advance t) s' := by
    rintro s s' hinside rfl
    exact ⟨.advance hinside, hquiet⟩
  have hat : ∀ (s : Installing τ δ) (point : InstallPoint δ), point.atRest = false →
      ((s.moveTo t point).tasks t).atRest = false := by
    intro s point hpoint
    rw [moveTo_tasks, Function.update_self]
    exact hpoint
  refine ⟨_, s₆, .cons hcall (.cons (hstep (hat _ _ rfl) honce) (.cons (hstep (hat _ _ rfl) hswap)
    (.cons (hstep (hat _ _ rfl) hread) (.cons (hstep (hat _ _ rfl) hkeep)
      (.single (hstep (hat _ _ rfl) hwrite)))))), ?_, rfl, rfl, rfl, ?_⟩
  · unfold Image.installVectors
    rw [hfresh, hnew]
    rfl
  · simp only [s₆, s₅, s₄, s₃, s₂, s₁, moveTo, start, Function.update_idem]

/-- However calls of several tasks interleave: where the overlay table is in use there is a
debugger, and it stays the same. Unless two calls overlapped, an exception is then caught if
it is a debug event, and else reaches the entry that it had before the first call. -/
theorem installs_keep_exceptions (image : Image) (p : Processor)
    (hfresh : p.originalVectorAddressesSet = false) (hother : p.vbar ≠ ⟨image.vectorTable⟩)
    (es : List (InstallEvent τ δ)) (s : Installing τ δ) (hrun : Run (Step image) (start p) es s)
    (hoverlay : s.processor.vbar = ⟨image.vectorTable⟩) :
    (∃ d, s.debugger = some d ∧
      ∀ fs s', Run (Step image) s fs s' → s'.debugger = some d) ∧
    (Run (QuietStep image) (start p) es s →
      ∀ (k : Exception) (kept : BitVec 32 → Prop) (cpu cpu' : State) (target : AbortTarget),
        cpu.mem = s.processor.cpu.mem → cpu.cpsr.getLsbD 5 = false →
        ByteMemory.Disjoint (cpu.currentSp - 224) 224 image.originalAddresses 32 →
        (∀ x, Within (cpu.currentSp - 224) 224 x ∨ Within image.originalAddresses 32 x →
          kept x) →
        image.Enters kept k cpu target cpu' →
        (target = .catchDebugEvent ↔ k.IsDebugEvent cpu) ∧
          (target = .originalVector →
            Image.PassedOn kept cpu (p.vbar.ptr + BitVec.ofNat 32 (4 * k.index)) cpu')) := by
  constructor
  · obtain ⟨d, hd⟩ := Option.isSome_iff_exists.mp ((guarded_of_run hother hrun).overlay hoverlay)
    exact ⟨d, hd, fun _ _ hlater => debugger_of_run hlater hd⟩
  · intro hquiet k kept cpu cpu' target hmem harm hstack hkept henter
    have hne : s.processor.vbar ≠ p.vbar := by
      rw [hoverlay]
      exact hother.symm
    have hholds := (single_of_run hfresh hother hquiet).holdsOriginals hne
    rw [← hmem] at hholds
    exact henter.spec hholds harm hstack hkept

def beforeInstall : Processor where
  cpu := ⟨fun _ => 7, fun _ => 0x03a00000, fun _ => 0, fun _ => 0, 0x03850000, 0b10010, 0,
    fun _ => 0, 0, 0, fun _ => 0⟩
  vbar := ⟨0x00100000⟩
  originalVectorAddressesSet := false

def placedImage : Image := ⟨0x03800000, 0x03800020, 0x03900000⟩

/-- A task installs the debugger, another one calls it afterwards, and an undefined instruction
is executed. -/
theorem installs_keep_exceptions_in_turn :
    ∃ (es : List (InstallEvent Bool Bool)) (s : Installing Bool Bool) (cpu cpu' : State),
      Run (QuietStep placedImage) (start beforeInstall) es s ∧ s.tasks true = .outside ∧
      s.tasks false = .panicked ∧ s.debugger = some true ∧
      placedImage.Enters (fun _ => True) .undefined cpu .originalVector cpu' ∧
      cpu'.pc = 0x00100004 := by
  obtain ⟨es, s, hfirst, _, hoverlay, hdebugger, hinitialized, htasks⟩ :=
    exists_installed placedImage true true (by decide) (p := beforeInstall) rfl
  have hinside : s.tasks true = .initializing := by rw [htasks, Function.update_self]
  have hreturn : s.advance placedImage true =
      { s with initialized := true }.moveTo true .outside := by
    simp [advance, hinside, hdebugger, hinitialized]
  have houtside : (s.advance placedImage true).tasks = fun _ => .outside := by
    rw [hreturn, moveTo_tasks, htasks, Function.update_idem, Function.update_eq_self]
  have hdebugger' : (s.advance placedImage true).debugger = some true := by
    rw [hreturn]
    exact hdebugger
  have hcall : (s.advance placedImage true).call false false =
      (s.advance placedImage true).moveTo false .panicked := by
    simp [call, hdebugger']
  have hrun := (hfirst.snoc ⟨.advance (by rw [hinside]; rfl), fun h => h⟩).snoc
    (⟨.call (congrFun houtside false), by
      rintro ⟨u, hu⟩
      rw [houtside] at hu
      cases hu⟩ : QuietStep placedImage (s.advance placedImage true) (.call false false) _)
  rw [hcall] at hrun
  have hprocessor : (s.advance placedImage true).processor = s.processor := by
    rw [hreturn]
    rfl
  obtain ⟨_, hkeep⟩ := installs_keep_exceptions placedImage beforeInstall rfl (by decide) _ _
    (hrun.mono fun _ _ _ h => h.1) (by
      show (s.advance placedImage true).processor.vbar = _
      rw [hprocessor, hoverlay])
  let cpu : State :=
    { beforeInstall.cpu with mem := (s.advance placedImage true).processor.cpu.mem }
  have henter : placedImage.Enters (fun _ => True) .undefined cpu .originalVector _ :=
    .direct (by simp)
  have hdisjoint :
      ByteMemory.Disjoint (cpu.currentSp - 224) 224 placedImage.originalAddresses 32 := by
    have hsp : cpu.currentSp = 0x03a00000 := rfl
    rw [hsp]
    exact (disjoint_of_toNat_le (by decide) (by decide)).symm
  have harm : (0b10010 : BitVec 32).getLsbD 5 = false := by decide
  obtain ⟨_, hpassed⟩ := hkeep hrun .undefined (fun _ => True) cpu _ _ rfl harm hdisjoint
    (fun _ _ => trivial) henter
  have hentry : beforeInstall.vbar.ptr + BitVec.ofNat 32 (4 * Exception.undefined.index) =
      0x00100004 := by decide
  refine ⟨_, _, cpu, _, hrun, ?_, ?_, hdebugger', henter, (hpassed rfl).pc.trans hentry⟩
  · rw [moveTo_tasks, houtside]
    rfl
  · rw [moveTo_tasks, Function.update_self]

/-- Two tasks are behind the assertion when one of them writes the table that the other one
takes for the original: every exception that is passed on comes back to the overlay table. -/
theorem overlapping_installs_loop :
    ∃ (es : List (InstallEvent Bool Unit)) (s : Installing Bool Unit),
      Run (Step placedImage) (start beforeInstall) es s ∧
      s.processor.vbar = ⟨placedImage.vectorTable⟩ ∧
      ∀ k, placedImage.originalAddress s.processor.cpu k =
        placedImage.vectorTable + BitVec.ofNat 32 (4 * k.index) := by
  let s₁ : Installing Bool Unit := ((start beforeInstall).call true ()).call false ()
  let s₂ := ((s₁.advance placedImage true).advance placedImage false).advance placedImage true
  let s₃ := (s₂.advance placedImage false).advance placedImage false
  let s₄ := (s₃.advance placedImage true).advance placedImage true
  have hcalls : Run (Step placedImage) (start beforeInstall) _ s₁ :=
    .cons (.call rfl) (.single (.call rfl))
  have hswap : Run (Step placedImage) s₁ _ s₂ :=
    .cons (.advance rfl) (.cons (.advance rfl) (.single (.advance rfl)))
  have hwrite : Run (Step placedImage) s₂ _ s₃ := .cons (.advance rfl) (.single (.advance rfl))
  have hkeep : Run (Step placedImage) s₃ _ s₄ := .cons (.advance rfl) (.single (.advance rfl))
  have hholds : placedImage.HoldsOriginals ⟨placedImage.vectorTable⟩ s₄.processor.cpu.mem := by
    refine holdsWords_storeWords _ _ ?_
    rw [Image.length_originalVectorAddresses]
    decide
  refine ⟨_, s₄, ((hcalls.trans hswap).trans hwrite).trans hkeep, rfl, ?_⟩
  intro k
  rw [hholds.originalAddress k]
  rfl

end Installing
end V5gdb
