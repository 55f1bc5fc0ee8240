import Mathlib.Data.List.Basic
import Mathlib.Tactic.Common

/-!
Labelled transition systems, given by their step relation.
Runs carry the labels of their steps, so an invariant may speak about the
history that led to a state. A forward simulation carries every concrete run to
a run of the specification with the very same labels.
-/
namespace V5gdb.Transitions

variable {σ τ ε : Type*}

/-- Runs grow at the end: the newest label is the last one. -/
inductive Run (step : σ → ε → σ → Prop) : σ → List ε → σ → Prop
  | nil (s : σ) : Run step s [] s
  | snoc {s s' s'' : σ} {es : List ε} {e : ε} :
      Run step s es s' → step s' e s'' → Run step s (es ++ [e]) s''

variable {step : σ → ε → σ → Prop} {spec : τ → ε → τ → Prop}

namespace Run

/-- What holds at the start and survives each step holds along every run. -/
theorem invariant {P : List ε → σ → Prop} {s s' : σ} {es : List ε} (hrun : Run step s es s')
    (h0 : P [] s)
    (hstep : ∀ es t e t', P es t → step t e t' → P (es ++ [e]) t') : P es s' := by
  induction hrun with
  | nil => exact h0
  | snoc _ hlast ih => exact hstep _ _ _ _ ih hlast

theorem trans {s s' s'' : σ} {es fs : List ε} (h : Run step s es s') (h' : Run step s' fs s'') :
    Run step s (es ++ fs) s'' := by
  induction h' with
  | nil => simpa using h
  | snoc _ hlast ih =>
    rw [← List.append_assoc]
    exact .snoc ih hlast

theorem nil_inv {s s' : σ} (h : Run step s [] s') : s' = s := by
  generalize hes : ([] : List ε) = es at h
  cases h with
  | nil => rfl
  | snoc => simp at hes

/-- A run that is not empty starts with a step. -/
theorem cons_inv {s s' : σ} {e : ε} {es : List ε} (h : Run step s (e :: es) s') :
    ∃ t, step s e t ∧ Run step t es s' := by
  generalize hfs : e :: es = fs at h
  induction h generalizing es with
  | nil => cases hfs
  | @snoc t' s'' es' e' hrun hlast ih =>
    cases es' with
    | nil =>
      obtain ⟨rfl, rfl⟩ := List.cons.inj hfs
      obtain rfl := nil_inv hrun
      exact ⟨s'', hlast, .nil s''⟩
    | cons f fs =>
      rw [List.cons_append] at hfs
      obtain ⟨rfl, rfl⟩ := List.cons.inj hfs
      obtain ⟨t, hfirst, hrest⟩ := ih rfl
      exact ⟨t, hfirst, .snoc hrest hlast⟩

theorem mono {step' : σ → ε → σ → Prop} {s s' : σ} {es : List ε} (h : Run step s es s')
    (hstep : ∀ t e t', step t e t' → step' t e t') : Run step' s es s' := by
  induction h with
  | nil => exact .nil _
  | snoc _ hlast ih => exact .snoc ih (hstep _ _ _ hlast)

/-- A run as seen by a part of the state that only some of the events are about. -/
theorem project {β ζ : Type*} {part : β → ζ → β → Prop} (f : ε → Option ζ) (g : σ → β)
    {s s' : σ} {es : List ε} (h : Run step s es s')
    (hnone : ∀ t e t', step t e t' → f e = none → g t' = g t)
    (hsome : ∀ t e t' e', step t e t' → f e = some e' → part (g t) e' (g t')) :
    Run part (g s) (es.filterMap f) (g s') := by
  induction h with
  | nil => exact .nil _
  | @snoc t t' es e _ hlast ih =>
    rw [List.filterMap_append]
    cases he : f e with
    | none =>
      rw [List.filterMap_cons_none he, List.filterMap_nil, List.append_nil,
        hnone _ _ _ hlast he]
      exact ih
    | some e' =>
      rw [List.filterMap_cons_some he, List.filterMap_nil]
      exact .snoc ih (hsome _ _ _ _ hlast he)

theorem single {s s' : σ} {e : ε} (h : step s e s') : Run step s [e] s' := .snoc (.nil s) h

theorem cons {s s' s'' : σ} {e : ε} {es : List ε} (h : step s e s') (hrun : Run step s' es s'') :
    Run step s (e :: es) s'' := trans (single h) hrun

end Run

structure Simulation (step : σ → ε → σ → Prop) (spec : τ → ε → τ → Prop)
    (R : σ → τ → Prop) : Prop where
  matched : ∀ {s t e s'}, R s t → step s e s' → ∃ t', spec t e t' ∧ R s' t'

theorem Simulation.run {R : σ → τ → Prop} (h : Simulation step spec R) {s s' : σ} {t : τ}
    {es : List ε} (hrun : Run step s es s') (hR : R s t) :
    ∃ t', Run spec t es t' ∧ R s' t' := by
  induction hrun with
  | nil => exact ⟨t, .nil t, hR⟩
  | snoc _ hlast ih =>
    obtain ⟨u, hu, hRu⟩ := ih
    obtain ⟨t', ht', hR'⟩ := h.matched hRu hlast
    exact ⟨t', .snoc hu ht', hR'⟩

/-! Bookkeeping along a run, which depends on it and which it does not depend on. -/

section Ghost

variable {γ : Type*} {note : σ → ε → γ → γ}

def Ghost (step : σ → ε → σ → Prop) (note : σ → ε → γ → γ) (p : σ × γ) (e : ε) (q : σ × γ) :
    Prop := step p.1 e q.1 ∧ q.2 = note p.1 e p.2

theorem Run.forget {p q : σ × γ} {es : List ε} (h : Run (Ghost step note) p es q) :
    Run step p.1 es q.1 := by
  induction h with
  | nil => exact .nil _
  | snoc _ hlast ih => exact .snoc ih hlast.1

/-- No run is lost by keeping the books. -/
theorem Run.exists_ghost {s s' : σ} {es : List ε} (h : Run step s es s') (note : σ → ε → γ → γ)
    (g : γ) : ∃ g', Run (Ghost step note) (s, g) es (s', g') := by
  induction h with
  | nil => exact ⟨g, .nil _⟩
  | @snoc t t' es' e _ hlast ih =>
    obtain ⟨g', hrun⟩ := ih
    exact ⟨note t e g', .snoc hrun ⟨hlast, rfl⟩⟩

end Ghost

/-! What a history says about its latest events. -/

def Since (P Q : ε → Prop) (es : List ε) : Prop :=
  ∃ before e after, es = before ++ e :: after ∧ P e ∧ ∀ f ∈ after, ¬Q f

section Since

variable {P Q : ε → Prop} {es fs : List ε} {e : ε}

theorem not_since_nil : ¬Since P Q [] := by
  rintro ⟨before, e, after, hnil, _⟩
  simp at hnil

theorem since_snoc : Since P Q (es ++ [e]) ↔ P e ∨ (Since P Q es ∧ ¬Q e) := by
  constructor
  · rintro ⟨before, f, after, hes, hP, hafter⟩
    rcases List.eq_nil_or_concat after with rfl | ⟨init, last, rfl⟩
    · obtain ⟨_, hlast⟩ := List.append_inj' hes rfl
      obtain rfl := (List.cons.inj hlast).1
      exact .inl hP
    · rw [List.concat_eq_append, ← List.cons_append, ← List.append_assoc] at hes
      obtain ⟨rfl, hlast⟩ := List.append_inj' hes rfl
      obtain rfl := (List.cons.inj hlast).1
      rw [List.concat_eq_append, List.forall_mem_append] at hafter
      exact .inr ⟨⟨before, f, init, rfl, hP, hafter.1⟩, hafter.2 e (List.mem_singleton_self e)⟩
  · rintro (hP | ⟨⟨before, f, after, rfl, hP, hafter⟩, hQ⟩)
    · exact ⟨es, e, [], rfl, hP, by simp⟩
    · refine ⟨before, f, after ++ [e], by simp, hP, ?_⟩
      intro g hg
      rcases List.mem_append.mp hg with hg | hg
      · exact hafter g hg
      · rw [List.mem_singleton.mp hg]
        exact hQ

/-- Events that have neither property do not matter. -/
theorem since_append_of_quiet (hquiet : ∀ f ∈ fs, ¬P f ∧ ¬Q f) :
    Since P Q (es ++ fs) ↔ Since P Q es := by
  induction fs generalizing es with
  | nil => rw [List.append_nil]
  | cons f fs ih =>
    obtain ⟨⟨hP, hQ⟩, hrest⟩ := List.forall_mem_cons.mp hquiet
    rw [List.append_cons, ih hrest, since_snoc]
    simp [hP, hQ]

end Since

/-! Steps that are calls: the label is the call and the reply it got. -/

variable {κ ρ ε' : Type*}

def CallStep (apply : σ → κ → Except ε' (σ × ρ)) (s : σ) (e : κ × ρ) (s' : σ) : Prop :=
  apply s e.1 = .ok (s', e.2)

/-- If admissible calls succeed wherever the invariant holds, every list of
admissible calls has a run. -/
theorem exists_run (apply : σ → κ → Except ε' (σ × ρ)) {P : σ → Prop} {Ok : κ → Prop}
    (hok : ∀ s c, P s → Ok c → ∃ s' r, apply s c = .ok (s', r) ∧ P s')
    (cs : List κ) (hcs : ∀ c ∈ cs, Ok c) {s : σ} (hs : P s) :
    ∃ es s', Run (CallStep apply) s es s' ∧ es.map Prod.fst = cs ∧ P s' := by
  induction cs generalizing s with
  | nil => exact ⟨[], s, .nil s, rfl, hs⟩
  | cons c cs ih =>
    obtain ⟨s', r, happ, hs'⟩ := hok s c hs (hcs c (List.mem_cons_self ..))
    obtain ⟨es, s'', hrun, hmap, hP⟩ :=
      ih (fun d hd => hcs d (List.mem_cons_of_mem _ hd)) hs'
    exact ⟨(c, r) :: es, s'', Run.cons happ hrun, by simp [hmap], hP⟩

end V5gdb.Transitions
