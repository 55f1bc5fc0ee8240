import Mathlib.Data.List.FinRange
import Mathlib.Data.Fintype.Basic
import Mathlib.Logic.Function.Basic

/-!
Loops over the slots of a fixed-size table.
`sweep` visits every slot in order and threads a state; `scan` looks for a slot
that answers a probe and remembers the first free slot it passes. The rules
below are what the callers use in place of unfolding either loop.
-/
namespace V5gdb.SlotLoops

variable {n : ℕ} {σ β : Type*}

def sweep (f : σ → Fin n → σ) (s : σ) : σ := (List.finRange n).foldl f s

/-- Loop rule: `P k` holds once the first `k` slots have been visited. -/
theorem sweep_induction {f : σ → Fin n → σ} {s : σ} (P : ℕ → σ → Prop) (h0 : P 0 s)
    (hstep : ∀ (i : Fin n) t, P i.val t → P (i.val + 1) (f t i)) : P n (sweep f s) := by
  have aux : ∀ k, k ≤ n → P k (((List.finRange n).take k).foldl f s) := by
    intro k
    induction k with
    | zero => intro _; simpa using h0
    | succ k ih =>
      intro hk
      have hlt : k < (List.finRange n).length := by
        rw [List.length_finRange]
        exact hk
      rw [List.take_succ_eq_append_getElem hlt, List.foldl_append]
      have hget : (List.finRange n)[k] = ⟨k, hk⟩ := by simp
      rw [hget]
      exact hstep ⟨k, hk⟩ _ (ih (by omega))
  have hall := aux n (Nat.le_refl n)
  rwa [List.take_of_length_le (by simp)] at hall

/-- A sweep in which only slot `i` has any work to do is that one visit. -/
theorem sweep_single {f : σ → Fin n → σ} {s : σ} (i : Fin n)
    (hbefore : ∀ j, j ≠ i → f s j = s) (hafter : ∀ j, j ≠ i → f (f s i) j = f s i) :
    sweep f s = f s i := by
  have h := sweep_induction (f := f) (s := s)
    (fun k t => t = if k ≤ i.val then s else f s i) (by simp) (by
      intro j t ht
      by_cases hj : j = i
      · subst hj
        rw [if_pos (Nat.le_refl _)] at ht
        rw [if_neg (by omega), ht]
      · have hne : j.val ≠ i.val := fun h => hj (Fin.ext h)
        by_cases hle : j.val ≤ i.val
        · rw [if_pos hle] at ht
          rw [if_pos (by omega), ht, hbefore j hj]
        · rw [if_neg hle] at ht
          rw [if_neg (by omega), ht, hafter j hj])
  simpa [Nat.not_le.mpr i.isLt] using h

theorem sweep_idle {f : σ → Fin n → σ} {s : σ} (h : ∀ j, f s j = s) : sweep f s = s := by
  refine sweep_induction (fun _ t => t = s) rfl ?_
  intro j t ht
  rw [ht, h j]

def below (n k : ℕ) : List (Fin n) := (List.finRange n).filter fun i => i.val < k

theorem mem_below {k : ℕ} {i : Fin n} : i ∈ below n k ↔ i.val < k := by
  simp [below]

/-- A loop over the first `k` slots is a sweep that skips the others. -/
theorem foldl_below (f : σ → Fin n → σ) (k : ℕ) (s : σ) :
    (below n k).foldl f s = sweep (fun t i => if i.val < k then f t i else t) s := by
  simp [below, sweep, List.foldl_filter]

/-- What a scan found: the first slot that answers, or else the first free one. -/
inductive Scan (n : ℕ) (β : Type*)
  | hit (i : Fin n) (b : β)
  | miss (free : Option (Fin n))

def scan (probe : Fin n → Option β) (free : Fin n → Bool) :
    Option (Fin n) → List (Fin n) → Scan n β
  | next, [] => .miss next
  | next, i :: rest =>
    match probe i with
    | some b => .hit i b
    | none => scan probe free (if free i && next.isNone then some i else next) rest

variable {probe : Fin n → Option β} {free : Fin n → Bool}

theorem scan_hit {next : Option (Fin n)} {l : List (Fin n)} {i : Fin n} {b : β}
    (h : scan probe free next l = .hit i b) : i ∈ l ∧ probe i = some b := by
  induction l generalizing next with
  | nil => simp [scan] at h
  | cons j rest ih =>
    simp only [scan] at h
    cases hj : probe j with
    | some c =>
      rw [hj] at h
      obtain ⟨rfl, rfl⟩ := Scan.hit.inj h
      exact ⟨List.mem_cons_self .., hj⟩
    | none =>
      rw [hj] at h
      exact ⟨List.mem_cons_of_mem _ (ih h).1, (ih h).2⟩

theorem scan_miss {next : Option (Fin n)} {l : List (Fin n)} {r : Option (Fin n)}
    (h : scan probe free next l = .miss r) : ∀ i ∈ l, probe i = none := by
  induction l generalizing next with
  | nil => simp
  | cons j rest ih =>
    simp only [scan] at h
    cases hj : probe j with
    | some c => rw [hj] at h; cases h
    | none =>
      rw [hj] at h
      intro i hi
      rcases List.mem_cons.mp hi with rfl | hi
      · exact hj
      · exact ih h i hi

/-- A slot reported free is free, unless it was handed in already. -/
theorem scan_miss_some {next : Option (Fin n)} {l : List (Fin n)} {i : Fin n}
    (h : scan probe free next l = .miss (some i)) : next = some i ∨ i ∈ l ∧ free i = true := by
  induction l generalizing next with
  | nil => exact Or.inl (Scan.miss.inj h)
  | cons j rest ih =>
    simp only [scan] at h
    cases hj : probe j with
    | some c => rw [hj] at h; cases h
    | none =>
      rw [hj] at h
      rcases ih h with hnext | ⟨hmem, hfree⟩
      · split_ifs at hnext with hcond
        · obtain rfl := Option.some.inj hnext
          simp only [Bool.and_eq_true] at hcond
          exact Or.inr ⟨List.mem_cons_self .., hcond.1⟩
        · exact Or.inl hnext
      · exact Or.inr ⟨List.mem_cons_of_mem _ hmem, hfree⟩

theorem scan_miss_none {next : Option (Fin n)} {l : List (Fin n)}
    (h : scan probe free next l = .miss none) : next = none ∧ ∀ i ∈ l, free i = false := by
  induction l generalizing next with
  | nil => exact ⟨Scan.miss.inj h, by simp⟩
  | cons j rest ih =>
    simp only [scan] at h
    cases hj : probe j with
    | some c => rw [hj] at h; cases h
    | none =>
      rw [hj] at h
      obtain ⟨hnext, hrest⟩ := ih h
      split_ifs at hnext with hcond
      have hj' : free j = false := by simpa [hnext] using hcond
      refine ⟨hnext, ?_⟩
      intro i hi
      rcases List.mem_cons.mp hi with rfl | hi
      · exact hj'
      · exact hrest i hi

end V5gdb.SlotLoops
