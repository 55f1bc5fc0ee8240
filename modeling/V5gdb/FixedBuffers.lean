import Mathlib.Data.List.Basic
import Mathlib.Tactic.Common

/-!
A buffer of fixed length, read and written with checked indices.
An operation that would leave the buffer gives none. The facts about the operations
are stated on the list of the elements, cut at the place in question.
-/
namespace V5gdb.FixedBuffers

variable {α : Type*} {n : ℕ}

def store (buf : Vector α n) (i : ℕ) (x : α) : Option (Vector α n) :=
  if h : i < n then some (buf.set i x h) else none

/-- The last position that satisfies the predicate. -/
def rposition (p : α → Bool) : List α → Option ℕ
  | [] => none
  | x :: xs =>
    match rposition p xs with
    | some i => some (i + 1)
    | none => if p x then some 0 else none

def copyWithin (buf : Vector α n) (src dest : ℕ) : Option (Vector α n) :=
  if h : src ≤ n ∧ dest ≤ n - (n - src) then
    let bytes := buf.toList.take dest ++ buf.toList.drop src ++ buf.toList.drop (dest + (n - src))
    some ⟨bytes.toArray, by simp [bytes]; omega⟩
  else none

/-- The string that starts the buffer and ends before the first zero. -/
def cString [DecidableEq α] (zero : α) : List α → Option (List α)
  | [] => none
  | x :: xs => if x = zero then some [] else (cString zero xs).map (x :: ·)

theorem exists_store {buf : Vector α n} {xs ys : List α} {x : α}
    (h : buf.toList = xs ++ x :: ys) (y : α) :
    ∃ buf', store buf xs.length y = some buf' ∧ buf'.toList = xs ++ y :: ys := by
  have hlen : xs.length < n := by
    have htotal := congrArg List.length h
    rw [Vector.length_toList, List.length_append, List.length_cons] at htotal
    omega
  refine ⟨buf.set xs.length y hlen, dif_pos hlen, ?_⟩
  rw [Vector.toList_set, h, List.set_append_right _ _ (Nat.le_refl _), Nat.sub_self,
    List.set_cons_zero]

/-- Moving the rest of a buffer to the front leaves old elements behind it only. -/
theorem exists_copyWithin_front {buf : Vector α n} {xs ys : List α} (h : buf.toList = xs ++ ys) :
    ∃ buf', copyWithin buf xs.length 0 = some buf' ∧
      buf'.toList = ys ++ (xs ++ ys).drop ys.length := by
  have htotal : xs.length + ys.length = n := by
    rw [← List.length_append, ← h, Vector.length_toList]
  have hroom : xs.length ≤ n ∧ 0 ≤ n - (n - xs.length) := ⟨by omega, Nat.zero_le _⟩
  refine ⟨_, dif_pos hroom, ?_⟩
  have hmoved : n - xs.length = ys.length := by omega
  simp only [Vector.toList_mk, h, List.take_zero, List.nil_append, List.drop_left, Nat.zero_add,
    hmoved]

theorem rposition_eq_none {p : α → Bool} {xs : List α} (h : ∀ x ∈ xs, p x = false) :
    rposition p xs = none := by
  induction xs with
  | nil => rfl
  | cons x xs ih =>
    rw [rposition, ih fun y hy => h y (List.mem_cons_of_mem x hy)]
    simp [h x List.mem_cons_self]

theorem rposition_eq_some {p : α → Bool} {xs ys : List α} {x : α} (hx : p x = true)
    (hys : ∀ y ∈ ys, p y = false) : rposition p (xs ++ x :: ys) = some xs.length := by
  induction xs with
  | nil => simp [rposition, rposition_eq_none hys, hx]
  | cons z zs ih => simp [rposition, ih]

/-- Cutting a list at the last element that satisfies the predicate. -/
theorem exists_last_or_forall (p : α → Bool) (xs : List α) :
    (∀ x ∈ xs, p x = false) ∨
      ∃ front x back, xs = front ++ x :: back ∧ p x = true ∧ ∀ y ∈ back, p y = false := by
  induction xs with
  | nil => exact Or.inl (by simp)
  | cons x xs ih =>
    rcases ih with hnone | ⟨front, y, back, rfl, hy, hback⟩
    · cases hx : p x with
      | true => exact Or.inr ⟨[], x, xs, rfl, hx, hnone⟩
      | false =>
        refine Or.inl fun y hy => ?_
        rcases List.mem_cons.mp hy with rfl | hmem
        · exact hx
        · exact hnone y hmem
    · exact Or.inr ⟨x :: front, y, back, rfl, hy, hback⟩

theorem cString_append [DecidableEq α] {zero : α} {xs : List α} (h : zero ∉ xs) (ys : List α) :
    cString zero (xs ++ zero :: ys) = some xs := by
  induction xs with
  | nil => simp [cString]
  | cons x xs ih =>
    have hx : x ≠ zero := fun heq => h (heq ▸ List.mem_cons_self)
    have hrest : zero ∉ xs := fun hmem => h (List.mem_cons_of_mem x hmem)
    rw [List.cons_append, cString, if_neg hx, ih hrest]
    rfl

end V5gdb.FixedBuffers
