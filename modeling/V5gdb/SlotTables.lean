import Mathlib.Data.Finset.Card
import Mathlib.Data.Finset.Image
import Mathlib.Data.Fintype.Fin

/-!
Tables of slots in which no key sits twice.
Such a table is a finite set of keys together with a place for each of them.
Filling a free slot inserts a key, clearing a slot erases the key it held, and
the number of keys is the number of occupied slots.
-/
namespace V5gdb.SlotTables

variable {n : ℕ} {κ : Type*}

structure Table (n : ℕ) (κ : Type*) where
  slot : Fin n → Option κ
  injective : ∀ i j k, slot i = some k → slot j = some k → i = j

namespace Table

def empty : Table n κ := ⟨fun _ => none, by simp⟩

def put (t : Table n κ) (i : Fin n) (k : κ) (h : ∀ j, t.slot j ≠ some k) : Table n κ where
  slot := Function.update t.slot i (some k)
  injective := by
    intro a b x ha hb
    by_cases hai : a = i <;> by_cases hbi : b = i
    · rw [hai, hbi]
    · subst hai
      rw [Function.update_self] at ha
      rw [Function.update_of_ne hbi, ← ha] at hb
      exact absurd hb (h b)
    · subst hbi
      rw [Function.update_self] at hb
      rw [Function.update_of_ne hai, ← hb] at ha
      exact absurd ha (h a)
    · rw [Function.update_of_ne hai] at ha
      rw [Function.update_of_ne hbi] at hb
      exact t.injective a b x ha hb

def clear (t : Table n κ) (i : Fin n) : Table n κ where
  slot := Function.update t.slot i none
  injective := by
    intro a b x ha hb
    have hai : a ≠ i := by
      rintro rfl
      simp at ha
    have hbi : b ≠ i := by
      rintro rfl
      simp at hb
    rw [Function.update_of_ne hai] at ha
    rw [Function.update_of_ne hbi] at hb
    exact t.injective a b x ha hb

theorem put_slot (t : Table n κ) (i j : Fin n) (k : κ) (h : ∀ j, t.slot j ≠ some k) :
    (t.put i k h).slot j = if j = i then some k else t.slot j := by
  simp only [put, Function.update_apply]

theorem clear_slot (t : Table n κ) (i j : Fin n) :
    (t.clear i).slot j = if j = i then none else t.slot j := by
  simp only [clear, Function.update_apply]

def keys (t : Table n κ) : Finset κ :=
  Finset.univ.filterMap t.slot fun a b x ha hb => t.injective a b x ha hb

def occupied (t : Table n κ) : Finset (Fin n) := Finset.univ.filter fun i => (t.slot i).isSome

theorem mem_keys {t : Table n κ} {k : κ} : k ∈ t.keys ↔ ∃ i, t.slot i = some k := by
  simp [keys]

theorem mem_occupied {t : Table n κ} {i : Fin n} : i ∈ t.occupied ↔ (t.slot i).isSome := by
  simp [occupied]

@[simp] theorem keys_empty : (empty : Table n κ).keys = ∅ := by
  ext k
  simp [mem_keys, empty]

theorem card_keys (t : Table n κ) : t.keys.card = t.occupied.card := by
  symm
  refine Finset.card_bij (fun i hi => (t.slot i).get (mem_occupied.mp hi)) ?_ ?_ ?_
  · intro i hi
    exact mem_keys.mpr ⟨i, (Option.some_get _).symm⟩
  · intro i hi j hj hij
    refine t.injective i j _ (Option.some_get (mem_occupied.mp hi)).symm ?_
    rw [hij]
    exact (Option.some_get _).symm
  · intro k hk
    obtain ⟨i, hi⟩ := mem_keys.mp hk
    exact ⟨i, mem_occupied.mpr (by simp [hi]), by simp [hi]⟩

section DecidableKeys

variable [DecidableEq κ]

theorem keys_put {t : Table n κ} {i : Fin n} {k : κ} (h : ∀ j, t.slot j ≠ some k)
    (hfree : t.slot i = none) : (t.put i k h).keys = insert k t.keys := by
  ext x
  rw [mem_keys, Finset.mem_insert, mem_keys]
  constructor
  · rintro ⟨j, hj⟩
    rw [put_slot] at hj
    split_ifs at hj with hji
    · exact Or.inl (Option.some.inj hj).symm
    · exact Or.inr ⟨j, hj⟩
  · rintro (rfl | ⟨j, hj⟩)
    · exact ⟨i, by rw [put_slot, if_pos rfl]⟩
    · refine ⟨j, ?_⟩
      rw [put_slot, if_neg, hj]
      rintro rfl
      rw [hfree] at hj
      cases hj

theorem keys_clear {t : Table n κ} {i : Fin n} {k : κ} (hk : t.slot i = some k) :
    (t.clear i).keys = t.keys.erase k := by
  ext x
  rw [mem_keys, Finset.mem_erase, mem_keys]
  constructor
  · rintro ⟨j, hj⟩
    rw [clear_slot] at hj
    split_ifs at hj with hji
    refine ⟨?_, j, hj⟩
    rintro rfl
    exact hji (t.injective j i _ hj hk)
  · rintro ⟨hx, j, hj⟩
    refine ⟨j, ?_⟩
    rw [clear_slot, if_neg, hj]
    rintro rfl
    rw [hk] at hj
    exact hx (Option.some.inj hj).symm

end DecidableKeys

/-! A table of which only the first `m` slots are ever filled. -/

variable {t : Table n κ} {m : ℕ}

def Below (t : Table n κ) (m : ℕ) : Prop := ∀ i, m ≤ i.val → t.slot i = none

theorem Below.put {i : Fin n} {k : κ} (hb : t.Below m) (h : ∀ j, t.slot j ≠ some k)
    (hi : i.val < m) : (t.put i k h).Below m := by
  intro j hj
  rw [put_slot, if_neg, hb j hj]
  rintro rfl
  omega

theorem Below.clear (hb : t.Below m) (i : Fin n) : (t.clear i).Below m := by
  intro j hj
  rw [clear_slot, hb j hj, ite_self]

theorem card_below (hm : m ≤ n) : (Finset.univ.filter fun i : Fin n => i.val < m).card = m := by
  rw [Fin.card_filter_val_lt]
  omega

theorem Below.occupied_subset (hb : t.Below m) :
    t.occupied ⊆ Finset.univ.filter fun i : Fin n => i.val < m := by
  intro i hi
  rw [Finset.mem_filter]
  refine ⟨Finset.mem_univ i, Nat.lt_of_not_le fun hmi => ?_⟩
  rw [mem_occupied, hb i hmi] at hi
  cases hi

theorem Below.card_le (hb : t.Below m) (hm : m ≤ n) : t.keys.card ≤ m := by
  rw [card_keys]
  refine Nat.le_trans (Finset.card_le_card hb.occupied_subset) ?_
  rw [card_below hm]

theorem Below.card_lt_of_free (hb : t.Below m) (hm : m ≤ n) {i : Fin n} (hi : i.val < m)
    (hfree : t.slot i = none) : t.keys.card < m := by
  rw [card_keys, ← card_below hm]
  refine Finset.card_lt_card ⟨hb.occupied_subset, fun hsub => ?_⟩
  have hmem := mem_occupied.mp (hsub (Finset.mem_filter.mpr ⟨Finset.mem_univ i, hi⟩))
  rw [hfree] at hmem
  cases hmem

theorem Below.card_eq_of_full (hb : t.Below m) (hm : m ≤ n)
    (hfull : ∀ i : Fin n, i.val < m → t.slot i ≠ none) : t.keys.card = m := by
  refine Nat.le_antisymm (hb.card_le hm) ?_
  rw [card_keys]
  have hsub : (Finset.univ.filter fun i : Fin n => i.val < m) ⊆ t.occupied := by
    intro i hi
    exact mem_occupied.mpr (Option.isSome_iff_ne_none.mpr (hfull i (Finset.mem_filter.mp hi).2))
  have hcard := Finset.card_le_card hsub
  rwa [card_below hm] at hcard

end Table
end V5gdb.SlotTables
