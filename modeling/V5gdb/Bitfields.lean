import Mathlib.Data.BitVec
import Mathlib.Tactic.Common

/-!
Bit fields of a fixed-width register.
A field is a low bit and a width. Setting a field keeps every other bit, so a
register written field by field is determined by the last value of each field
and by the bits that belong to none of them.
-/
namespace V5gdb.Bitfields

variable {w len len' : ℕ}

def field (lo len : ℕ) (v : BitVec w) : BitVec len := v.extractLsb' lo len

def fieldMask (w lo len : ℕ) : BitVec w := (BitVec.allOnes len).setWidth w <<< lo

def setField (lo : ℕ) (v : BitVec w) (x : BitVec len) : BitVec w :=
  (v &&& ~~~fieldMask w lo len) ||| (x.setWidth w <<< lo)

theorem getLsbD_field (lo len : ℕ) (v : BitVec w) (i : ℕ) :
    (field lo len v).getLsbD i = (decide (i < len) && v.getLsbD (lo + i)) :=
  BitVec.getLsbD_extractLsb' ..

/-- Inside the field the new value, outside it the old register. -/
theorem getLsbD_setField (lo : ℕ) (v : BitVec w) (x : BitVec len) (i : ℕ) (hi : i < w) :
    (setField lo v x).getLsbD i =
      if lo ≤ i ∧ i < lo + len then x.getLsbD (i - lo) else v.getLsbD i := by
  have hmask : (fieldMask w lo len).getLsbD i = decide (lo ≤ i ∧ i < lo + len) := by
    by_cases hlo : lo ≤ i
    · have hlen : i - lo < len ↔ i < lo + len := by omega
      simp only [fieldMask, BitVec.getLsbD_shiftLeft, BitVec.getLsbD_setWidth,
        BitVec.getLsbD_allOnes, hi, hlo, hlen, decide_true, Nat.not_lt.mpr hlo, decide_false,
        Bool.not_false, Bool.true_and, true_and]
      simp [show i - lo < w by omega]
    · simp [fieldMask, hlo, Nat.lt_of_not_le hlo]
  have hnew : (x.setWidth w <<< lo).getLsbD i = (decide (lo ≤ i) && x.getLsbD (i - lo)) := by
    by_cases hlo : lo ≤ i
    · simp only [BitVec.getLsbD_shiftLeft, BitVec.getLsbD_setWidth, hi, hlo,
        Nat.not_lt.mpr hlo, decide_true, decide_false, Bool.not_false, Bool.true_and]
      simp [show i - lo < w by omega]
    · simp [hlo, Nat.lt_of_not_le hlo]
  simp only [setField, BitVec.getLsbD_or, BitVec.getLsbD_and, BitVec.getLsbD_not, hi, hmask, hnew]
  by_cases hin : lo ≤ i ∧ i < lo + len
  · simp [hin]
  · by_cases hlo : lo ≤ i
    · have hx : x.getLsbD (i - lo) = false := BitVec.getLsbD_of_ge _ _ (by omega)
      simp [hin, hx]
    · simp [hlo]

theorem field_setField_self {lo : ℕ} (v : BitVec w) (x : BitVec len) (hw : lo + len ≤ w) :
    field lo len (setField lo v x) = x := by
  apply BitVec.eq_of_getLsbD_eq
  intro i hi
  rw [getLsbD_field, getLsbD_setField _ _ _ _ (by omega), if_pos (by omega)]
  simp [hi]

theorem field_setField_of_disjoint {lo lo' : ℕ} (v : BitVec w) (x : BitVec len')
    (hw : lo + len ≤ w) (h : lo + len ≤ lo' ∨ lo' + len' ≤ lo) :
    field lo len (setField lo' v x) = field lo len v := by
  apply BitVec.eq_of_getLsbD_eq
  intro i hi
  rw [getLsbD_field, getLsbD_field, getLsbD_setField _ _ _ _ (by omega), if_neg (by omega)]

/-! Fields of a word that is put together from parts. -/

variable {a b lo : ℕ}

theorem field_append_low (x : BitVec a) (y : BitVec b) (h : lo + len ≤ b) :
    field lo len (x ++ y) = field lo len y := BitVec.extractLsb'_append_eq_of_add_le h

theorem field_append_high (x : BitVec a) (y : BitVec b) (h : b ≤ lo) :
    field lo len (x ++ y) = field (lo - b) len x := BitVec.extractLsb'_append_eq_of_le h

theorem field_self (v : BitVec w) : field 0 w v = v := BitVec.extractLsb'_eq_self

/-- Clearing the low bits rounds down. -/
theorem toNat_clear_low {k : ℕ} (v mask : BitVec w)
    (hmask : ∀ i < w, mask.getLsbD i = decide (i < k)) :
    (v &&& ~~~mask).toNat = v.toNat / 2 ^ k * 2 ^ k := by
  have hshift : v &&& ~~~mask = (v >>> k) <<< k := by
    apply BitVec.eq_of_getLsbD_eq
    intro i hi
    rw [BitVec.getLsbD_and, BitVec.getLsbD_not, hmask i hi, BitVec.getLsbD_shiftLeft,
      BitVec.getLsbD_ushiftRight]
    by_cases hk : i < k
    · simp [hk]
    · simp [hk, hi, show k + (i - k) = i by omega]
  have hlt : v.toNat / 2 ^ k * 2 ^ k < 2 ^ w :=
    (Nat.div_mul_le_self v.toNat (2 ^ k)).trans_lt v.isLt
  rw [hshift, BitVec.toNat_shiftLeft, BitVec.toNat_ushiftRight, Nat.shiftRight_eq_div_pow,
    Nat.shiftLeft_eq, Nat.mod_eq_of_lt hlt]

end V5gdb.Bitfields
