import Mathlib.Data.BitVec
import Mathlib.Tactic.Common

/-!
Little-endian byte strings of fixed-width words.
`toLe n v` is the low `n` bytes of `v`, least significant first, and `fromLe w`
assembles a `w`-bit word. The two are inverse when the width is exactly the
bits of the bytes, which is how every caller uses them.
-/
namespace V5gdb.LittleEndian

variable {w : ℕ}

def toLe (n : ℕ) (v : BitVec w) : List (BitVec 8) :=
  (List.range n).map fun i => v.extractLsb' (8 * i) 8

def fromLe (w : ℕ) : List (BitVec 8) → BitVec w
  | [] => 0
  | b :: bs => b.setWidth w ||| fromLe w bs <<< 8

@[simp] theorem length_toLe (n : ℕ) (v : BitVec w) : (toLe n v).length = n := by
  simp [toLe]

theorem getElem?_toLe {n i : ℕ} (v : BitVec w) (hi : i < n) :
    (toLe n v)[i]? = some (v.extractLsb' (8 * i) 8) := by
  simp [toLe, hi]

/-- Bit `i` of an assembled word is bit `i % 8` of byte `i / 8`. -/
theorem getLsbD_fromLe (bs : List (BitVec 8)) (i : ℕ) (hi : i < w) :
    (fromLe w bs).getLsbD i = (bs.getD (i / 8) 0).getLsbD (i % 8) := by
  induction bs generalizing i with
  | nil => simp [fromLe]
  | cons b bs ih =>
    by_cases hlow : i < 8
    · have hdiv : i / 8 = 0 := by omega
      have hmod : i % 8 = i := by omega
      simp [fromLe, hi, hlow, hdiv, hmod]
    · have hdiv : i / 8 = (i - 8) / 8 + 1 := by omega
      have hmod : i % 8 = (i - 8) % 8 := by omega
      have hb : b.getLsbD i = false := BitVec.getLsbD_of_ge _ _ (by omega)
      rw [hdiv, hmod, List.getD_cons_succ, ← ih (i - 8) (by omega)]
      simp only [fromLe, BitVec.getLsbD_or, BitVec.getLsbD_setWidth, BitVec.getLsbD_shiftLeft,
        hi, hlow, hb, decide_true, decide_false, Bool.and_false, Bool.false_or, Bool.not_false,
        Bool.true_and]

theorem fromLe_toLe {n : ℕ} (v : BitVec w) (hn : w ≤ 8 * n) : fromLe w (toLe n v) = v := by
  apply BitVec.eq_of_getLsbD_eq
  intro i hi
  have hbyte : i / 8 < n := by omega
  have hbit : i % 8 < 8 := Nat.mod_lt _ (by omega)
  rw [getLsbD_fromLe _ _ hi, List.getD_eq_getElem?_getD, getElem?_toLe v hbyte]
  simp [hbit, Nat.div_add_mod]

theorem toLe_fromLe (bs : List (BitVec 8)) (hw : 8 * bs.length ≤ w) :
    toLe bs.length (fromLe w bs) = bs := by
  apply List.ext_getElem?
  intro i
  by_cases hi : i < bs.length
  · rw [getElem?_toLe _ hi, List.getElem?_eq_getElem hi, Option.some.injEq]
    apply BitVec.eq_of_getLsbD_eq
    intro j hj
    have hdiv : (8 * i + j) / 8 = i := by omega
    have hmod : (8 * i + j) % 8 = j := by omega
    rw [BitVec.getLsbD_extractLsb', getLsbD_fromLe _ _ (by omega), hdiv, hmod]
    simp [hi, hj]
  · rw [List.getElem?_eq_none (by simpa using hi), List.getElem?_eq_none (by omega)]

theorem toLe_injective {n : ℕ} (hn : w ≤ 8 * n) :
    Function.Injective (toLe n : BitVec w → List (BitVec 8)) := by
  intro u v h
  rw [← fromLe_toLe u hn, h, fromLe_toLe v hn]

end V5gdb.LittleEndian
