import Mathlib.Data.BitVec
import Mathlib.Tactic.Common

/-!
Byte-addressed memories over wrap-around addresses.
A range is a start address and a length; membership is measured by the
distance from the start, so ranges across the top of the address space need no
case of their own. Blocks of bytes are written and read whole, and all facts
about overlapping blocks reduce to membership in a range.
-/
namespace V5gdb.ByteMemory

variable {w : ℕ}

abbrev Mem (w : ℕ) := BitVec w → BitVec 8

/-- How far `x` lies above `a`, counting around the top of the address space. -/
def distance (a x : BitVec w) : ℕ := (x - a).toNat

def Within (a : BitVec w) (n : ℕ) (x : BitVec w) : Prop := distance a x < n

instance (a : BitVec w) (n : ℕ) (x : BitVec w) : Decidable (Within a n x) :=
  inferInstanceAs (Decidable (distance a x < n))

def Disjoint (a : BitVec w) (n : ℕ) (b : BitVec w) (m : ℕ) : Prop :=
  ∀ x, Within a n x → ¬ Within b m x

def write (m : Mem w) (a : BitVec w) (bs : List (BitVec 8)) : Mem w :=
  fun x => bs.getD (distance a x) (m x)

def read (m : Mem w) (a : BitVec w) (n : ℕ) : List (BitVec 8) :=
  (List.range n).map fun i => m (a + BitVec.ofNat w i)

@[simp] theorem distance_self (a : BitVec w) : distance a a = 0 := by
  simp [distance]

@[simp] theorem add_distance (a x : BitVec w) : a + BitVec.ofNat w (distance a x) = x := by
  rw [distance, BitVec.ofNat_toNat, BitVec.setWidth_eq, BitVec.add_comm, BitVec.sub_add_cancel]

theorem distance_add (a : BitVec w) {i : ℕ} (hi : i < 2 ^ w) :
    distance a (a + BitVec.ofNat w i) = i := by
  rw [distance, BitVec.add_comm, BitVec.add_sub_cancel, BitVec.toNat_ofNat, Nat.mod_eq_of_lt hi]

theorem within_self (a : BitVec w) {n : ℕ} (hn : 0 < n) : Within a n a := by
  simpa [Within] using hn

theorem within_one {a x : BitVec w} : Within a 1 x ↔ x = a := by
  constructor
  · intro h
    have h0 : distance a x = 0 := Nat.lt_one_iff.mp h
    rw [← add_distance a x, h0]
    exact BitVec.add_zero a
  · rintro rfl
    exact within_self x Nat.one_pos

theorem Within.mono {a x : BitVec w} {n m : ℕ} (h : Within a n x) (hnm : n ≤ m) :
    Within a m x := Nat.lt_of_lt_of_le h hnm

theorem within_add (a : BitVec w) {i n : ℕ} (hi : i < n) (hw : n ≤ 2 ^ w) :
    Within a n (a + BitVec.ofNat w i) := by
  rw [Within, distance_add a (by omega)]
  exact hi

theorem Disjoint.symm {a b : BitVec w} {n m : ℕ} (h : Disjoint a n b m) : Disjoint b m a n :=
  fun x hb ha => h x ha hb

@[simp] theorem length_read (m : Mem w) (a : BitVec w) (n : ℕ) : (read m a n).length = n := by
  simp [read]

theorem getElem?_read (m : Mem w) (a : BitVec w) {n i : ℕ} (hi : i < n) :
    (read m a n)[i]? = some (m (a + BitVec.ofNat w i)) := by
  simp [read, hi]

theorem write_of_not_within (m : Mem w) {a x : BitVec w} {bs : List (BitVec 8)}
    (h : ¬ Within a bs.length x) : write m a bs x = m x := by
  have hlen : bs.length ≤ distance a x := Nat.le_of_not_lt h
  simp [write, List.getElem?_eq_none hlen]

theorem getElem?_of_within (m : Mem w) {a x : BitVec w} {bs : List (BitVec 8)}
    (h : Within a bs.length x) : bs[distance a x]? = some (write m a bs x) := by
  have hlt : distance a x < bs.length := h
  simp [write, List.getElem?_eq_getElem hlt]

/-- A written byte does not depend on what the memory held. -/
theorem write_congr_within (m m' : Mem w) {a x : BitVec w} {bs : List (BitVec 8)}
    (h : Within a bs.length x) : write m a bs x = write m' a bs x := by
  have h1 := getElem?_of_within m h
  rw [getElem?_of_within m' h] at h1
  exact (Option.some.inj h1).symm

/-- Writing back a block read from `base` restores `base` on that block. -/
theorem write_read_of_within (m base : Mem w) {a x : BitVec w} {n : ℕ} (h : Within a n x) :
    write m a (read base a n) x = base x := by
  have hx : Within a (read base a n).length x := by simpa using h
  have hget := getElem?_of_within m hx
  rw [getElem?_read base a h, add_distance] at hget
  exact (Option.some.inj hget).symm

theorem write_read_of_not_within (m base : Mem w) {a x : BitVec w} {n : ℕ}
    (h : ¬ Within a n x) : write m a (read base a n) x = m x :=
  write_of_not_within m (by simpa using h)

/-- Reading depends only on the bytes of the range. -/
theorem read_congr {m m' : Mem w} {a : BitVec w} {n : ℕ} (hw : n ≤ 2 ^ w)
    (h : ∀ x, Within a n x → m x = m' x) : read m a n = read m' a n := by
  apply List.map_congr_left
  intro i hi
  exact h _ (within_add a (List.mem_range.mp hi) hw)

theorem read_write_self (m : Mem w) (a : BitVec w) {bs : List (BitVec 8)}
    (hw : bs.length ≤ 2 ^ w) : read (write m a bs) a bs.length = bs := by
  apply List.ext_getElem?
  intro i
  by_cases hi : i < bs.length
  · rw [getElem?_read _ a hi, ← getElem?_of_within m (within_add a hi hw),
      distance_add a (by omega)]
  · rw [List.getElem?_eq_none (by simpa using hi), List.getElem?_eq_none (by omega)]

theorem read_append (m : Mem w) (a : BitVec w) (n k : ℕ) :
    read m a (n + k) = read m a n ++ read m (a + BitVec.ofNat w n) k := by
  simp only [read, List.range_add, List.map_append, List.map_map]
  congr 1
  apply List.map_congr_left
  intro i _
  simp [BitVec.ofNat_add, BitVec.add_assoc]

/-- A write elsewhere does not change what is read. -/
theorem read_write_of_disjoint (m : Mem w) {a b : BitVec w} {n : ℕ} {bs : List (BitVec 8)}
    (hw : n ≤ 2 ^ w) (h : Disjoint a n b bs.length) : read (write m b bs) a n = read m a n :=
  read_congr hw fun x hx => write_of_not_within m (h x hx)

end V5gdb.ByteMemory
