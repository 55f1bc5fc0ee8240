import V5gdb.ByteMemory
import V5gdb.LittleEndian

/-!
Words and blocks of words in a byte-addressed memory.
Words are four bytes, little endian. A block is stored and copied whole; inside a
block the place of a word is its distance from the start, so facts about two
words of one block are facts about numbers.
-/
namespace V5gdb.ByteMemory

open LittleEndian

variable {w : ℕ}

/-- Inside a block the distance from its start is the offset and what is left of it. -/
theorem distance_of_within_add {a x : BitVec w} {i n : ℕ} (hin : i + n ≤ 2 ^ w)
    (h : Within (a + BitVec.ofNat w i) n x) :
    distance a x = i + distance (a + BitVec.ofNat w i) x := by
  have hx : a + BitVec.ofNat w (i + distance (a + BitVec.ofNat w i) x) = x := by
    rw [BitVec.ofNat_add, ← BitVec.add_assoc, add_distance]
  have hlt : distance (a + BitVec.ofNat w i) x < n := h
  conv_lhs => rw [← hx]
  exact distance_add a (by omega)

theorem Within.of_add {a x : BitVec w} {i n k : ℕ} (hk : k ≤ 2 ^ w) (hin : i + n ≤ k)
    (h : Within (a + BitVec.ofNat w i) n x) : Within a k x := by
  have hlt : distance (a + BitVec.ofNat w i) x < n := h
  have heq := distance_of_within_add (by omega) h
  rw [Within]
  omega

/-- Two parts of one block that do not overlap. -/
theorem disjoint_in_block {a : BitVec w} {i j n m : ℕ} (hn : i + n ≤ 2 ^ w) (hm : j + m ≤ 2 ^ w)
    (h : i + n ≤ j ∨ j + m ≤ i) :
    Disjoint (a + BitVec.ofNat w i) n (a + BitVec.ofNat w j) m := by
  intro x hx hx'
  have hlt : distance (a + BitVec.ofNat w i) x < n := hx
  have hlt' : distance (a + BitVec.ofNat w j) x < m := hx'
  have heq := distance_of_within_add hn hx
  have heq' := distance_of_within_add hm hx'
  omega

/-- A block and the one after it are written as one. -/
theorem write_append (m : Mem w) (a : BitVec w) {xs ys : List (BitVec 8)}
    (hw : xs.length + ys.length ≤ 2 ^ w) :
    write (write m a xs) (a + BitVec.ofNat w xs.length) ys = write m a (xs ++ ys) := by
  funext x
  by_cases hy : Within (a + BitVec.ofNat w xs.length) ys.length x
  · have hin : Within a (xs ++ ys).length x := by
      rw [List.length_append]
      exact hy.of_add hw le_rfl
    have hbyte := getElem?_of_within m hin
    rw [distance_of_within_add hw hy, List.getElem?_append_right (by omega),
      Nat.add_sub_cancel_left, getElem?_of_within (write m a xs) hy] at hbyte
    exact Option.some.inj hbyte
  · rw [write_of_not_within _ hy]
    by_cases hx : Within a xs.length x
    · have hbyte := getElem?_of_within m (hx.mono (m := (xs ++ ys).length) (by simp))
      rw [List.getElem?_append_left hx, getElem?_of_within m hx] at hbyte
      exact Option.some.inj hbyte
    · rw [write_of_not_within m hx, write_of_not_within m]
      intro hin
      have hge : xs.length ≤ distance a x := Nat.le_of_not_lt hx
      have hlt : distance a x < (xs ++ ys).length := hin
      rw [List.length_append] at hlt
      have hplace : a + BitVec.ofNat w xs.length +
          BitVec.ofNat w (distance a x - xs.length) = x := by
        rw [BitVec.add_assoc, ← BitVec.ofNat_add, Nat.add_sub_cancel' hge, add_distance]
      refine hy ?_
      rw [← hplace]
      exact within_add _ (by omega) (by omega)

/-- A part of a block does not overlap what the block does not overlap. -/
theorem Disjoint.part {a b : BitVec w} {i n k m : ℕ} (hk : k ≤ 2 ^ w) (hin : i + n ≤ k)
    (h : Disjoint a k b m) : Disjoint (a + BitVec.ofNat w i) n b m :=
  fun x hx => h x (hx.of_add hk hin)

theorem disjoint_of_toNat_le {a b : BitVec w} {n m : ℕ} (h : a.toNat + n ≤ b.toNat)
    (hm : b.toNat + m ≤ 2 ^ w) : Disjoint a n b m := by
  have hb : b = 0#w + BitVec.ofNat w b.toNat := by simp
  have ha : a = 0#w + BitVec.ofNat w a.toNat := by simp
  rw [ha, hb]
  exact disjoint_in_block (by omega) (by omega) (by omega)

/-- The same bytes at another place, as `memmove` leaves them. -/
def copy (m : Mem w) (src dst : BitVec w) (n : ℕ) : Mem w := write m dst (read m src n)

theorem copy_at (m : Mem w) (src dst : BitVec w) {i n : ℕ} (hn : n ≤ 2 ^ w) (hi : i < n) :
    copy m src dst n (dst + BitVec.ofNat w i) = m (src + BitVec.ofNat w i) := by
  have hwithin : Within dst (read m src n).length (dst + BitVec.ofNat w i) := by
    rw [length_read]
    exact within_add dst hi hn
  have hget := getElem?_of_within m hwithin
  rw [distance_add dst (by omega), getElem?_read m src hi] at hget
  exact (Option.some.inj hget).symm

theorem copy_of_not_within (m : Mem w) {src dst x : BitVec w} {n : ℕ} (h : ¬ Within dst n x) :
    copy m src dst n x = m x :=
  write_of_not_within m (by rwa [length_read])

def loadWord (m : Mem w) (a : BitVec w) : BitVec 32 := fromLe 32 (read m a 4)

def storeWord (m : Mem w) (a : BitVec w) (v : BitVec 32) : Mem w := write m a (toLe 4 v)

def storeWords (m : Mem w) : BitVec w → List (BitVec 32) → Mem w
  | _, [] => m
  | a, v :: vs => storeWord (storeWords m (a + 4) vs) a v

def doubleWords (v : BitVec 64) : List (BitVec 32) := [v.setWidth 32, (v >>> 32).setWidth 32]

def loadDouble (m : Mem w) (a : BitVec w) : BitVec 64 :=
  (loadWord m (a + 4) ++ loadWord m a : BitVec (32 + 32))

theorem loadWord_congr {m m' : Mem w} {a : BitVec w} (hw : 4 ≤ 2 ^ w)
    (h : ∀ x, Within a 4 x → m x = m' x) : loadWord m a = loadWord m' a := by
  rw [loadWord, loadWord, read_congr hw h]

theorem loadWord_storeWord_self (m : Mem w) (a : BitVec w) (v : BitVec 32) (hw : 4 ≤ 2 ^ w) :
    loadWord (storeWord m a v) a = v := by
  have hread : read (write m a (toLe 4 v)) a (toLe 4 v).length = toLe 4 v :=
    read_write_self m a (by simpa using hw)
  rw [length_toLe] at hread
  rw [loadWord, storeWord, hread]
  exact fromLe_toLe v (by omega)

theorem storeWord_of_not_within (m : Mem w) {a x : BitVec w} (v : BitVec 32)
    (h : ¬ Within a 4 x) : storeWord m a v x = m x :=
  write_of_not_within m (by rwa [length_toLe])

theorem loadWord_storeWord_of_disjoint (m : Mem w) {a b : BitVec w} (v : BitVec 32)
    (hw : 4 ≤ 2 ^ w) (h : Disjoint b 4 a 4) : loadWord (storeWord m a v) b = loadWord m b :=
  loadWord_congr hw fun x hx => storeWord_of_not_within m v (h x hx)

theorem add_four (a : BitVec w) : a + 4 = a + BitVec.ofNat w 4 := rfl

theorem add_ofNat_add (a : BitVec w) (i j : ℕ) :
    a + BitVec.ofNat w i + BitVec.ofNat w j = a + BitVec.ofNat w (i + j) := by
  rw [BitVec.add_assoc, ← BitVec.ofNat_add]

/-- Blocks one above the other are one block. -/
theorem storeWords_append (m : Mem w) (a : BitVec w) (us vs : List (BitVec 32)) :
    storeWords m a (us ++ vs) =
      storeWords (storeWords m (a + BitVec.ofNat w (4 * us.length)) vs) a us := by
  induction us generalizing a with
  | nil => simp [storeWords]
  | cons u us ih =>
    have hplace : a + 4 + BitVec.ofNat w (4 * us.length) =
        a + BitVec.ofNat w (4 * (us.length + 1)) := by
      rw [add_four, add_ofNat_add]
      congr 2
      omega
    rw [List.cons_append, storeWords, ih, storeWords, List.length_cons, hplace]

theorem storeWords_of_not_within (m : Mem w) {a x : BitVec w} {vs : List (BitVec 32)}
    (hlen : 4 * vs.length ≤ 2 ^ w) (h : ¬ Within a (4 * vs.length) x) :
    storeWords m a vs x = m x := by
  induction vs generalizing a with
  | nil => rfl
  | cons v vs ih =>
    rw [List.length_cons] at hlen h
    rw [storeWords, storeWord_of_not_within]
    · apply ih (by omega)
      rw [add_four]
      exact fun hin => h (hin.of_add hlen (by omega))
    · exact fun hin => h (hin.mono (by omega))

theorem loadWord_storeWords_of_disjoint (m : Mem w) {a b : BitVec w} {vs : List (BitVec 32)}
    (hw : 4 ≤ 2 ^ w) (hlen : 4 * vs.length ≤ 2 ^ w) (h : Disjoint b 4 a (4 * vs.length)) :
    loadWord (storeWords m a vs) b = loadWord m b :=
  loadWord_congr hw fun x hx => storeWords_of_not_within m hlen (h x hx)

theorem loadDouble_congr {m m' : Mem w} {a : BitVec w} (hw : 8 ≤ 2 ^ w)
    (h : ∀ x, Within a 8 x → m x = m' x) : loadDouble m a = loadDouble m' a := by
  have hlow : loadWord m a = loadWord m' a :=
    loadWord_congr (by omega) fun x hx => h x (hx.mono (by omega))
  have hhigh : loadWord m (a + 4) = loadWord m' (a + 4) := by
    rw [add_four]
    exact loadWord_congr (by omega) fun x hx => h x (hx.of_add hw (by omega))
  rw [loadDouble, loadDouble, hlow, hhigh]

/-- Each word of a stored block is found at its place. -/
theorem loadWord_storeWords (m : Mem w) (a : BitVec w) {vs : List (BitVec 32)} {k : ℕ}
    {v : BitVec 32} (hlen : 4 * vs.length ≤ 2 ^ w) (hv : vs[k]? = some v) :
    loadWord (storeWords m a vs) (a + BitVec.ofNat w (4 * k)) = v := by
  induction vs generalizing a k with
  | nil => cases hv
  | cons u vs ih =>
    rw [List.length_cons] at hlen
    cases k with
    | zero =>
      obtain rfl := Option.some.inj hv
      rw [Nat.mul_zero, storeWords, show a + BitVec.ofNat w 0 = a from BitVec.add_zero a]
      exact loadWord_storeWord_self _ a u (by omega)
    | succ k =>
      rw [List.getElem?_cons_succ] at hv
      have hk : k < vs.length := (List.getElem?_eq_some_iff.mp hv).1
      have hplace : a + BitVec.ofNat w (4 * (k + 1)) = a + 4 + BitVec.ofNat w (4 * k) := by
        rw [add_four, BitVec.add_assoc, ← BitVec.ofNat_add]
        congr 2
        omega
      have hself : a = a + BitVec.ofNat w 0 := (BitVec.add_zero a).symm
      rw [storeWords, loadWord_storeWord_of_disjoint _ _ (by omega), hplace]
      · exact ih (a + 4) (by omega) hv
      · conv => arg 3; rw [hself]
        exact disjoint_in_block (by omega) (by omega) (by omega)

theorem append_doubleWords (v : BitVec 64) :
    ((v >>> 32).setWidth 32 ++ v.setWidth 32 : BitVec (32 + 32)) = v := by
  apply BitVec.eq_of_getLsbD_eq
  intro i hi
  rw [BitVec.getLsbD_append]
  by_cases hlow : i < 32
  · simp [hlow]
  · have hback : 32 + (i - 32) = i := by omega
    have hhigh : i - 32 < 32 := by omega
    simp [hlow, hhigh, hback]

theorem getElem?_flatMap_doubleWords {ι : Type*} (is : List ι) (f : ι → BitVec 64) (k : ℕ) :
    (is.flatMap fun i => doubleWords (f i))[2 * k]? = is[k]?.map (fun i => (f i).setWidth 32) ∧
      (is.flatMap fun i => doubleWords (f i))[2 * k + 1]? =
        is[k]?.map (fun i => (f i >>> 32).setWidth 32) := by
  induction is generalizing k with
  | nil => simp
  | cons i is ih =>
    cases k with
    | zero => simp [doubleWords]
    | succ k =>
      rw [List.flatMap_cons, doubleWords, Nat.mul_succ]
      exact ih k

def HoldsWords (m : Mem w) (a : BitVec w) (vs : List (BitVec 32)) : Prop :=
  ∀ k v, vs[k]? = some v → loadWord m (a + BitVec.ofNat w (4 * k)) = v

theorem holdsWords_storeWords (m : Mem w) (a : BitVec w) {vs : List (BitVec 32)}
    (hlen : 4 * vs.length ≤ 2 ^ w) : HoldsWords (storeWords m a vs) a vs :=
  fun _ _ hv => loadWord_storeWords m a hlen hv

/-- Two words that are a double word. -/
theorem HoldsWords.loadDouble {m : Mem w} {a : BitVec w} {vs : List (BitVec 32)}
    (h : HoldsWords m a vs) {k : ℕ} {v : BitVec 64} (hlow : vs[k]? = some (v.setWidth 32))
    (hhigh : vs[k + 1]? = some ((v >>> 32).setWidth 32)) :
    loadDouble m (a + BitVec.ofNat w (4 * k)) = v := by
  rw [ByteMemory.loadDouble, add_four, add_ofNat_add, h k _ hlow,
    show 4 * k + 4 = 4 * (k + 1) by omega, h (k + 1) _ hhigh]
  exact append_doubleWords v

theorem HoldsWords.congr {m m' : Mem w} {a : BitVec w} {vs : List (BitVec 32)}
    (h : HoldsWords m a vs) (hlen : 4 * vs.length ≤ 2 ^ w)
    (heq : ∀ x, Within a (4 * vs.length) x → m' x = m x) : HoldsWords m' a vs := by
  intro k v hv
  have hk : k < vs.length := (List.getElem?_eq_some_iff.mp hv).1
  rw [← h k v hv]
  exact loadWord_congr (by omega) fun x hx => heq x (hx.of_add hlen (by omega))

theorem holdsWords_append {m : Mem w} {a : BitVec w} {us vs : List (BitVec 32)} :
    HoldsWords m a (us ++ vs) ↔
      HoldsWords m a us ∧ HoldsWords m (a + BitVec.ofNat w (4 * us.length)) vs := by
  constructor
  · intro h
    constructor
    · intro k v hv
      have hk : k < us.length := (List.getElem?_eq_some_iff.mp hv).1
      exact h k v (by rw [List.getElem?_append_left hk, hv])
    · intro k v hv
      rw [add_ofNat_add, ← Nat.mul_add]
      exact h _ v (by rw [List.getElem?_append_right (by omega), Nat.add_sub_cancel_left, hv])
  · rintro ⟨hleft, hright⟩ k v hv
    by_cases hk : k < us.length
    · rw [List.getElem?_append_left hk] at hv
      exact hleft k v hv
    · rw [List.getElem?_append_right (by omega)] at hv
      have hword := hright _ v hv
      rw [add_ofNat_add, ← Nat.mul_add] at hword
      rwa [show us.length + (k - us.length) = k by omega] at hword

/-- A block that is stored right below words lies on top of them. -/
theorem HoldsWords.storeWords {m : Mem w} {a : BitVec w} {us vs : List (BitVec 32)}
    (h : HoldsWords m (a + BitVec.ofNat w (4 * us.length)) vs)
    (hlen : 4 * (us ++ vs).length ≤ 2 ^ w) : HoldsWords (storeWords m a us) a (us ++ vs) := by
  rw [List.length_append] at hlen
  refine holdsWords_append.mpr ⟨holdsWords_storeWords m a (by omega), ?_⟩
  refine h.congr (by omega) fun x hx => storeWords_of_not_within m (by omega) ?_
  have hself : a = a + BitVec.ofNat w 0 := (BitVec.add_zero a).symm
  conv => arg 1; arg 1; rw [hself]
  exact disjoint_in_block (by omega) (by omega) (by omega) x hx

theorem loadWord_copy (m : Mem w) (src dst : BitVec w) {i n : ℕ} (hn : n ≤ 2 ^ w)
    (hi : i + 4 ≤ n) :
    loadWord (copy m src dst n) (dst + BitVec.ofNat w i) =
      loadWord m (src + BitVec.ofNat w i) := by
  have hread : read (copy m src dst n) (dst + BitVec.ofNat w i) 4 =
      read m (src + BitVec.ofNat w i) 4 := by
    apply List.map_congr_left
    intro j hj
    have hj4 := List.mem_range.mp hj
    rw [BitVec.add_assoc, BitVec.add_assoc, ← BitVec.ofNat_add]
    exact copy_at m src dst hn (by omega)
  rw [loadWord, loadWord, hread]

theorem loadWord_copy_of_disjoint (m : Mem w) {src dst b : BitVec w} {n : ℕ} (hw : 4 ≤ 2 ^ w)
    (h : Disjoint b 4 dst n) : loadWord (copy m src dst n) b = loadWord m b :=
  loadWord_congr hw fun x hx => copy_of_not_within m (h x hx)

end V5gdb.ByteMemory
