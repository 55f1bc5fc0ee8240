import V5gdb.Startup

/-!
Which bytes the section loop lets through.
A range has a longest prefix that can be accessed. The loop finds it, but for
ranges that end with the address space: the end of such a range is rounded down
to the highest address, so the byte there is never counted.
-/
namespace V5gdb

open ByteMemory RecordLayouts

/-- The bytes from `start` on that can be accessed without faulting, up to `n`. -/
def accessiblePrefix (t : TranslationTable) (start : Addr) (n : ℕ) (isWrite : Bool) : ℕ :=
  ((List.range n).takeWhile fun i => t.canAccess (start + BitVec.ofNat 32 i) isWrite).length

/-- The prefix in one piece: all of it can be accessed, and the byte after it cannot. -/
structure IsAccessiblePrefix (t : TranslationTable) (start : Addr) (n : ℕ) (isWrite : Bool)
    (k : ℕ) : Prop where
  le : k ≤ n
  allowed : ∀ i < k, t.canAccess (start + BitVec.ofNat 32 i) isWrite = true
  maximal : k < n → t.canAccess (start + BitVec.ofNat 32 k) isWrite = false

theorem takeWhile_range_length (p : ℕ → Bool) {n k : ℕ} (hle : k ≤ n) (hall : ∀ i < k, p i = true)
    (hmax : k < n → p k = false) : ((List.range n).takeWhile p).length = k := by
  obtain ⟨m, rfl⟩ := Nat.exists_eq_add_of_le hle
  rw [List.range_add, List.takeWhile_append_of_pos (fun i hi => hall i (List.mem_range.mp hi))]
  cases m with
  | zero => simp
  | succ m =>
    have hstop := hmax (by omega)
    rw [List.range_succ_eq_map, List.map_cons, List.takeWhile_cons]
    simp [hstop]

theorem IsAccessiblePrefix.eq {t : TranslationTable} {start : Addr} {n k : ℕ} {isWrite : Bool}
    (h : IsAccessiblePrefix t start n isWrite k) : accessiblePrefix t start n isWrite = k :=
  takeWhile_range_length _ h.le h.allowed h.maximal

theorem isAccessiblePrefix (t : TranslationTable) (start : Addr) (n : ℕ) (isWrite : Bool) :
    IsAccessiblePrefix t start n isWrite (accessiblePrefix t start n isWrite) := by
  have hex : ∃ k, IsAccessiblePrefix t start n isWrite k := by
    induction n with
    | zero => exact ⟨0, by omega, by omega, by omega⟩
    | succ n ih =>
      obtain ⟨k, hle, hall, hmax⟩ := ih
      by_cases hk : k = n
      · subst hk
        cases hlast : t.canAccess (start + BitVec.ofNat 32 k) isWrite with
        | false => exact ⟨k, by omega, hall, fun _ => hlast⟩
        | true =>
          refine ⟨k + 1, by omega, ?_, by omega⟩
          intro i hi
          by_cases hik : i = k
          · rw [hik]
            exact hlast
          · exact hall i (by omega)
      · exact ⟨k, by omega, hall, fun _ => hmax (by omega)⟩
  obtain ⟨k, hk⟩ := hex
  rw [hk.eq]
  exact hk

/-- Access is granted section by section. -/
theorem TranslationTable.canAccess_congr (t : TranslationTable) (isWrite : Bool) {a b : Addr}
    (h : a.toNat / SECTION_SIZE = b.toNat / SECTION_SIZE) :
    t.canAccess a isWrite = t.canAccess b isWrite := by
  have hfield : Bitfields.field 20 12 a = Bitfields.field 20 12 b := by
    apply BitVec.eq_of_toNat_eq
    have hsize : SECTION_SIZE = 2 ^ 20 := by decide
    rw [hsize] at h
    simp only [Bitfields.field, BitVec.extractLsb'_toNat, Nat.shiftRight_eq_div_pow, h]
  unfold canAccess lookupL1
  rw [hfield]

/-- What the loop leaves of the range that starts at the section of `checkAddr`. -/
structure SectionsChecked (t : TranslationTable) (isWrite : Bool) (rangeEnd checkAddr e : Addr) :
    Prop where
  allowed : ∀ a : Addr, checkAddr.toNat ≤ a.toNat → a.toNat < e.toNat →
    t.canAccess a isWrite = true
  cut : e.toNat < rangeEnd.toNat → checkAddr.toNat ≤ e.toNat ∧ e.toNat % SECTION_SIZE = 0 ∧
    t.canAccess e isWrite = false

theorem checkSections_checked (t : TranslationTable) (isWrite : Bool) (rangeEnd checkAddr : Addr)
    (haligned : checkAddr.toNat % SECTION_SIZE = 0 ∨ checkAddr.toNat = 2 ^ 32 - 1) :
    SectionsChecked t isWrite rangeEnd checkAddr
      (checkSections t isWrite rangeEnd checkAddr) := by
  have hsize : SECTION_SIZE = 2 ^ 20 := by decide
  have hend := rangeEnd.isLt
  rw [hsize] at haligned
  fun_induction checkSections t isWrite rangeEnd checkAddr with
  | case1 checkAddr hlt hacc ih =>
    have hnext : (saturatingAdd checkAddr SECTION_SIZE).toNat =
        min (checkAddr.toNat + 2 ^ 20) (2 ^ 32 - 1) := by
      rw [toNat_saturatingAdd, hsize]
    obtain ⟨hallowed, hcut⟩ := ih (by omega)
    constructor
    case allowed =>
      intro a hge hlt'
      by_cases hsec : a.toNat < checkAddr.toNat + 2 ^ 20
      · -- the byte lies in the section that was tested
        rw [t.canAccess_congr isWrite (b := checkAddr)]
        · exact hacc
        · rw [hsize]
          omega
      · exact hallowed a (by omega) hlt'
    case cut =>
      intro hcutlt
      obtain ⟨hge, hmod, hforbidden⟩ := hcut hcutlt
      exact ⟨by omega, hmod, hforbidden⟩
  | case2 checkAddr hlt hacc =>
    constructor
    case allowed =>
      intro a hge hlt'
      omega
    case cut =>
      intro _
      have hforbidden : t.canAccess checkAddr isWrite = false := by simpa using hacc
      exact ⟨le_rfl, by rw [hsize]; omega, hforbidden⟩
  | case3 checkAddr hge =>
    constructor
    case allowed =>
      intro a hge' hlt'
      omega
    case cut =>
      intro hlt
      omega

theorem toNat_sectionBase (start : Addr) :
    (start &&& SECTION_MASK).toNat = start.toNat / 2 ^ 20 * 2 ^ 20 := by
  have hmask : start &&& SECTION_MASK = start >>> 20 <<< 20 := by
    apply BitVec.eq_of_getLsbD_eq
    intro i hi
    rw [SECTION_MASK, BitVec.getLsbD_and, BitVec.getLsbD_shiftLeft, BitVec.getLsbD_shiftLeft,
      BitVec.getLsbD_ushiftRight, BitVec.getLsbD_allOnes]
    by_cases hlow : i < 20
    · simp only [hlow, decide_true, Bool.not_true, Bool.and_false, Bool.false_and]
    · have hidx : 20 + (i - 20) = i := by omega
      have hbit : i - 20 < 32 := by omega
      simp only [hi, hlow, hidx, hbit, decide_true, decide_false, Bool.not_false, Bool.true_and,
        Bool.and_true]
  rw [hmask, BitVec.toNat_shiftLeft, BitVec.toNat_ushiftRight, Nat.shiftRight_eq_div_pow,
    Nat.shiftLeft_eq]
  have hlt := start.isLt
  omega

/-- For what the code computes the end of a range is at most the highest address. -/
theorem testAccess_eq (t : TranslationTable) (start : Addr) (n : ℕ) (isWrite : Bool)
    (hfits : start.toNat + n ≤ 2 ^ 32) :
    testAccess t start (saturatingAdd start n) isWrite =
      min (accessiblePrefix t start n isWrite) (2 ^ 32 - 1 - start.toNat) := by
  have hstart := start.isLt
  have hsize : SECTION_SIZE = 2 ^ 20 := by decide
  have hend := toNat_saturatingAdd start n
  have hbase := toNat_sectionBase start
  obtain ⟨hle, hall, hmax⟩ := isAccessiblePrefix t start n isWrite
  obtain ⟨hallowed, hcut⟩ := checkSections_checked t isWrite (saturatingAdd start n)
    (start &&& SECTION_MASK) (.inl (by rw [hbase, hsize]; omega))
  have hlast := checkSections_le t isWrite (saturatingAdd start n) (start &&& SECTION_MASK)
  rw [testAccess]
  generalize checkSections t isWrite (saturatingAdd start n) (start &&& SECTION_MASK) = e at *
  have hoffset : ∀ i < n, (start + BitVec.ofNat 32 i).toNat = start.toNat + i := by
    intro i hi
    rw [BitVec.toNat_add, BitVec.toNat_ofNat, Nat.mod_eq_of_lt (by omega : i < 2 ^ 32),
      Nat.mod_eq_of_lt (by omega)]
  have hge : e.toNat - start.toNat ≤ accessiblePrefix t start n isWrite := by
    by_contra hlt
    have hk := hoffset (accessiblePrefix t start n isWrite) (by omega)
    have hacc := hallowed (start + BitVec.ofNat 32 (accessiblePrefix t start n isWrite))
      (by omega) (by omega)
    rw [hmax (by omega)] at hacc
    cases hacc
  have hle' : e.toNat < (saturatingAdd start n).toNat →
      accessiblePrefix t start n isWrite ≤ e.toNat - start.toNat := by
    intro hlt
    obtain ⟨hfrom, hmod, hforbidden⟩ := hcut hlt
    rw [hsize] at hmod
    by_contra hgt
    have hin : e.toNat - start.toNat < accessiblePrefix t start n isWrite := by omega
    have hat := hoffset (e.toNat - start.toNat) (by omega)
    have hacc := hall (e.toNat - start.toNat) hin
    rw [t.canAccess_congr isWrite (b := e) (by rw [hsize]; omega), hforbidden] at hacc
    cases hacc
  by_cases hlt : e.toNat < (saturatingAdd start n).toNat
  · have := hle' hlt
    omega
  · omega

/-- The highest byte is counted by neither access, and by no range that ends below it. -/
theorem testAccess_exact_iff (t : TranslationTable) (start : Addr) (n : ℕ) (isWrite : Bool)
    (hfits : start.toNat + n ≤ 2 ^ 32) :
    testAccess t start (saturatingAdd start n) isWrite = accessiblePrefix t start n isWrite ↔
      ¬ (start.toNat + n = 2 ^ 32 ∧
        ∀ i < n, t.canAccess (start + BitVec.ofNat 32 i) isWrite = true) := by
  have hstart := start.isLt
  obtain ⟨hle, hall, hmax⟩ := isAccessiblePrefix t start n isWrite
  rw [testAccess_eq t start n isWrite hfits]
  constructor
  · rintro heq ⟨htop, haccess⟩
    have hfull : accessiblePrefix t start n isWrite = n := by
      by_contra hne
      have hstop := hmax (by omega)
      rw [haccess _ (by omega)] at hstop
      cases hstop
    omega
  · intro hnot
    by_contra hne
    have hfull : accessiblePrefix t start n isWrite = n := by omega
    refine hnot ⟨by omega, ?_⟩
    rw [hfull] at hall
    exact hall

/-- The numbers that a read reports and that a write compares with its length are
those of the longest accessible prefix, unless a range that ends with the address
space is accessible as a whole. -/
theorem access_counts_exact_iff (t : TranslationTable) (m : Mem 32) (start : Addr) (data : Bytes)
    (hfits : start.toNat + data.length ≤ 2 ^ 32) :
    ((readMemory t m start data).2 = accessiblePrefix t start data.length false ↔
      ¬ (start.toNat + data.length = 2 ^ 32 ∧
        ∀ i < data.length, t.canAccess (start + BitVec.ofNat 32 i) false = true)) ∧
    (testAccess t start (saturatingAdd start data.length) true =
        accessiblePrefix t start data.length true ↔
      ¬ (start.toNat + data.length = 2 ^ 32 ∧
        ∀ i < data.length, t.canAccess (start + BitVec.ofNat 32 i) true = true)) :=
  ⟨testAccess_exact_iff t start data.length false hfits,
    testAccess_exact_iff t start data.length true hfits⟩

def readOnlyTable : TranslationTable := ⟨fun i => if i < 0x039 then ⟨0xC02⟩ else ⟨0x8402⟩⟩

/-- Of the last two bytes of a section and the first two of the next, all are read and two
are written. -/
theorem access_counts_exact_iff_across :
    (readMemory readOnlyTable (fun _ => 0) 0x038FFFFE [0, 0, 0, 0]).2 = 4 ∧
      testAccess readOnlyTable 0x038FFFFE (saturatingAdd 0x038FFFFE 4) true = 2 := by
  have hends : (0x038FFFFE : Addr).toNat + 4 ≠ 2 ^ 32 := by decide
  obtain ⟨hread, hwrite⟩ :=
    access_counts_exact_iff readOnlyTable (fun _ => 0) 0x038FFFFE [0, 0, 0, 0] (by decide)
  constructor
  · rw [hread.mpr fun h => hends h.1]
    decide
  · rw [show (4 : ℕ) = ([0, 0, 0, 0] : Bytes).length from rfl, hwrite.mpr fun h => hends h.1]
    decide

/-- The last byte of the address space is accessible and is not counted. -/
theorem top_byte_not_counted :
    (readMemory ⟨fun _ => ⟨0xC02⟩⟩ (fun _ => 0) 0xFFFFFFFF [0]).2 = 0 ∧
      accessiblePrefix ⟨fun _ => ⟨0xC02⟩⟩ 0xFFFFFFFF 1 false = 1 := by
  refine ⟨?_, by decide⟩
  have hcount := testAccess_eq ⟨fun _ => ⟨0xC02⟩⟩ 0xFFFFFFFF 1 false (by decide)
  have hroom : 2 ^ 32 - 1 - (0xFFFFFFFF : Addr).toNat = 0 := by decide
  rw [hroom, Nat.min_zero] at hcount
  exact hcount

def checkSectionsWithin (t : TranslationTable) (isWrite : Bool) (rangeEnd : Addr) :
    ℕ → Addr → Option Addr
  | 0, _ => none
  | fuel + 1, checkAddr =>
    if checkAddr.toNat < rangeEnd.toNat then
      if t.canAccess checkAddr isWrite then
        checkSectionsWithin t isWrite rangeEnd fuel (saturatingAdd checkAddr SECTION_SIZE)
      else some checkAddr
    else some rangeEnd

/-- The loop ends at the top of the address space at the latest. -/
theorem checkSectionsWithin_eq (t : TranslationTable) (isWrite : Bool) (rangeEnd checkAddr : Addr)
    {fuel : ℕ} (hfuel : 2 ^ 32 - 1 - checkAddr.toNat ≤ fuel * 2 ^ 20) :
    checkSectionsWithin t isWrite rangeEnd (fuel + 1) checkAddr =
      some (checkSections t isWrite rangeEnd checkAddr) := by
  have hsize : SECTION_SIZE = 2 ^ 20 := by decide
  have hend := rangeEnd.isLt
  induction fuel generalizing checkAddr with
  | zero =>
    have hstop : ¬ checkAddr.toNat < rangeEnd.toNat := by omega
    rw [checkSectionsWithin, checkSections, if_neg hstop, if_neg hstop]
  | succ fuel ih =>
    rw [checkSectionsWithin, checkSections]
    split_ifs with hlt hacc
    · apply ih
      rw [toNat_saturatingAdd, hsize]
      omega
    · rfl
    · rfl

theorem saturatingAdd_min (start : Addr) (n : ℕ) :
    saturatingAdd start (min n (2 ^ 32 - start.toNat)) = saturatingAdd start n := by
  apply BitVec.eq_of_toNat_eq
  rw [toNat_saturatingAdd, toNat_saturatingAdd]
  omega

/-- Whatever is counted can be accessed, and lies below the top of the address space. -/
theorem canAccess_of_testAccess {t : TranslationTable} {start : Addr} {n k : ℕ} {isWrite : Bool}
    (hk : k = testAccess t start (saturatingAdd start n) isWrite) :
    start.toNat + k < 2 ^ 32 ∧
      ∀ i < k, t.canAccess (start + BitVec.ofNat 32 i) isWrite = true := by
  have hstart := start.isLt
  rw [← saturatingAdd_min, testAccess_eq t start _ isWrite (by omega)] at hk
  obtain ⟨_, hall, _⟩ :=
    isAccessiblePrefix t start (min n (2 ^ 32 - start.toNat)) isWrite
  exact ⟨by omega, fun i hi => hall i (by omega)⟩

/-- Nothing is counted where the first byte cannot be accessed, and at the top. -/
theorem testAccess_eq_zero_iff (t : TranslationTable) (start : Addr) (n : ℕ) (isWrite : Bool) :
    testAccess t start (saturatingAdd start n) isWrite = 0 ↔
      n = 0 ∨ t.canAccess start isWrite = false ∨ start = BitVec.allOnes 32 := by
  have hstart := start.isLt
  obtain ⟨hle, hall, hmax⟩ :=
    isAccessiblePrefix t start (min n (2 ^ 32 - start.toNat)) isWrite
  have hfirst : start + BitVec.ofNat 32 0 = start := BitVec.add_zero start
  have htop : start = BitVec.allOnes 32 ↔ start.toNat = 2 ^ 32 - 1 := by
    rw [← BitVec.toNat_inj, BitVec.toNat_allOnes]
  rw [← saturatingAdd_min, testAccess_eq t start _ isWrite (by omega), htop]
  constructor
  · intro hzero
    by_cases hn : n = 0
    · exact .inl hn
    · by_cases hblocked : accessiblePrefix t start (min n (2 ^ 32 - start.toNat)) isWrite = 0
      · rw [hblocked, hfirst] at hmax
        exact .inr (.inl (hmax (by omega)))
      · exact .inr (.inr (by omega))
  · rintro (hn | hforbidden | hlast)
    · omega
    · by_contra hne
      have hacc := hall 0 (by omega)
      rw [hfirst, hforbidden] at hacc
      cases hacc
    · omega

namespace V5Target

structure WritesGuarded (table : TranslationTable) (t : V5Target) (start : Addr) (data : Bytes) :
    Prop where
  allowed : ∀ t', t.writeAddrs table start data = (t', .ok ()) →
    start.toNat + data.length ≤ 2 ^ 32 ∧
      ∀ i < data.length, table.canAccess (start + BitVec.ofNat 32 i) true = true
  stored : ∀ t', t.writeAddrs table start data = (t', .ok ()) →
    ∃ memory, t' = { t with memory } ∧
      ∀ x, memory.data x = data.getD (distance start x) (t.memory.data x)
  refused : ∀ t' e, t.writeAddrs table start data = (t', .error e) → t' = t

structure ReadsGuarded (table : TranslationTable) (t : V5Target) (start : Addr) (buf : Bytes) :
    Prop where
  refused : (∃ e, t.readAddrs table start buf = .error e) ↔
    buf = [] ∨ table.canAccess start false = false
  allowed : ∀ out k, t.readAddrs table start buf = .ok (out, k) →
    start.toNat + k ≤ 2 ^ 32 ∧ k ≤ buf.length ∧
      (∀ i < k, table.canAccess (start + BitVec.ofNat 32 i) false = true) ∧
      out = read t.memory.data start k ++ buf.drop k

def WritesReadBack (table : TranslationTable) (t : V5Target) (start : Addr) (data : Bytes) :
    Prop :=
  ∀ t' buf, data ≠ [] → t.writeAddrs table start data = (t', .ok ()) →
    buf.length = data.length → t'.readAddrs table start buf = .ok (data, data.length)

variable {table : TranslationTable} {t t' : V5Target} {start : Addr} {data : Bytes}

theorem writeAddrs_ok (h : t.writeAddrs table start data = (t', .ok ())) :
    t' = { t with memory := t.memory.store start data } ∧
      data.length ≤ testAccess table start (saturatingAdd start data.length) true := by
  rcases hw : writeMemory table t.memory start data with ⟨memory, written⟩
  cases written with
  | true =>
    obtain ⟨rfl, haccess⟩ := writeMemory_ok hw
    simp only [writeAddrs, hw] at h
    exact ⟨(Prod.mk.inj h).1.symm, haccess⟩
  | false =>
    simp only [writeAddrs, hw] at h
    cases (Prod.mk.inj h).2

theorem writesGuarded (table : TranslationTable) (t : V5Target) (start : Addr) (data : Bytes) :
    t.WritesGuarded table start data where
  allowed := by
    intro t' h
    obtain ⟨_, haccess⟩ := writeAddrs_ok h
    obtain ⟨htop, hall⟩ := canAccess_of_testAccess
      (rfl : testAccess table start (saturatingAdd start data.length) true = _)
    exact ⟨by omega, fun i hi => hall i (by omega)⟩
  stored := by
    intro t' h
    exact ⟨_, (writeAddrs_ok h).1, fun x => rfl⟩
  refused := by
    intro t' e h
    rcases hw : writeMemory table t.memory start data with ⟨memory, written⟩
    simp only [writeAddrs, hw] at h
    cases written with
    | true => cases (Prod.mk.inj h).2
    | false =>
      obtain rfl := writeMemory_refused hw
      exact (Prod.mk.inj h).1.symm

theorem writesReadBack (table : TranslationTable) (t : V5Target) (start : Addr) (data : Bytes) :
    t.WritesReadBack table start data := by
  intro t' buf hne h hbuf
  obtain ⟨rfl, haccess⟩ := writeAddrs_ok h
  have hfits := add_lt_of_writable haccess
  have hlen : data.length ≠ 0 := by simpa using hne
  simp only [readAddrs, readMemory_of_writable haccess _ hbuf]
  rw [if_neg hlen, CodeMemory.store_data, read_write_self t.memory.data start (by omega)]

theorem readAddrs_eq (table : TranslationTable) (t : V5Target) (start : Addr) (buf : Bytes) :
    t.readAddrs table start buf =
      if testAccess table start (saturatingAdd start buf.length) false = 0 then
        .error (.errno efault)
      else .ok (readMemory table t.memory.data start buf) := rfl

theorem readAddrs_ok {buf out : Bytes} {k : ℕ} (h : t.readAddrs table start buf = .ok (out, k)) :
    k = testAccess table start (saturatingAdd start buf.length) false ∧ k ≠ 0 ∧
      out = read t.memory.data start k ++ buf.drop k := by
  rw [readAddrs_eq] at h
  by_cases hzero : testAccess table start (saturatingAdd start buf.length) false = 0
  · rw [if_pos hzero] at h
    cases h
  · rw [if_neg hzero] at h
    obtain ⟨rfl, rfl⟩ := Prod.mk.inj (Except.ok.inj h)
    exact ⟨rfl, hzero, rfl⟩

/-- Reads are refused at unreadable bytes, and at the last byte of the address space
whatever it is. -/
theorem readsGuarded_iff (table : TranslationTable) (t : V5Target) (start : Addr) (buf : Bytes) :
    t.ReadsGuarded table start buf ↔
      ¬ (start = BitVec.allOnes 32 ∧ buf ≠ [] ∧ table.canAccess start false = true) := by
  have hzero := testAccess_eq_zero_iff table start buf.length false
  have hrefused : (∃ e, t.readAddrs table start buf = .error e) ↔
      testAccess table start (saturatingAdd start buf.length) false = 0 := by
    rw [readAddrs_eq]
    by_cases h : testAccess table start (saturatingAdd start buf.length) false = 0
    · rw [if_pos h]
      exact ⟨fun _ => h, fun _ => ⟨_, rfl⟩⟩
    · rw [if_neg h]
      constructor
      · rintro ⟨e, herr⟩
        cases herr
      · exact fun h' => absurd h' h
  rw [List.length_eq_zero_iff] at hzero
  constructor
  · rintro ⟨hiff, _⟩ ⟨htop, hne, haccess⟩
    rcases hiff.mp (hrefused.mpr (hzero.mpr (.inr (.inr htop)))) with hnil | hforbidden
    · exact hne hnil
    · rw [haccess] at hforbidden
      cases hforbidden
  · intro hnot
    constructor
    case refused =>
      rw [hrefused, hzero]
      constructor
      · rintro (hnil | hforbidden | htop)
        · exact .inl hnil
        · exact .inr hforbidden
        · by_contra hcan
          rw [not_or, Bool.not_eq_false] at hcan
          exact hnot ⟨htop, hcan.1, hcan.2⟩
      · rintro (hnil | hforbidden)
        · exact .inl hnil
        · exact .inr (.inl hforbidden)
    case allowed =>
      intro out k h
      obtain ⟨hk, _, hout⟩ := readAddrs_ok h
      obtain ⟨htop, hall⟩ := canAccess_of_testAccess hk
      have hle := testAccess_le table start buf.length false
      exact ⟨by omega, by omega, hall, hout⟩

/-- The accesses to one address on behalf of GDB, with the loops that test them. -/
structure AccessGuarded (table : TranslationTable) (t : V5Target) (start : Addr)
    (data buf : Bytes) : Prop where
  ends : ∀ isWrite n, ∃ e,
    checkSectionsWithin table isWrite (saturatingAdd start n) 4097 (start &&& SECTION_MASK) =
      some e ∧ testAccess table start (saturatingAdd start n) isWrite = e.toNat - start.toNat
  writes : t.WritesGuarded table start data
  readBack : t.WritesReadBack table start data
  reads : t.ReadsGuarded table start buf

/-- Accesses are guarded at every address but the highest one, and there as well if
it cannot be read. -/
theorem accessGuarded_iff (table : TranslationTable) (t : V5Target) (start : Addr)
    (data buf : Bytes) :
    t.AccessGuarded table start data buf ↔
      ¬ (start = BitVec.allOnes 32 ∧ buf ≠ [] ∧ table.canAccess start false = true) := by
  rw [← readsGuarded_iff table t start buf]
  constructor
  · exact fun h => h.reads
  · intro hreads
    refine ⟨?_, writesGuarded table t start data, writesReadBack table t start data, hreads⟩
    intro isWrite n
    refine ⟨_, checkSectionsWithin_eq table isWrite _ _ ?_, rfl⟩
    rw [toNat_sectionBase]
    omega

/-- A byte that can be read, and a read of it that is refused. -/
theorem top_byte_not_read :
    ∃ session : DebugSession,
      DebugSession.boot 0 DebugSession.clearedLogic ⟨fun _ => 0, fun _ => 0⟩ 0x03800000 false =
        .ok session ∧
      session.target.readAddrs ⟨fun _ => ⟨0xC02⟩⟩ 0xFFFFFFFF [0] = .error (.errno efault) ∧
      TranslationTable.canAccess ⟨fun _ => ⟨0xC02⟩⟩ 0xFFFFFFFF false = true ∧
      ¬ session.target.AccessGuarded ⟨fun _ => ⟨0xC02⟩⟩ 0xFFFFFFFF [] [0] := by
  obtain ⟨session, hboot⟩ := DebugSession.exists_boot_one_slot
  have haccess : TranslationTable.canAccess ⟨fun _ => ⟨0xC02⟩⟩ 0xFFFFFFFF false = true := by
    decide
  have hzero := (testAccess_eq_zero_iff ⟨fun _ => ⟨0xC02⟩⟩ 0xFFFFFFFF 1 false).mpr
    (.inr (.inr (by decide)))
  have hrefused : session.target.readAddrs ⟨fun _ => ⟨0xC02⟩⟩ 0xFFFFFFFF [0] =
      .error (.errno efault) := by
    rw [readAddrs_eq]
    exact if_pos hzero
  refine ⟨session, hboot, hrefused, haccess, ?_⟩
  intro h
  rcases h.reads.refused.mp ⟨_, hrefused⟩ with hnil | hforbidden
  · cases hnil
  · rw [haccess] at hforbidden
    cases hforbidden

end V5Target

end V5gdb
