import V5gdb.TranslationTables

/-!
The memory accesses of the debugger on behalf of GDB.
The sections of a range are tested one by one. A read returns the part of the
range before the first forbidden section; a write is made only if nothing in its
range is forbidden.
-/
namespace V5gdb

open ByteMemory

def SECTION_SIZE : ℕ := 1 <<< 20
def SECTION_MASK : Addr := BitVec.allOnes 32 <<< 20

def saturatingAdd (addr : Addr) (n : ℕ) : Addr :=
  BitVec.ofNat 32 (min (addr.toNat + n) (2 ^ 32 - 1))

theorem toNat_saturatingAdd (addr : Addr) (n : ℕ) :
    (saturatingAdd addr n).toNat = min (addr.toNat + n) (2 ^ 32 - 1) := by
  rw [saturatingAdd, BitVec.toNat_ofNat, Nat.mod_eq_of_lt (by omega)]

/-- The section loop: where the range ends once it is cut before the first
section, from `checkAddr` on, that cannot be accessed. -/
def checkSections (t : TranslationTable) (isWrite : Bool) (rangeEnd checkAddr : Addr) : Addr :=
  if checkAddr.toNat < rangeEnd.toNat then
    if t.canAccess checkAddr isWrite then
      checkSections t isWrite rangeEnd (saturatingAdd checkAddr SECTION_SIZE)
    else checkAddr
  else rangeEnd
termination_by rangeEnd.toNat - checkAddr.toNat
decreasing_by
  have hsize : 0 < SECTION_SIZE := by decide
  rw [toNat_saturatingAdd]
  omega

/-- How many bytes of the range can be read or written without faulting. -/
def testAccess (t : TranslationTable) (rangeStart rangeEnd : Addr) (isWrite : Bool) : ℕ :=
  (checkSections t isWrite rangeEnd (rangeStart &&& SECTION_MASK)).toNat - rangeStart.toNat

/-- Reads into a buffer as many bytes as possible; their number is returned with it. -/
def readMemory (t : TranslationTable) (m : Mem 32) (startAddr : Addr) (data : List (BitVec 8)) :
    List (BitVec 8) × ℕ :=
  let readableBytes := testAccess t startAddr (saturatingAdd startAddr data.length) false
  (ByteMemory.read m startAddr readableBytes ++ data.drop readableBytes, readableBytes)

/-- Writes all of the buffer or nothing. -/
def writeMemory (t : TranslationTable) (m : CodeMemory) (startAddr : Addr)
    (data : List (BitVec 8)) : CodeMemory × Bool :=
  let writableBytes := testAccess t startAddr (saturatingAdd startAddr data.length) true
  if writableBytes < data.length then (m, false)
  else (m.store startAddr (data.take writableBytes), true)

theorem checkSections_le (t : TranslationTable) (isWrite : Bool) (rangeEnd checkAddr : Addr) :
    (checkSections t isWrite rangeEnd checkAddr).toNat ≤ rangeEnd.toNat := by
  fun_induction checkSections t isWrite rangeEnd checkAddr with
  | case1 checkAddr h hacc ih => exact ih
  | case2 checkAddr h hacc => exact Nat.le_of_lt h
  | case3 checkAddr h => exact Nat.le_refl _

/-- The range is never cut before the section the loop starts with. -/
theorem le_checkSections (t : TranslationTable) (isWrite : Bool) {rangeEnd checkAddr : Addr}
    (h : checkAddr.toNat ≤ rangeEnd.toNat) :
    checkAddr.toNat ≤ (checkSections t isWrite rangeEnd checkAddr).toNat := by
  fun_induction checkSections t isWrite rangeEnd checkAddr with
  | case1 checkAddr hlt hacc ih =>
    have hend := rangeEnd.isLt
    by_cases hnext : (saturatingAdd checkAddr SECTION_SIZE).toNat ≤ rangeEnd.toNat
    · have hle := ih hnext
      rw [toNat_saturatingAdd] at hle
      omega
    · rw [checkSections, if_neg (by omega)]
      exact h
  | case2 checkAddr hlt hacc => exact Nat.le_refl _
  | case3 checkAddr hge => exact h

/-- What can be written can be read. -/
theorem checkSections_write_le_read (t : TranslationTable) (rangeEnd checkAddr : Addr) :
    (checkSections t true rangeEnd checkAddr).toNat ≤
      (checkSections t false rangeEnd checkAddr).toNat := by
  fun_induction checkSections t true rangeEnd checkAddr with
  | case1 checkAddr h hacc ih =>
    rw [checkSections.eq_1 t false, if_pos h, if_pos (t.canRead_of_canWrite hacc)]
    exact ih
  | case2 checkAddr h hacc => exact le_checkSections t false (Nat.le_of_lt h)
  | case3 checkAddr h => rw [checkSections, if_neg h]

theorem testAccess_le (t : TranslationTable) (start : Addr) (n : ℕ) (isWrite : Bool) :
    testAccess t start (saturatingAdd start n) isWrite ≤ n := by
  have hle := checkSections_le t isWrite (saturatingAdd start n) (start &&& SECTION_MASK)
  rw [toNat_saturatingAdd] at hle
  rw [testAccess]
  omega

theorem testAccess_read_of_write {t : TranslationTable} {start : Addr} {n : ℕ}
    (h : n ≤ testAccess t start (saturatingAdd start n) true) :
    testAccess t start (saturatingAdd start n) false = n := by
  have hle := testAccess_le t start n false
  have hmono := checkSections_write_le_read t (saturatingAdd start n) (start &&& SECTION_MASK)
  rw [testAccess] at h hle ⊢
  omega

/-- A write that reports success stored all of its data. -/
theorem writeMemory_ok {t : TranslationTable} {m m' : CodeMemory} {start : Addr}
    {data : List (BitVec 8)} (h : writeMemory t m start data = (m', true)) :
    m' = m.store start data ∧
      data.length ≤ testAccess t start (saturatingAdd start data.length) true := by
  simp only [writeMemory] at h
  split_ifs at h with hlt
  · obtain ⟨_, hfalse⟩ := Prod.mk.inj h
    cases hfalse
  · obtain ⟨rfl, _⟩ := Prod.mk.inj h
    have hge := Nat.le_of_not_lt hlt
    exact ⟨by rw [List.take_of_length_le hge], hge⟩

theorem writeMemory_of_access {t : TranslationTable} {start : Addr} {data : List (BitVec 8)}
    (h : data.length ≤ testAccess t start (saturatingAdd start data.length) true)
    (m : CodeMemory) : writeMemory t m start data = (m.store start data, true) := by
  simp only [writeMemory]
  rw [if_neg (Nat.not_lt_of_le h), List.take_of_length_le h]

theorem writeMemory_refused {t : TranslationTable} {m m' : CodeMemory} {start : Addr}
    {data : List (BitVec 8)} (h : writeMemory t m start data = (m', false)) : m' = m := by
  simp only [writeMemory] at h
  split_ifs at h
  · exact (Prod.mk.inj h).1.symm
  · cases (Prod.mk.inj h).2

/-- A range that could be written is read in full. -/
theorem readMemory_of_writable {t : TranslationTable} {start : Addr} {n : ℕ}
    (h : n ≤ testAccess t start (saturatingAdd start n) true) (m : Mem 32)
    {buf : List (BitVec 8)} (hbuf : buf.length = n) :
    readMemory t m start buf = (ByteMemory.read m start n, n) := by
  subst hbuf
  rw [readMemory, testAccess_read_of_write h]
  simp

/-- A successful write fits below the highest address. -/
theorem add_lt_of_writable {t : TranslationTable} {start : Addr} {n : ℕ} {isWrite : Bool}
    (h : n ≤ testAccess t start (saturatingAdd start n) isWrite) :
    start.toNat + n < 2 ^ 32 := by
  have hle := checkSections_le t isWrite (saturatingAdd start n) (start &&& SECTION_MASK)
  rw [testAccess] at h
  rw [toNat_saturatingAdd] at hle
  omega

/-- Where every section can be accessed, so can every range. -/
theorem testAccess_of_access {t : TranslationTable} {isWrite : Bool}
    (h : ∀ addr, t.canAccess addr isWrite = true) {start : Addr} {n : ℕ}
    (hfits : start.toNat + n < 2 ^ 32) :
    testAccess t start (saturatingAdd start n) isWrite = n := by
  have hall : ∀ rangeEnd checkAddr, checkSections t isWrite rangeEnd checkAddr = rangeEnd := by
    intro rangeEnd checkAddr
    fun_induction checkSections t isWrite rangeEnd checkAddr with
    | case1 checkAddr hlt hacc ih => exact ih
    | case2 checkAddr hlt hacc => exact absurd (h checkAddr) hacc
    | case3 checkAddr hge => rfl
  rw [testAccess, hall, toNat_saturatingAdd]
  omega

end V5gdb
