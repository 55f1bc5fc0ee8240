import V5gdb.MemoryAccess
import V5gdb.MemoryWords

/-!
Where the first-level descriptor of an address lies.
The control register divides the address space between two tables: addresses
whose top bits are zero are described by the first one, which is the smaller and
the less aligned the more bits there are. The base of a table is aligned for its
size, so adding an index to it and ORing the two are the same.
-/
namespace V5gdb

open Bitfields ByteMemory

structure TranslationTableBaseControlRegister where
  raw : BitVec 32
  deriving DecidableEq, Repr

namespace TranslationTableBaseControlRegister

/-- How many upper bits of an address must be zero for table 0 to be used. -/
def tt0Boundary (ctrl : TranslationTableBaseControlRegister) : BitVec 3 := field 0 3 ctrl.raw

def virtualAddrUsesTt0 (ctrl : TranslationTableBaseControlRegister) (addr : Addr) : Bool :=
  ctrl.tt0Boundary.toNat ≤ addr.clz.toNat

end TranslationTableBaseControlRegister

structure TranslationTableBaseRegister where
  raw : BitVec 32
  deriving DecidableEq, Repr

namespace TranslationTableBaseRegister

def upperBaseAddrMask : BitVec 32 := fieldMask 32 7 25

def basePtr (ttbr : TranslationTableBaseRegister) (ttBoundary : ℕ) : Addr :=
  let lastAddrBit := 14 - ttBoundary
  let mask := BitVec.allOnes 32 <<< lastAddrBit
  ttbr.raw &&& mask &&& upperBaseAddrMask

end TranslationTableBaseRegister

structure TableRegisters where
  ctrl : TranslationTableBaseControlRegister
  tt0 : TranslationTableBaseRegister
  tt1 : TranslationTableBaseRegister

namespace Vmsa

structure TranslationTable where
  /-- The number of leading bits of an address which must be zero to resolve to this table. -/
  ttBoundary : ℕ
  basePtr : Addr
  numEntries : ℕ
  deriving DecidableEq, Repr

inductive LookupPanic
  | boundary
  | sectionIndex
  deriving DecidableEq, Repr

namespace TranslationTable

/-- The translation table that would be used for the given address. -/
def forAddr (regs : TableRegisters) (addr : Addr) : TranslationTable :=
  let isTt0 := regs.ctrl.virtualAddrUsesTt0 addr
  -- lookups in table 1 always work as if the boundary were 0
  let ttBoundary := if isTt0 then regs.ctrl.tt0Boundary.toNat else 0
  let ttbr := if isTt0 then regs.tt0 else regs.tt1
  let sectionInnerBits := 20
  { ttBoundary
    basePtr := ttbr.basePtr ttBoundary
    numEntries := 2 ^ (32 - sectionInnerBits - ttBoundary) }

/-- A pointer to the level-1 descriptor for the given address in this table. -/
def lookupL1 (t : TranslationTable) (addr : Addr) : Except LookupPanic Addr :=
  if addr.clz.toNat < t.ttBoundary then .error .boundary
  else
    let sectionIndex := addr >>> 20
    if sectionIndex.toNat < t.numEntries then .ok (t.basePtr + (4 : BitVec 32) * sectionIndex)
    else .error .sectionIndex

end TranslationTable

def TopBitsZero (n : ℕ) (addr : Addr) : Prop := ∀ i < n, addr.getMsbD i = false

/-- The descriptor's address as the architecture gives it, for a table that is
used where the top `n` bits are zero. -/
def descriptorAddress (ttbr : BitVec 32) (n : ℕ) (addr : Addr) : Addr :=
  (ttbr >>> (14 - n)) <<< (14 - n) ||| (addr >>> 20) <<< 2

theorem le_clz_iff_lt (addr : Addr) {n : ℕ} (hn : n ≤ 32) :
    n ≤ addr.clz.toNat ↔ addr.toNat < 2 ^ (32 - n) := by
  have hupper := BitVec.toNat_lt_two_pow_sub_clz (x := addr)
  constructor
  · intro hle
    exact Nat.lt_of_lt_of_le hupper (Nat.pow_le_pow_right (by decide) (by omega))
  · intro hlt
    by_contra hgt
    have hne : addr ≠ 0#32 := by
      rintro rfl
      rw [BitVec.clz_eq_iff_eq_zero.mpr rfl] at hgt
      exact hgt hn
    have hlower := BitVec.two_pow_sub_clz_le_toNat_of_ne_zero (by decide) hne
    have hpow : 2 ^ (32 - n) ≤ 2 ^ (32 - 1 - addr.clz.toNat) :=
      Nat.pow_le_pow_right (by decide) (by omega)
    omega

theorem topBitsZero_iff_lt (addr : Addr) {n : ℕ} (hn : n ≤ 32) :
    TopBitsZero n addr ↔ addr.toNat < 2 ^ (32 - n) := by
  cases n with
  | zero => exact ⟨fun _ => addr.isLt, fun _ i hi => absurd hi (Nat.not_lt_zero i)⟩
  | succ n =>
    rw [TopBitsZero, BitVec.toNat_lt_iff_getLsbD_eq_false _ (by omega)]
    constructor
    · intro h k
      by_cases hk : k < n + 1
      · have hbit := h (n - k) (by omega)
        have hidx : 32 - 1 - (n - k) = 32 - (n + 1) + k := by omega
        rwa [BitVec.getMsbD_eq_getLsbD, hidx, decide_eq_true (by omega), Bool.true_and] at hbit
      · exact BitVec.getLsbD_of_ge _ _ (by omega)
    · intro h i hi
      have hbit := h (n - i)
      have hidx : 32 - (n + 1) + (n - i) = 32 - 1 - i := by omega
      rw [hidx] at hbit
      rw [BitVec.getMsbD_eq_getLsbD, hbit, Bool.and_false]

theorem usesTt0_iff (regs : TableRegisters) (addr : Addr) :
    regs.ctrl.virtualAddrUsesTt0 addr = true ↔ TopBitsZero regs.ctrl.tt0Boundary.toNat addr := by
  have hn : regs.ctrl.tt0Boundary.toNat ≤ 32 := by
    have := regs.ctrl.tt0Boundary.isLt
    omega
  rw [TranslationTableBaseControlRegister.virtualAddrUsesTt0, decide_eq_true_iff,
    le_clz_iff_lt addr hn, topBitsZero_iff_lt addr hn]

theorem basePtr_eq (ttbr : TranslationTableBaseRegister) {n : ℕ} (hn : n ≤ 7) :
    ttbr.basePtr n = (ttbr.raw >>> (14 - n)) <<< (14 - n) := by
  apply BitVec.eq_of_getLsbD_eq
  intro i hi
  have hmask : TranslationTableBaseRegister.upperBaseAddrMask.getLsbD i = decide (7 ≤ i) := by
    revert i
    decide
  simp only [TranslationTableBaseRegister.basePtr, BitVec.getLsbD_and, BitVec.getLsbD_shiftLeft,
    BitVec.getLsbD_ushiftRight, BitVec.getLsbD_allOnes, hmask, hi, decide_true, Bool.true_and]
  by_cases hlow : i < 14 - n
  · simp [hlow]
  · have hidx : 14 - n + (i - (14 - n)) = i := by omega
    have h7 : 7 ≤ i := by omega
    have h32 : i - (14 - n) < 32 := by omega
    simp [hlow, hidx, h7, h32]

theorem index_lt (addr : Addr) {n : ℕ} (hn : n ≤ 7) (haddr : addr.toNat < 2 ^ (32 - n)) :
    (addr >>> 20).toNat < 2 ^ (32 - 20 - n) := by
  have hpow : 2 ^ (32 - n) = 2 ^ (32 - 20 - n) * 2 ^ 20 := by
    rw [← Nat.pow_add]
    congr 1
    omega
  rw [BitVec.toNat_ushiftRight, Nat.shiftRight_eq_div_pow]
  exact Nat.div_lt_of_lt_mul (by rw [Nat.mul_comm, ← hpow]; exact haddr)

/-- An index inside the table does not reach the bits of its base. -/
theorem add_index (base addr : Addr) {n : ℕ} (hn : n ≤ 7) (haddr : addr.toNat < 2 ^ (32 - n)) :
    (base >>> (14 - n)) <<< (14 - n) + (4 : BitVec 32) * (addr >>> 20) =
      (base >>> (14 - n)) <<< (14 - n) ||| (addr >>> 20) <<< 2 := by
  have hindex : (4 : BitVec 32) * (addr >>> 20) = (addr >>> 20) <<< 2 := by
    rw [BitVec.mul_comm]
    exact (BitVec.shiftLeft_eq_mul_twoPow (addr >>> 20) 2).symm
  rw [hindex]
  apply BitVec.add_eq_or_of_and_eq_zero
  apply BitVec.eq_of_getLsbD_eq
  intro i hi
  rw [BitVec.getLsbD_and, BitVec.getLsbD_zero, BitVec.getLsbD_shiftLeft, BitVec.getLsbD_shiftLeft]
  by_cases hlow : i < 14 - n
  · simp [hlow]
  · -- the index has no bit as high as the lowest bit of the base
    have hbit : (addr >>> 20).getLsbD (i - 2) = false := by
      apply Nat.testBit_lt_two_pow
      have hle : 2 ^ (32 - 20 - n) ≤ 2 ^ (i - 2) := Nat.pow_le_pow_right (by decide) (by omega)
      exact Nat.lt_of_lt_of_le (index_lt addr hn haddr) hle
    rw [hbit, Bool.and_false, Bool.and_false]

theorem boundary_le (ctrl : TranslationTableBaseControlRegister) :
    ctrl.tt0Boundary.toNat ≤ 7 := by
  have := ctrl.tt0Boundary.isLt
  omega

/-- A lookup in a table for addresses whose top `n` bits are zero. -/
theorem lookupL1_table (ttbr : TranslationTableBaseRegister) (addr : Addr) {n : ℕ} (hn : n ≤ 7)
    (haddr : TopBitsZero n addr) :
    (⟨n, ttbr.basePtr n, 2 ^ (32 - 20 - n)⟩ : TranslationTable).lookupL1 addr =
      .ok (descriptorAddress ttbr.raw n addr) := by
  have hlt := (topBitsZero_iff_lt addr (by omega)).mp haddr
  have hclz := (le_clz_iff_lt addr (by omega)).mpr hlt
  rw [TranslationTable.lookupL1, if_neg (Nat.not_lt_of_le hclz), if_pos (index_lt addr hn hlt),
    basePtr_eq ttbr hn, add_index ttbr.raw addr hn hlt, descriptorAddress]

theorem forAddr_of_tt0 {regs : TableRegisters} {addr : Addr}
    (h : regs.ctrl.virtualAddrUsesTt0 addr = true) :
    TranslationTable.forAddr regs addr = ⟨regs.ctrl.tt0Boundary.toNat,
      regs.tt0.basePtr regs.ctrl.tt0Boundary.toNat,
      2 ^ (32 - 20 - regs.ctrl.tt0Boundary.toNat)⟩ := by
  simp only [TranslationTable.forAddr, h, if_true]

theorem forAddr_of_tt1 {regs : TableRegisters} {addr : Addr}
    (h : regs.ctrl.virtualAddrUsesTt0 addr = false) :
    TranslationTable.forAddr regs addr = ⟨0, regs.tt1.basePtr 0, 2 ^ (32 - 20 - 0)⟩ := by
  simp only [TranslationTable.forAddr, h, Bool.false_eq_true, if_false]

theorem topBitsZero_sectionBase (addr : Addr) {n : ℕ} (hn : n ≤ 7) :
    TopBitsZero n (addr &&& SECTION_MASK) ↔ TopBitsZero n addr := by
  apply forall₂_congr
  intro i hi
  have hmask : SECTION_MASK.getMsbD i = true := by
    have hlt : i < 7 := by omega
    clear hi
    revert i
    decide
  rw [BitVec.getMsbD_and, hmask, Bool.and_true]

theorem index_sectionBase (addr : Addr) : (addr &&& SECTION_MASK) >>> 20 = addr >>> 20 := by
  rw [BitVec.ushiftRight_and_distrib]
  have hmask : SECTION_MASK >>> 20 = BitVec.allOnes 32 >>> 20 := by decide
  rw [hmask, ← BitVec.ushiftRight_and_distrib, BitVec.and_allOnes]

theorem forAddr_sectionBase (regs : TableRegisters) (addr : Addr) :
    TranslationTable.forAddr regs (addr &&& SECTION_MASK) =
      TranslationTable.forAddr regs addr := by
  have huses : regs.ctrl.virtualAddrUsesTt0 (addr &&& SECTION_MASK) =
      regs.ctrl.virtualAddrUsesTt0 addr := by
    rw [Bool.eq_iff_iff, usesTt0_iff, usesTt0_iff,
      topBitsZero_sectionBase addr (boundary_le regs.ctrl)]
  unfold TranslationTable.forAddr
  rw [huses]

/-- What the lookup of an address finds, for each of the two tables. -/
structure ArchitecturalLookup (regs : TableRegisters) (addr : Addr) : Prop where
  picksTt0 : regs.ctrl.virtualAddrUsesTt0 addr = true ↔
    TopBitsZero regs.ctrl.tt0Boundary.toNat addr
  tt0 : TopBitsZero regs.ctrl.tt0Boundary.toNat addr →
    (TranslationTable.forAddr regs addr).lookupL1 addr =
      .ok (descriptorAddress regs.tt0.raw regs.ctrl.tt0Boundary.toNat addr)
  tt1 : ¬TopBitsZero regs.ctrl.tt0Boundary.toNat addr →
    (TranslationTable.forAddr regs addr).lookupL1 addr =
      .ok (descriptorAddress regs.tt1.raw 0 addr)
  sectionTable :
    TranslationTable.forAddr regs (addr &&& SECTION_MASK) = TranslationTable.forAddr regs addr
  sectionDescriptor :
    (TranslationTable.forAddr regs (addr &&& SECTION_MASK)).lookupL1 (addr &&& SECTION_MASK) =
      (TranslationTable.forAddr regs addr).lookupL1 addr

theorem lookup_of_tt0 {regs : TableRegisters} {addr : Addr}
    (h : TopBitsZero regs.ctrl.tt0Boundary.toNat addr) :
    (TranslationTable.forAddr regs addr).lookupL1 addr =
      .ok (descriptorAddress regs.tt0.raw regs.ctrl.tt0Boundary.toNat addr) := by
  rw [forAddr_of_tt0 ((usesTt0_iff regs addr).mpr h)]
  exact lookupL1_table regs.tt0 addr (boundary_le regs.ctrl) h

theorem lookup_of_tt1 {regs : TableRegisters} {addr : Addr}
    (h : ¬TopBitsZero regs.ctrl.tt0Boundary.toNat addr) :
    (TranslationTable.forAddr regs addr).lookupL1 addr =
      .ok (descriptorAddress regs.tt1.raw 0 addr) := by
  have huses : regs.ctrl.virtualAddrUsesTt0 addr = false := by
    rw [← Bool.not_eq_true, usesTt0_iff]
    exact h
  have hzero : TopBitsZero 0 addr := fun i hi => absurd hi (Nat.not_lt_zero i)
  rw [forAddr_of_tt1 huses]
  exact lookupL1_table regs.tt1 addr (by omega) hzero

theorem lookup_sectionBase (regs : TableRegisters) (addr : Addr) :
    (TranslationTable.forAddr regs (addr &&& SECTION_MASK)).lookupL1 (addr &&& SECTION_MASK) =
      (TranslationTable.forAddr regs addr).lookupL1 addr := by
  have htop := topBitsZero_sectionBase addr (boundary_le regs.ctrl)
  by_cases h : TopBitsZero regs.ctrl.tt0Boundary.toNat addr
  · rw [lookup_of_tt0 h, lookup_of_tt0 (htop.mpr h), descriptorAddress, descriptorAddress,
      index_sectionBase]
  · rw [lookup_of_tt1 h, lookup_of_tt1 (mt htop.mp h), descriptorAddress, descriptorAddress,
      index_sectionBase]

theorem architecturalLookup (regs : TableRegisters) (addr : Addr) :
    ArchitecturalLookup regs addr where
  picksTt0 := usesTt0_iff regs addr
  tt0 := lookup_of_tt0
  tt1 := lookup_of_tt1
  sectionTable := forAddr_sectionBase regs addr
  sectionDescriptor := lookup_sectionBase regs addr

/-- The descriptors that the walk of a section finds in memory. -/
def activeTable (regs : TableRegisters) (m : Mem 32) : V5gdb.TranslationTable where
  descriptor sectionNumber :=
    let base : Addr := sectionNumber.setWidth 32 <<< 20
    match (TranslationTable.forAddr regs base).lookupL1 base with
    | .ok ptr => ⟨loadWord m ptr⟩
    | .error _ => ⟨0⟩

theorem sectionBase_eq (addr : Addr) :
    (field 20 12 addr).setWidth 32 <<< 20 = addr &&& SECTION_MASK := by
  apply BitVec.eq_of_getLsbD_eq
  intro i hi
  have hmask : SECTION_MASK.getLsbD i = decide (20 ≤ i) := by
    revert i
    decide
  rw [BitVec.getLsbD_and, hmask, BitVec.getLsbD_shiftLeft]
  by_cases hlow : i < 20
  · simp [hlow]
  · have hidx : 20 + (i - 20) = i := by omega
    have h12 : i - 20 < 12 := by omega
    have h32 : i - 20 < 32 := by omega
    have h20 : 20 ≤ i := by omega
    simp only [hi, hlow, h32, h12, h20, hidx, BitVec.getLsbD_setWidth, getLsbD_field,
      decide_true, decide_false, Bool.not_false, Bool.true_and, Bool.and_true]

/-- The table that permissions are read from is the one the registers describe: the
descriptor of every address is the word at the address the walk computes. -/
theorem activeTable_lookupL1 (regs : TableRegisters) (m : Mem 32) (addr : Addr) :
    ∃ ptr, (TranslationTable.forAddr regs addr).lookupL1 addr = .ok ptr ∧
      (activeTable regs m).lookupL1 addr = ⟨loadWord m ptr⟩ := by
  have hfound : ∃ ptr, (TranslationTable.forAddr regs addr).lookupL1 addr = .ok ptr := by
    by_cases h : TopBitsZero regs.ctrl.tt0Boundary.toNat addr
    · exact ⟨_, lookup_of_tt0 h⟩
    · exact ⟨_, lookup_of_tt1 h⟩
  obtain ⟨ptr, hptr⟩ := hfound
  refine ⟨ptr, hptr, ?_⟩
  simp only [V5gdb.TranslationTable.lookupL1, activeTable]
  rw [sectionBase_eq, lookup_sectionBase, hptr]

end Vmsa
end V5gdb
