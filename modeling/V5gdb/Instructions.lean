import V5gdb.ByteMemory
import V5gdb.LittleEndian
import V5gdb.Outcomes

/-!
Instructions as they lie in memory, and the two views of that memory.
Stores reach the data view only; the instruction-fetch view catches up one
32-byte cache line at a time. A long Thumb instruction is two halfwords, so its
backup is wider than the `bkpt` that replaces it.
-/
namespace V5gdb

open ByteMemory LittleEndian

abbrev Addr := BitVec 32

/-- What loads see and what instruction fetches see. -/
structure CodeMemory where
  data : Mem 32
  fetch : Mem 32

inductive CacheTarget
  | address (addr : Addr)

namespace CodeMemory

def store (m : CodeMemory) (addr : Addr) (bs : List (BitVec 8)) : CodeMemory :=
  { m with data := write m.data addr bs }

/-- The CPU ignores the lower 5 bits of the address: the whole line is brought up to date. -/
def syncInstruction (m : CodeMemory) : CacheTarget → CodeMemory
  | .address addr =>
    { m with fetch := fun x => if x >>> 5 = addr >>> 5 then m.data x else m.fetch x }

@[simp] theorem store_data (m : CodeMemory) (addr : Addr) (bs : List (BitVec 8)) :
    (m.store addr bs).data = write m.data addr bs := rfl

@[simp] theorem syncInstruction_data (m : CodeMemory) (t : CacheTarget) :
    (m.syncInstruction t).data = m.data := by
  cases t; rfl

end CodeMemory

def SameLine (x a : Addr) : Prop := x >>> 5 = a >>> 5

instance (x a : Addr) : Decidable (SameLine x a) := inferInstanceAs (Decidable (_ = _))

def CodeMemory.FreshAt (m : CodeMemory) (x : Addr) : Prop := m.fetch x = m.data x

def CodeMemory.Coherent (m : CodeMemory) : Prop := ∀ x, m.FreshAt x

theorem CodeMemory.Coherent.fetch_eq {m : CodeMemory} (h : m.Coherent) : m.fetch = m.data :=
  funext h

theorem CodeMemory.freshAt_sync_of_sameLine {m : CodeMemory} {a x : Addr} (h : SameLine x a) :
    (m.syncInstruction (.address a)).FreshAt x := if_pos h

theorem CodeMemory.fetch_sync_of_not_sameLine {m : CodeMemory} {a x : Addr} (h : ¬SameLine x a) :
    (m.syncInstruction (.address a)).fetch x = m.fetch x := if_neg h

theorem CodeMemory.FreshAt.sync {m : CodeMemory} {x : Addr} (h : m.FreshAt x) (t : CacheTarget) :
    (m.syncInstruction t).FreshAt x := by
  obtain ⟨a⟩ := t
  by_cases hline : SameLine x a
  · exact freshAt_sync_of_sameLine hline
  · exact (fetch_sync_of_not_sameLine hline).trans h

inductive Instruction
  | arm (instr : BitVec 32)
  | thumb16 (instr : BitVec 16)
  | thumb32 (hw1 hw2 : BitVec 16)
  deriving DecidableEq, Repr

/-- The first halfword of a 32-bit Thumb instruction starts with 0b11101 to 0b11111. -/
def isThumb32 (halfword : BitVec 16) : Bool :=
  0b11101 ≤ (halfword >>> 11).toNat && (halfword >>> 11).toNat ≤ 0b11111

namespace Instruction

def isThumb : Instruction → Bool
  | arm _ => false
  | thumb16 _ => true
  | thumb32 _ _ => true

def size : Instruction → ℕ
  | arm _ => 4
  | thumb16 _ => 2
  | thumb32 _ _ => 4

def bytes : Instruction → List (BitVec 8)
  | arm instr => toLe 4 instr
  | thumb16 instr => toLe 2 instr
  | thumb32 hw1 hw2 => toLe 2 hw1 ++ toLe 2 hw2

def read (m : Mem 32) (addr : Addr) (thumb : Bool) : Exec Instruction :=
  if thumb then
    if addr.toNat % 2 = 0 then
      let hw1 : BitVec 16 := fromLe 16 (ByteMemory.read m addr 2)
      if isThumb32 hw1 then
        .ok (thumb32 hw1 (fromLe 16 (ByteMemory.read m (addr + 2) 2)))
      else
        .ok (thumb16 hw1)
    else .error .unalignedInstruction
  else
    if addr.toNat % 4 = 0 then .ok (arm (fromLe 32 (ByteMemory.read m addr 4)))
    else .error .unalignedInstruction

def writeTo (instr : Instruction) (m : CodeMemory) (addr : Addr) : CodeMemory :=
  m.store addr instr.bytes

def AlignedFor (thumb : Bool) (addr : Addr) : Prop :=
  addr.toNat % (if thumb then 2 else 4) = 0

instance (thumb : Bool) (addr : Addr) : Decidable (AlignedFor thumb addr) :=
  inferInstanceAs (Decidable (_ = _))

@[simp] theorem length_bytes (instr : Instruction) : instr.bytes.length = instr.size := by
  cases instr <;> simp [bytes, size]

theorem size_le (instr : Instruction) : instr.size ≤ 4 := by
  cases instr <;> simp [size]

theorem exists_read (m : Mem 32) {addr : Addr} {thumb : Bool} (h : AlignedFor thumb addr) :
    ∃ instr, read m addr thumb = .ok instr := by
  cases thumb with
  | false =>
    have haddr : addr.toNat % 4 = 0 := h
    simp [read, haddr]
  | true =>
    have haddr : addr.toNat % 2 = 0 := h
    by_cases hlong : isThumb32 (fromLe 16 (ByteMemory.read m addr 2))
    · simp [read, haddr, hlong]
    · simp [read, haddr, hlong]

theorem read_error {m : Mem 32} {addr : Addr} {thumb : Bool} {e : Panic}
    (h : read m addr thumb = .error e) : e = .unalignedInstruction := by
  simp only [read] at h
  split_ifs at h <;> exact (Except.error.inj h).symm

/-- A successful fetch was aligned, and returns an instruction of the requested
set whose bytes are the bytes of memory it covers. -/
theorem read_spec {m : Mem 32} {addr : Addr} {thumb : Bool} {instr : Instruction}
    (h : read m addr thumb = .ok instr) :
    AlignedFor thumb addr ∧ instr.isThumb = thumb ∧
      instr.bytes = ByteMemory.read m addr instr.size := by
  have half : ∀ a, toLe 2 (fromLe 16 (ByteMemory.read m a 2)) = ByteMemory.read m a 2 := by
    intro a
    have hle := toLe_fromLe (w := 16) (ByteMemory.read m a 2) (by simp)
    rwa [length_read] at hle
  cases thumb with
  | false =>
    simp only [read, Bool.false_eq_true, if_false] at h
    split_ifs at h with haddr
    obtain rfl := Except.ok.inj h
    have hle := toLe_fromLe (w := 32) (ByteMemory.read m addr 4) (by simp)
    rw [length_read] at hle
    exact ⟨haddr, rfl, hle⟩
  | true =>
    simp only [read, if_true] at h
    split_ifs at h with haddr hlong
    · obtain rfl := Except.ok.inj h
      refine ⟨haddr, rfl, ?_⟩
      rw [bytes, half, half]
      exact (read_append m addr 2 2).symm
    · obtain rfl := Except.ok.inj h
      exact ⟨haddr, rfl, half addr⟩

end Instruction
end V5gdb
