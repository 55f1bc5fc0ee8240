import V5gdb.AbortStack

/-!
A `DebugEventContext` in memory.
The offsets of its fields follow from their sizes and alignments, and the words
that are pushed for a debug event are the struct at these offsets.
-/
namespace V5gdb

open ByteMemory

/-- The offsets of the fields of a `#[repr(C)]` struct, from `next` on, by their
sizes and alignments. -/
def reprC (next : ℕ) : List (ℕ × ℕ) → List ℕ
  | [] => []
  | (size, align) :: fields =>
    let start := (next + (align - 1)) / align * align
    start :: reprC (start + size) fields

namespace DebugEventContext

def offsets : List ℕ :=
  -- cpsr, stack_pointer, link_register, fpscr, vfp_registers, registers, program_counter
  reprC 0 [(4, 4), (4, 4), (4, 4), (4, 4), (8 * 32, 8), (4 * 13, 4), (4, 4)]

theorem offsets_eq : offsets = [0, 4, 8, 12, 16, 272, 324] := by
  decide

def place (a : BitVec 32) (k size i : ℕ) : BitVec 32 :=
  a + BitVec.ofNat 32 (offsets.getD k 0 + size * i)

def recordAt (m : Mem 32) (a : BitVec 32) : DebugEventContext where
  cpsr := ⟨loadWord m (place a 0 4 0)⟩
  stackPointer := loadWord m (place a 1 4 0)
  linkRegister := loadWord m (place a 2 4 0)
  fpscr := loadWord m (place a 3 4 0)
  vfpRegisters := fun i => loadDouble m (place a 4 8 i)
  registers := fun i => loadWord m (place a 5 4 i)
  programCounter := loadWord m (place a 6 4 0)

theorem place_eq (a : BitVec 32) {k size i word : ℕ}
    (h : offsets.getD k 0 + size * i = 4 * word) :
    place a k size i = a + BitVec.ofNat 32 (4 * word) := by
  rw [place, h]

theorem frameWords_eq (c : DebugEventContext) :
    c.frameWords = [c.cpsr.raw, c.stackPointer, c.linkRegister, c.fpscr] ++
      ((List.finRange 32).flatMap (fun i => doubleWords (c.vfpRegisters i)) ++
        ((List.finRange 13).map c.registers ++ [c.programCounter])) := by
  simp [frameWords, generalWords]

theorem length_vfpWords (c : DebugEventContext) :
    ((List.finRange 32).flatMap fun i => doubleWords (c.vfpRegisters i)).length = 64 := by
  simp [doubleWords]

theorem getElem?_vfpRegisters (c : DebugEventContext) (i : Fin 32) :
    c.frameWords[4 + 2 * i.val]? = some ((c.vfpRegisters i).setWidth 32) ∧
      c.frameWords[4 + 2 * i.val + 1]? = some ((c.vfpRegisters i >>> 32).setWidth 32) := by
  have hi : (List.finRange 32)[i.val]? = some i := by simp
  have hlen := c.length_vfpWords
  obtain ⟨hlow, hhigh⟩ := getElem?_flatMap_doubleWords (List.finRange 32) c.vfpRegisters i
  rw [hi] at hlow hhigh
  rw [frameWords_eq]
  constructor
  · rw [List.getElem?_append_right (by simp),
      List.getElem?_append_left (by rw [hlen]; simp; omega)]
    simpa using hlow
  · rw [List.getElem?_append_right (by simp; omega),
      List.getElem?_append_left (by rw [hlen]; simp; omega)]
    have hindex : 4 + 2 * i.val + 1 - 4 = 2 * i.val + 1 := by omega
    simpa [hindex] using hhigh

theorem getElem?_registers (c : DebugEventContext) (i : Fin 13) :
    c.frameWords[68 + i.val]? = some (c.registers i) := by
  have hlen := c.length_vfpWords
  have hindex : 68 + i.val - 4 - 64 = i.val := by omega
  rw [frameWords_eq, List.getElem?_append_right (by simp; omega),
    List.getElem?_append_right (by rw [hlen]; simp; omega),
    List.getElem?_append_left (by rw [hlen]; simp; omega), hlen]
  simp [hindex]

theorem getElem?_programCounter (c : DebugEventContext) :
    c.frameWords[81]? = some c.programCounter := by
  have hlen := c.length_vfpWords
  rw [frameWords_eq, List.getElem?_append_right (by simp),
    List.getElem?_append_right (by simp [hlen]), List.getElem?_append_right (by simp [hlen]),
    hlen]
  simp

/-- The words of the frame are the struct, field by field. -/
theorem recordAt_of_holdsWords {m : Mem 32} {a : BitVec 32} {c : DebugEventContext}
    (h : HoldsWords m a c.frameWords) : recordAt m a = c := by
  have hoffsets := offsets_eq
  have hword : ∀ (word : ℕ) {k size i : ℕ} {v : BitVec 32},
      offsets.getD k 0 + size * i = 4 * word → c.frameWords[word]? = some v →
      loadWord m (place a k size i) = v := by
    intro word k size i v hplace hv
    rw [place_eq a hplace]
    exact h word v hv
  apply DebugEventContext.ext
  case cpsr => exact congrArg ProgramStatus.mk (hword 0 (by rw [hoffsets]; rfl) rfl)
  case stackPointer => exact hword 1 (by rw [hoffsets]; rfl) rfl
  case linkRegister => exact hword 2 (by rw [hoffsets]; rfl) rfl
  case fpscr => exact hword 3 (by rw [hoffsets]; rfl) rfl
  case vfpRegisters =>
    funext i
    obtain ⟨hlow, hhigh⟩ := c.getElem?_vfpRegisters i
    have hplace : offsets.getD 4 0 + 8 * i.val = 4 * (4 + 2 * i.val) := by
      rw [hoffsets]
      simp
      omega
    simp only [recordAt]
    rw [place_eq a hplace]
    exact h.loadDouble hlow hhigh
  case registers =>
    funext i
    have hplace : offsets.getD 5 0 + 4 * i.val = 4 * (68 + i.val) := by
      rw [hoffsets]
      simp
      omega
    exact hword _ hplace (c.getElem?_registers i)
  case programCounter => exact hword 81 (by rw [hoffsets]; rfl) c.getElem?_programCounter

theorem recordAt_storeWords (m : Mem 32) (a : BitVec 32) (c : DebugEventContext) :
    recordAt (storeWords m a c.frameWords) a = c := by
  have hlen : 4 * c.frameWords.length ≤ 2 ^ 32 := by
    rw [length_frameWords]
    decide
  exact recordAt_of_holdsWords (holdsWords_storeWords m a hlen)

end DebugEventContext
end V5gdb
