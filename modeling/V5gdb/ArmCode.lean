import V5gdb.ArmState

/-!
Instructions as a CPU fetches them, in both instruction sets.
Only loads with a positive offset, moves and exchanging branches are decoded, and
of these the ones that do not write the PC in another way. Unaligned loads are let
through, as with `SCTLR.A` clear, and the code is outside of any `it` block.
-/
namespace V5gdb.Arm

open ByteMemory Bitfields LittleEndian

inductive Instr
  | ldr (rt rn : BitVec 4) (imm : BitVec 12)
  | mov (rd rm : BitVec 4)
  | bx (rm : BitVec 4)
  deriving DecidableEq, Repr

def Instr.SparesPc : Instr → Prop
  | ldr rt _ _ => rt ≠ 15#4
  | mov rd _ => rd ≠ 15#4
  | bx _ => True

instance : ∀ i : Instr, Decidable i.SparesPc
  | .ldr rt _ _ => inferInstanceAs (Decidable (rt ≠ 15#4))
  | .mov rd _ => inferInstanceAs (Decidable (rd ≠ 15#4))
  | .bx _ => inferInstanceAs (Decidable True)

def encodeArm : Instr → BitVec 32
  | .ldr rt rn imm => 0b111001011001#12 ++ rn ++ rt ++ imm
  | .mov rd rm => 0b1110000110100000#16 ++ rd ++ 0#8 ++ rm
  | .bx rm => 0b1110000100101111111111110001#28 ++ rm

def decodeArm (word : BitVec 32) : Option Instr :=
  if field 20 12 word = 0b111001011001#12 then
    if field 12 4 word = 15#4 then none
    else some (.ldr (field 12 4 word) (field 16 4 word) (field 0 12 word))
  else if field 16 16 word = 0b1110000110100000#16 ∧ field 4 8 word = 0#8 then
    if field 12 4 word = 15#4 then none else some (.mov (field 12 4 word) (field 0 4 word))
  else if field 4 28 word = 0b1110000100101111111111110001#28 then some (.bx (field 0 4 word))
  else none

theorem decodeArm_encodeArm {i : Instr} (hi : i.SparesPc) : decodeArm (encodeArm i) = some i := by
  cases i with
  | ldr rt rn imm =>
    simp (disch := omega) only [decodeArm, encodeArm, field_append_low, field_append_high,
      field_self, Nat.reduceSub, if_true]
    exact if_neg hi
  | mov rd rm =>
    simp (disch := omega) only [decodeArm, encodeArm, field_append_low, field_append_high,
      field_self, Nat.reduceSub]
    have hload : field 4 12 0b1110000110100000#16 ≠ 0b111001011001#12 := by decide
    rw [if_neg hload, if_pos ⟨trivial, trivial⟩]
    exact if_neg hi
  | bx rm =>
    simp (disch := omega) only [decodeArm, encodeArm, field_append_low, field_append_high,
      field_self, Nat.reduceSub]
    have hload : field 16 12 0b1110000100101111111111110001#28 ≠ 0b111001011001#12 := by decide
    have hmove : field 12 16 0b1110000100101111111111110001#28 ≠ 0b1110000110100000#16 := by
      decide
    rw [if_neg hload, if_neg (fun h => hmove h.1), if_pos trivial]

def encodeThumb : Instr → List (BitVec 16)
  | .ldr rt rn imm => [0b111110001101#12 ++ rn, rt ++ imm]
  | .mov rd rm => [0b01000110#8 ++ field 3 1 rd ++ rm ++ field 0 3 rd]
  | .bx rm => [0b010001110#9 ++ rm ++ 0#3]

/-- The first halfword of two. -/
def isLong (halfword : BitVec 16) : Bool := 0b11101#5 ≤ field 11 5 halfword

def decodeShort (halfword : BitVec 16) : Option Instr :=
  if field 8 8 halfword = 0b01000110#8 then
    let rd : BitVec 4 := field 7 1 halfword ++ field 0 3 halfword
    if rd = 15#4 then none else some (.mov rd (field 3 4 halfword))
  else if field 7 9 halfword = 0b010001110#9 ∧ field 0 3 halfword = 0#3 then
    some (.bx (field 3 4 halfword))
  else none

def decodeLong (first second : BitVec 16) : Option Instr :=
  if field 4 12 first = 0b111110001101#12 then
    if field 12 4 second = 15#4 then none
    else some (.ldr (field 12 4 second) (field 0 4 first) (field 0 12 second))
  else none

theorem append_fields (r : BitVec 4) : (field 3 1 r ++ field 0 3 r : BitVec (1 + 3)) = r := by
  revert r
  decide

def code (thumb : Bool) (i : Instr) : List (BitVec 8) :=
  if thumb then (encodeThumb i).flatMap (toLe 2) else toLe 4 (encodeArm i)

def fetch (m : Mem 32) (thumb : Bool) (pc : BitVec 32) : Option Instr :=
  if thumb then
    let first : BitVec 16 := fromLe 16 (read m pc 2)
    if isLong first then decodeLong first (fromLe 16 (read m (pc + 2) 2)) else decodeShort first
  else decodeArm (fromLe 32 (read m pc 4))

def HoldsCode (m : Mem 32) (a : BitVec 32) (bytes : List (BitVec 8)) : Prop :=
  read m a bytes.length = bytes

theorem holdsCode_append {m : Mem 32} {a : BitVec 32} {xs ys : List (BitVec 8)} :
    HoldsCode m a (xs ++ ys) ↔
      HoldsCode m a xs ∧ HoldsCode m (a + BitVec.ofNat 32 xs.length) ys := by
  rw [HoldsCode, List.length_append, read_append]
  constructor
  · intro h
    exact List.append_inj h (by simp)
  · rintro ⟨hxs, hys⟩
    rw [hxs, hys]

theorem decodeLong_encodeThumb {rt rn : BitVec 4} {imm : BitVec 12} (hrt : rt ≠ 15#4) :
    isLong (0b111110001101#12 ++ rn) = true ∧
      decodeLong (0b111110001101#12 ++ rn) (rt ++ imm) = some (.ldr rt rn imm) := by
  constructor
  · simp (disch := omega) only [isLong, field_append_high, Nat.reduceSub]
    decide
  · simp (disch := omega) only [decodeLong, field_append_low, field_append_high, field_self,
      Nat.reduceSub, if_true]
    exact if_neg hrt

theorem decodeShort_mov {rd rm : BitVec 4} (hrd : rd ≠ 15#4) :
    isLong (0b01000110#8 ++ field 3 1 rd ++ rm ++ field 0 3 rd) = false ∧
      decodeShort (0b01000110#8 ++ field 3 1 rd ++ rm ++ field 0 3 rd) = some (.mov rd rm) := by
  constructor
  · simp (disch := omega) only [isLong, field_append_high, Nat.reduceSub]
    decide
  · simp (disch := omega) only [decodeShort, field_append_low, field_append_high, field_self,
      Nat.reduceSub, if_true, append_fields]
    exact if_neg hrd

theorem decodeShort_bx (rm : BitVec 4) :
    isLong (0b010001110#9 ++ rm ++ 0#3) = false ∧
      decodeShort (0b010001110#9 ++ rm ++ 0#3) = some (.bx rm) := by
  constructor
  · simp (disch := omega) only [isLong, field_append_high, Nat.reduceSub]
    decide
  · simp (disch := omega) only [decodeShort, field_append_low, field_append_high, field_self,
      Nat.reduceSub]
    have hmove : field 1 8 0b010001110#9 ≠ 0b01000110#8 := by decide
    rw [if_neg hmove, if_pos ⟨trivial, trivial⟩]

theorem halfword_of_holdsCode {m : Mem 32} {a : BitVec 32} {halfword : BitVec 16}
    (h : HoldsCode m a (toLe 2 halfword)) : fromLe 16 (read m a 2) = halfword := by
  have hread : read m a 2 = toLe 2 halfword := h
  rw [hread]
  exact fromLe_toLe _ (by decide)

/-- Where the bytes of an instruction lie, it is fetched. -/
theorem fetch_code {m : Mem 32} {thumb : Bool} {pc : BitVec 32} {i : Instr} (hi : i.SparesPc)
    (h : HoldsCode m pc (code thumb i)) : fetch m thumb pc = some i := by
  cases thumb with
  | false =>
    have hread : read m pc 4 = toLe 4 (encodeArm i) := by
      have hbytes : read m pc (toLe 4 (encodeArm i)).length = toLe 4 (encodeArm i) := h
      rwa [length_toLe] at hbytes
    simp only [fetch, Bool.false_eq_true, if_false, hread]
    rw [fromLe_toLe _ (by decide), decodeArm_encodeArm hi]
  | true =>
    cases i with
    | ldr rt rn imm =>
      obtain ⟨hlong, hdecode⟩ := @decodeLong_encodeThumb rt rn imm hi
      have hcode : code true (.ldr rt rn imm) =
          toLe 2 (0b111110001101#12 ++ rn) ++ toLe 2 (rt ++ imm) := rfl
      rw [hcode, holdsCode_append, length_toLe] at h
      have hfirst := halfword_of_holdsCode h.1
      have hsecond := halfword_of_holdsCode h.2
      simp only [fetch, if_true, hfirst, hlong]
      exact (congrArg (decodeLong _) hsecond).trans hdecode
    | mov rd rm =>
      obtain ⟨hshort, hdecode⟩ := @decodeShort_mov rd rm hi
      have hfirst := @halfword_of_holdsCode m pc
        (0b01000110#8 ++ field 3 1 rd ++ rm ++ field 0 3 rd) h
      simp only [fetch, if_true, hfirst, hshort, Bool.false_eq_true, if_false]
      exact hdecode
    | bx rm =>
      obtain ⟨hshort, hdecode⟩ := decodeShort_bx rm
      have hfirst := @halfword_of_holdsCode m pc (0b010001110#9 ++ rm ++ 0#3) h
      simp only [fetch, if_true, hfirst, hshort, Bool.false_eq_true, if_false]
      exact hdecode

namespace State

def thumb (s : State) : Bool := s.cpsr.getLsbD 5

/-- A register as an instruction reads it. The PC is two instructions ahead. -/
def reg (s : State) (n : BitVec 4) : BitVec 32 :=
  if h : n.toNat < 13 then s.gpr ⟨n.toNat, h⟩
  else if n = 13 then s.currentSp
  else if n = 14 then s.currentLr
  else s.pc + if s.thumb then 4 else 8

def setReg (s : State) (n : BitVec 4) (v : BitVec 32) : State :=
  if h : n.toNat < 13 then s.setGpr ⟨n.toNat, h⟩ v
  else if n = 13 then s.setSp v
  else if n = 14 then s.setLr v
  else s

/-- A branch to an address whose lowest bit selects the instruction set. An ARM
address that is not a multiple of 4 is unpredictable. -/
def branchExchange (s : State) (address : BitVec 32) : Option State :=
  if address.getLsbD 0 then
    some { s with pc := address &&& ~~~1, cpsr := setField 5 s.cpsr (1 : BitVec 1) }
  else if address.getLsbD 1 then none
  else some { s with pc := address, cpsr := setField 5 s.cpsr (0 : BitVec 1) }

def exec (s : State) (i : Instr) : Option State :=
  let next := s.pc + BitVec.ofNat 32 (code s.thumb i).length
  match i with
  | .ldr rt rn imm =>
    -- relative to the PC, an offset counts from a multiple of 4
    let base := if rn = 15 then s.reg 15 &&& ~~~3 else s.reg rn
    some { s.setReg rt (loadWord s.mem (base + imm.setWidth 32)) with pc := next }
  | .mov rd rm => some { s.setReg rd (s.reg rm) with pc := next }
  | .bx rm => s.branchExchange (s.reg rm)

/-- One instruction, fetched from another view of memory than it loads from. -/
def step (fetched : Mem 32) (s : State) : Option State := do
  let i ← fetch fetched s.thumb s.pc
  s.exec i

def run (fetched : Mem 32) : ℕ → State → Option State
  | 0, s => some s
  | n + 1, s => do
    let s ← s.step fetched
    run fetched n s

theorem reg_gpr (s : State) {n : BitVec 4} (h : n.toNat < 13) :
    s.reg n = s.gpr ⟨n.toNat, h⟩ := dif_pos h

theorem setReg_gpr (s : State) {n : BitVec 4} (h : n.toNat < 13) (v : BitVec 32) :
    s.setReg n v = s.setGpr ⟨n.toNat, h⟩ v := dif_pos h

theorem reg_pc (s : State) : s.reg 15 = s.pc + if s.thumb then 4 else 8 := rfl

theorem run_code {fetched : Mem 32} {n : ℕ} {s s₁ s' : State} {i : Instr} (hi : i.SparesPc)
    (hcode : HoldsCode fetched s.pc (code s.thumb i)) (hexec : s.exec i = some s₁)
    (hrest : run fetched n s₁ = some s') : run fetched (n + 1) s = some s' := by
  simp only [run, step, fetch_code hi hcode, hexec, hrest, bind, Option.bind]

end State
end V5gdb.Arm
