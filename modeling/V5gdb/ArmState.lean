import V5gdb.Bitfields
import V5gdb.MemoryWords
import Mathlib.Logic.Function.Basic

/-!
An ARMv7-A CPU as far as the code around an exception touches it.
The stack pointer, the link register and the saved status are banked by mode;
System mode has the bank of User mode. Each instruction is a function on the
state. A stack instruction moves a block of words, the first register lowest.
-/
namespace V5gdb.Arm

open ByteMemory Bitfields

inductive Bank
  | user
  | fiq
  | irq
  | supervisor
  | monitor
  | abort
  | undefined
  deriving DecidableEq, Repr

/-- The bank that a mode sees. Values that are no mode count as User mode. -/
def Bank.ofMode (mode : BitVec 5) : Bank :=
  if mode = 0b10001 then .fiq
  else if mode = 0b10010 then .irq
  else if mode = 0b10011 then .supervisor
  else if mode = 0b10110 then .monitor
  else if mode = 0b10111 then .abort
  else if mode = 0b11011 then .undefined
  else .user

/-- The bytes of a status register that an `msr` names. Which ones it names where
the source gives none is up to the assembler. -/
structure StatusFields where
  flags : Bool
  status : Bool
  extension : Bool
  control : Bool
  deriving DecidableEq, Repr

namespace StatusFields

/-- `_fc`, which is what the GNU assembler takes a register without fields for. -/
def fc : StatusFields := ⟨true, false, false, true⟩

def mask (fields : StatusFields) : BitVec 32 :=
  (if fields.flags then 0xff000000 else 0) ||| (if fields.status then 0x00ff0000 else 0) |||
    (if fields.extension then 0x0000ff00 else 0) ||| (if fields.control then 0x000000ff else 0)

def merge (fields : StatusFields) (old new : BitVec 32) : BitVec 32 :=
  (new &&& fields.mask) ||| (old &&& ~~~fields.mask)

end StatusFields

abbrev r0 : Fin 13 := ⟨0, by decide⟩

abbrev r1 : Fin 13 := ⟨1, by decide⟩

abbrev r12 : Fin 13 := ⟨12, by decide⟩

/-- The registers r8 to r12 of FIQ mode are left out. -/
structure State where
  gpr : Fin 13 → BitVec 32
  sp : Bank → BitVec 32
  lr : Bank → BitVec 32
  spsr : Bank → BitVec 32
  pc : BitVec 32
  cpsr : BitVec 32
  fpscr : BitVec 32
  d : Fin 32 → BitVec 64
  ifsr : BitVec 32
  dfsr : BitVec 32
  mem : Mem 32

namespace State

def mode (s : State) : BitVec 5 := field 0 5 s.cpsr

def bank (s : State) : Bank := Bank.ofMode s.mode

def currentSp (s : State) : BitVec 32 := s.sp s.bank

def currentLr (s : State) : BitVec 32 := s.lr s.bank

def setGpr (s : State) (i : Fin 13) (v : BitVec 32) : State :=
  { s with gpr := Function.update s.gpr i v }

def setSp (s : State) (v : BitVec 32) : State :=
  { s with sp := Function.update s.sp s.bank v }

def setLr (s : State) (v : BitVec 32) : State :=
  { s with lr := Function.update s.lr s.bank v }

def top (s : State) (k : ℕ) : BitVec 32 := loadWord s.mem (s.currentSp + BitVec.ofNat 32 (4 * k))

def push (s : State) (words : List (BitVec 32)) : State :=
  let place := s.currentSp - BitVec.ofNat 32 (4 * words.length)
  { s.setSp place with mem := storeWords s.mem place words }

def release (s : State) (words : ℕ) : State :=
  s.setSp (s.currentSp + BitVec.ofNat 32 (4 * words))

def vpush (s : State) (ds : List (Fin 32)) : State :=
  s.push (ds.flatMap fun i => doubleWords (s.d i))

def vpop (s : State) (ds : List (Fin 32)) : State :=
  { s.release (2 * ds.length) with
    d := fun i =>
      if i ∈ ds then loadDouble s.mem (s.currentSp + BitVec.ofNat 32 (8 * ds.idxOf i))
      else s.d i }

/-- `stmdb sp, {sp,lr}^`, which leaves the stack pointer where it is. -/
def storeUserBank (s : State) : State :=
  { s with mem := storeWords s.mem (s.currentSp - 8) [s.sp .user, s.lr .user] }

/-- `ldm sp, {sp,lr}^`, likewise. -/
def loadUserBank (s : State) : State :=
  { s with
    sp := Function.update s.sp .user (s.top 0)
    lr := Function.update s.lr .user (s.top 1) }

def cmp (s : State) (a b : BitVec 32) : State :=
  let flags : BitVec 4 :=
    BitVec.ofBool (a - b).msb ++ BitVec.ofBool (a - b = 0) ++ BitVec.ofBool (b ≤ a) ++
      BitVec.ofBool (BitVec.ssubOverflow a b)
  { s with cpsr := setField 28 s.cpsr flags }

def eq (s : State) : Bool := s.cpsr.getLsbD 30

def cps (s : State) (mode : BitVec 5) : State := { s with cpsr := setField 0 s.cpsr mode }

def cpsidI (s : State) : State := { s with cpsr := setField 7 s.cpsr (1 : BitVec 1) }

def mrsSpsr (s : State) (i : Fin 13) : State := s.setGpr i (s.spsr s.bank)

def msrSpsr (s : State) (fields : StatusFields) (v : BitVec 32) : State :=
  { s with spsr := Function.update s.spsr s.bank (fields.merge (s.spsr s.bank) v) }

/-- Where a load to the PC goes: the low bits of the address count for nothing,
unless the status selects Jazelle state. -/
def branchTarget (status address : BitVec 32) : BitVec 32 :=
  if status.getLsbD 5 then address &&& ~~~1
  else if status.getLsbD 24 then address
  else address &&& ~~~3

/-- `ldm sp!, {r0-r12, pc}^`, the exception return. -/
def exceptionReturn (s : State) : State :=
  { s.release 14 with
    gpr := fun i => s.top i
    cpsr := s.spsr s.bank
    pc := branchTarget (s.spsr s.bank) (s.top 13) }

/-- The exception entry: the link register is `offset` past the preferred return
address, interrupts and asynchronous aborts are masked, and the handler runs in
ARM state. -/
def takeAbort (s : State) (offset : BitVec 32) : State :=
  let status := setField 0 s.cpsr (0b10111 : BitVec 5)
  let masked := setField 7 (setField 8 status (1 : BitVec 1)) (1 : BitVec 1)
  let state := setField 5 (setField 24 masked (0 : BitVec 1)) (0 : BitVec 1)
  let endian := setField 9 state (0 : BitVec 1)
  { s with
    lr := Function.update s.lr .abort (s.pc + offset)
    spsr := Function.update s.spsr .abort s.cpsr
    cpsr := setField 25 (setField 10 endian (0 : BitVec 6)) (0 : BitVec 2) }

variable {s s' s'' : State}

@[simp] theorem mode_cmp (s : State) (a b : BitVec 32) : (s.cmp a b).mode = s.mode :=
  field_setField_of_disjoint _ _ (by decide) (by decide)

@[simp] theorem mode_cpsidI (s : State) : s.cpsidI.mode = s.mode :=
  field_setField_of_disjoint _ _ (by decide) (by decide)

@[simp] theorem mode_cps (s : State) (mode : BitVec 5) : (s.cps mode).mode = mode :=
  field_setField_self _ _ (by decide)

@[simp] theorem mode_takeAbort (s : State) (offset : BitVec 32) :
    (s.takeAbort offset).mode = 0b10111 := by
  simp only [mode, takeAbort]
  repeat rw [field_setField_of_disjoint _ _ (by decide) (by decide)]
  exact field_setField_self _ _ (by decide)

theorem bank_takeAbort (s : State) (offset : BitVec 32) :
    (s.takeAbort offset).bank = .abort := by
  rw [bank, mode_takeAbort]
  rfl

@[simp] theorem eq_cmp (s : State) (a b : BitVec 32) : (s.cmp a b).eq = decide (a = b) := by
  have hzero : a - b = 0 ↔ a = b := sub_eq_zero
  rw [eq, cmp, getLsbD_setField _ _ _ _ (by decide), if_pos (by decide),
    BitVec.getLsbD_append, if_neg (by decide), BitVec.getLsbD_append, if_neg (by decide),
    BitVec.getLsbD_append, if_pos (by decide), BitVec.getLsbD_ofBool]
  simp only [hzero, decide_true, Nat.reduceSub, Bool.true_and]

/-- The words have been pushed on the stack of the current mode. Besides, r0 may
have been used. -/
structure Pushed (s : State) (words : List (BitVec 32)) (s' : State) : Prop where
  gpr : ∀ i, i ≠ r0 → s'.gpr i = s.gpr i
  sp : s'.sp = Function.update s.sp s.bank
    (s.currentSp - BitVec.ofNat 32 (4 * words.length))
  lr : s'.lr = s.lr
  spsr : s'.spsr = s.spsr
  cpsr : s'.cpsr = s.cpsr
  fpscr : s'.fpscr = s.fpscr
  d : s'.d = s.d
  mem : s'.mem = storeWords s.mem (s.currentSp - BitVec.ofNat 32 (4 * words.length)) words

theorem Pushed.bank {words : List (BitVec 32)} (h : Pushed s words s') : s'.bank = s.bank := by
  rw [State.bank, State.bank, mode, mode, h.cpsr]

theorem Pushed.currentSp {words : List (BitVec 32)} (h : Pushed s words s') :
    s'.currentSp = s.currentSp - BitVec.ofNat 32 (4 * words.length) := by
  rw [State.currentSp, h.bank, h.sp, Function.update_self]

/-- What is pushed later lies below. -/
theorem Pushed.trans {words words' : List (BitVec 32)} (h : Pushed s words s')
    (h' : Pushed s' words' s'') : Pushed s (words' ++ words) s'' := by
  have hplace : s.currentSp - BitVec.ofNat 32 (4 * words.length) -
      BitVec.ofNat 32 (4 * words'.length) =
      s.currentSp - BitVec.ofNat 32 (4 * (words' ++ words).length) := by
    rw [List.length_append, Nat.mul_add, Nat.add_comm, BitVec.ofNat_add, BitVec.sub_sub]
  have hback : s.currentSp - BitVec.ofNat 32 (4 * (words' ++ words).length) +
      BitVec.ofNat 32 (4 * words'.length) =
      s.currentSp - BitVec.ofNat 32 (4 * words.length) := by
    rw [← hplace, BitVec.sub_add_cancel]
  constructor
  case gpr => exact fun i hi => (h'.gpr i hi).trans (h.gpr i hi)
  case sp => rw [h'.sp, h.bank, h.currentSp, h.sp, hplace, Function.update_idem]
  case lr => exact h'.lr.trans h.lr
  case spsr => exact h'.spsr.trans h.spsr
  case cpsr => exact h'.cpsr.trans h.cpsr
  case fpscr => exact h'.fpscr.trans h.fpscr
  case d => exact h'.d.trans h.d
  case mem => rw [h'.mem, h.mem, h.currentSp, hplace, storeWords_append, hback]

theorem pushed_push (s : State) (words : List (BitVec 32)) : Pushed s words (s.push words) where
  gpr := fun _ _ => rfl
  sp := rfl
  lr := rfl
  spsr := rfl
  cpsr := rfl
  fpscr := rfl
  d := rfl
  mem := rfl

theorem pushed_vpush (s : State) (ds : List (Fin 32)) :
    Pushed s (ds.flatMap fun i => doubleWords (s.d i)) (s.vpush ds) :=
  pushed_push s _

/-- A register is passed through r0. -/
theorem pushed_through_r0 (s : State) (v : BitVec 32) :
    Pushed s [v] ((s.setGpr r0 v).push [v]) where
  gpr := fun _ hi => Function.update_of_ne hi _ _
  sp := rfl
  lr := rfl
  spsr := rfl
  cpsr := rfl
  fpscr := rfl
  d := rfl
  mem := rfl

structure Popped (s : State) (words : ℕ) (s' : State) : Prop where
  sp : s'.sp = Function.update s.sp s.bank (s.currentSp + BitVec.ofNat 32 (4 * words))
  lr : s'.lr = s.lr
  spsr : s'.spsr = s.spsr
  cpsr : s'.cpsr = s.cpsr
  mem : s'.mem = s.mem

theorem Popped.bank {words : ℕ} (h : Popped s words s') : s'.bank = s.bank := by
  rw [State.bank, State.bank, mode, mode, h.cpsr]

theorem Popped.currentSp {words : ℕ} (h : Popped s words s') :
    s'.currentSp = s.currentSp + BitVec.ofNat 32 (4 * words) := by
  rw [State.currentSp, h.bank, h.sp, Function.update_self]

theorem Popped.top {words : ℕ} (h : Popped s words s') (k : ℕ) :
    s'.top k = s.top (words + k) := by
  rw [State.top, State.top, h.currentSp, h.mem, add_ofNat_add, Nat.mul_add]

theorem Popped.trans {words words' : ℕ} (h : Popped s words s') (h' : Popped s' words' s'') :
    Popped s (words + words') s'' where
  sp := by
    rw [h'.sp, h.bank, h.currentSp, h.sp, Function.update_idem, add_ofNat_add, Nat.mul_add]
  lr := h'.lr.trans h.lr
  spsr := h'.spsr.trans h.spsr
  cpsr := h'.cpsr.trans h.cpsr
  mem := h'.mem.trans h.mem

theorem popped_vpop (s : State) (ds : List (Fin 32)) :
    Popped s (2 * ds.length) (s.vpop ds) where
  sp := rfl
  lr := rfl
  spsr := rfl
  cpsr := rfl
  mem := rfl

end State

namespace StatusFields

theorem getLsbD_merge (fields : StatusFields) (old new : BitVec 32) {i : ℕ} (hi : i < 32) :
    (fields.merge old new).getLsbD i =
      if fields.mask.getLsbD i then new.getLsbD i else old.getLsbD i := by
  simp only [merge, BitVec.getLsbD_or, BitVec.getLsbD_and, BitVec.getLsbD_not, hi]
  cases fields.mask.getLsbD i <;> simp

theorem merge_self (fields : StatusFields) (v : BitVec 32) : fields.merge v v = v := by
  apply BitVec.eq_of_getLsbD_eq
  intro i hi
  rw [getLsbD_merge _ _ _ hi, ite_self]

/-- The mode is in one byte, which is written whole or not at all. -/
theorem mode_merge (fields : StatusFields) (old new : BitVec 32) :
    field 0 5 (fields.merge old new) =
      if fields.control then field 0 5 new else field 0 5 old := by
  apply BitVec.eq_of_getLsbD_eq
  intro i hi
  have hmask : fields.mask.getLsbD i = fields.control := by
    obtain ⟨f, s, x, c⟩ := fields
    have hcases : i = 0 ∨ i = 1 ∨ i = 2 ∨ i = 3 ∨ i = 4 := by omega
    rcases hcases with rfl | rfl | rfl | rfl | rfl <;>
      cases f <;> cases s <;> cases x <;> cases c <;> rfl
  rw [getLsbD_field, Nat.zero_add, getLsbD_merge _ _ _ (by omega), hmask]
  cases fields.control <;> simp [getLsbD_field]

end StatusFields
end V5gdb.Arm
