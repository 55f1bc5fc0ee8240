import V5gdb.Bitfields
import V5gdb.LittleEndian
import V5gdb.Outcomes
import V5gdb.RecordLayouts

/-!
The saved context of a stopped program, and the ways GDB reads and writes it:
all registers at once, as one sequence of bytes, or a single register by its
number.
-/
namespace V5gdb

open LittleEndian RecordLayouts

structure ProgramStatus where
  raw : BitVec 32
  deriving DecidableEq, Repr

def ProgramStatus.thumb (s : ProgramStatus) : Bool := Bitfields.field 5 1 s.raw = 1

/-- All the data captured during an exception about the previous state of the program. -/
@[ext] structure DebugEventContext where
  cpsr : ProgramStatus
  stackPointer : BitVec 32
  linkRegister : BitVec 32
  fpscr : BitVec 32
  vfpRegisters : Fin 32 → BitVec 64
  registers : Fin 13 → BitVec 32
  programCounter : BitVec 32

inductive ArmRegisterID
  | gpr (rid : BitVec 8)
  | sp
  | lr
  | pc
  | cpsr
  | fpr (rid : BitVec 8)
  | fpscr
  deriving DecidableEq, Repr

namespace ArmRegisterID

def size : ArmRegisterID → ℕ
  | fpr _ => 8
  | _ => 4

def fromRawId (id : ℕ) : Option (ArmRegisterID × ℕ) := do
  let reg ←
    if id ≤ 12 then some (gpr (BitVec.ofNat 8 id))
    else if id = 13 then some sp
    else if id = 14 then some lr
    else if id = 15 then some pc
    else if id = 25 then some cpsr
    else if 26 ≤ id ∧ id ≤ 57 then some (fpr (BitVec.ofNat 8 (id - 26)))
    else if id = 58 then some fpscr
    else none
  return (reg, reg.size)

end ArmRegisterID

namespace DebugEventContext

def gdbSerialize (c : DebugEventContext) : Bytes :=
  (List.finRange 13).flatMap (fun i => toLe 4 (c.registers i)) ++
    toLe 4 c.stackPointer ++ toLe 4 c.linkRegister ++ toLe 4 c.programCounter ++
    toLe 4 c.cpsr.raw ++
    (List.finRange 32).flatMap (fun i => toLe 8 (c.vfpRegisters i)) ++
    toLe 4 c.fpscr

def wordField (get : DebugEventContext → BitVec 32)
    (set : BitVec 32 → DebugEventContext → DebugEventContext)
    (h : ∀ v c, get (set v c) = v) : ByteField DebugEventContext where
  size := 4
  get := fun c => toLe 4 (get c)
  set := fun bs => set (fromLe 32 bs)
  length_get := by simp
  get_set := by
    intro bs c hlen
    rw [h, ← hlen]
    exact toLe_fromLe bs (by omega)

def registerField (i : Fin 13) : ByteField DebugEventContext :=
  wordField (fun c => c.registers i)
    (fun v c => { c with registers := Function.update c.registers i v }) (by simp)

def stackPointerField : ByteField DebugEventContext :=
  wordField stackPointer (fun v c => { c with stackPointer := v }) (fun _ _ => rfl)

def linkRegisterField : ByteField DebugEventContext :=
  wordField linkRegister (fun v c => { c with linkRegister := v }) (fun _ _ => rfl)

def programCounterField : ByteField DebugEventContext :=
  wordField programCounter (fun v c => { c with programCounter := v }) (fun _ _ => rfl)

def cpsrField : ByteField DebugEventContext :=
  wordField (fun c => c.cpsr.raw) (fun v c => { c with cpsr := ⟨v⟩ }) (fun _ _ => rfl)

def fpscrField : ByteField DebugEventContext :=
  wordField fpscr (fun v c => { c with fpscr := v }) (fun _ _ => rfl)

def vfpRegisterField (i : Fin 32) : ByteField DebugEventContext where
  size := 8
  get := fun c => toLe 8 (c.vfpRegisters i)
  set := fun bs c => { c with vfpRegisters := Function.update c.vfpRegisters i (fromLe 64 bs) }
  length_get := by simp
  get_set := by
    intro bs c hlen
    simp only [Function.update_self]
    rw [← hlen]
    exact toLe_fromLe bs (by omega)

/-- Takes the registers off the bytes in this order; fails where the bytes run out. -/
def gdbDeserialize (c : DebugEventContext) (bytes : Bytes) :
    DebugEventContext × Except Unit Unit :=
  deserialize ((List.finRange 13).map registerField ++
    [stackPointerField, linkRegisterField, programCounterField, cpsrField] ++
    (List.finRange 32).map vfpRegisterField ++ [fpscrField]) c bytes

/-- `copy_from_slice` into a buffer of another length is a panic. -/
def readReg (buf num : Bytes) : Exec (Except TargetError (Bytes × ℕ)) :=
  if buf.length = num.length then .ok (.ok (num, num.length)) else .error .sliceLength

/-- Reads a register into the buffer; the number of bytes read is returned with it. -/
def readRegister (c : DebugEventContext) (regId : ArmRegisterID) (buf : Bytes) :
    Exec (Except TargetError (Bytes × ℕ)) :=
  match regId with
  | .gpr rid =>
    if h : rid.toNat < 13 then readReg buf (toLe 4 (c.registers ⟨rid.toNat, h⟩))
    else .ok (.error .nonFatal)
  | .sp => readReg buf (toLe 4 c.stackPointer)
  | .lr => readReg buf (toLe 4 c.linkRegister)
  | .pc => readReg buf (toLe 4 c.programCounter)
  | .cpsr => readReg buf (toLe 4 c.cpsr.raw)
  | .fpr rid =>
    if h : rid.toNat < 32 then readReg buf (toLe 8 (c.vfpRegisters ⟨rid.toNat, h⟩))
    else .ok (.error .nonFatal)
  | .fpscr => readReg buf (toLe 4 c.fpscr)

/-- A value of another length than the register's is refused. -/
def writeReg (w : ℕ) (c : DebugEventContext) (set : BitVec w → DebugEventContext)
    (val : Bytes) : DebugEventContext × Except TargetError Unit :=
  if 8 * val.length = w then (set (fromLe w val), .ok ()) else (c, .error .nonFatal)

def writeRegister (c : DebugEventContext) (regId : ArmRegisterID) (val : Bytes) :
    DebugEventContext × Except TargetError Unit :=
  match regId with
  | .gpr rid =>
    if h : rid.toNat < 13 then
      writeReg 32 c
        (fun v => { c with registers := Function.update c.registers ⟨rid.toNat, h⟩ v }) val
    else (c, .error .nonFatal)
  | .sp => writeReg 32 c (fun v => { c with stackPointer := v }) val
  | .lr => writeReg 32 c (fun v => { c with linkRegister := v }) val
  | .pc => writeReg 32 c (fun v => { c with programCounter := v }) val
  | .cpsr => writeReg 32 c (fun v => { c with cpsr := ⟨v⟩ }) val
  | .fpr rid =>
    if h : rid.toNat < 32 then
      writeReg 64 c
        (fun v => { c with vfpRegisters := Function.update c.vfpRegisters ⟨rid.toNat, h⟩ v }) val
    else (c, .error .nonFatal)
  | .fpscr => writeReg 32 c (fun v => { c with fpscr := v }) val

end DebugEventContext

structure RegEntry where
  bitsize : ℕ
  regnum : Option ℕ

def targetFullXml : List RegEntry :=
  -- r0 to r12, sp, lr, pc
  List.replicate 16 ⟨32, none⟩ ++
  -- cpsr
  [⟨32, some 25⟩] ++
  -- d0 to d31
  List.replicate 32 ⟨64, none⟩ ++
  -- fpscr
  [⟨32, none⟩]

/-- Where a register lies in the packet of all registers, and its size. An entry
without a number of its own has the number after its predecessor's. -/
def locate (raw : ℕ) : (next start : ℕ) → List RegEntry → Option (ℕ × ℕ)
  | _, _, [] => none
  | next, start, e :: es =>
    let number := e.regnum.getD next
    if number = raw then some (start, e.bitsize / 8)
    else locate raw (number + 1) (start + e.bitsize / 8) es

end V5gdb
