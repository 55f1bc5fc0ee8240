import V5gdb.Context
import Mathlib.Tactic.IntervalCases

/-!
The four ways to the registers of the stopped program agree.
The packet of all registers is the layout of the context's registers in one
order. Reading or writing a single register is reading or writing its field, and
its field lies where the target description puts it.
-/
namespace V5gdb

open LittleEndian RecordLayouts

inductive ContextReg
  | gpr (i : Fin 13)
  | sp
  | lr
  | pc
  | cpsr
  | fpr (i : Fin 32)
  | fpscr
  deriving DecidableEq

namespace DebugEventContext

def field : ContextReg → ByteField DebugEventContext
  | .gpr i => registerField i
  | .sp => stackPointerField
  | .lr => linkRegisterField
  | .pc => programCounterField
  | .cpsr => cpsrField
  | .fpr i => vfpRegisterField i
  | .fpscr => fpscrField

/-- Storing one register leaves all others alone. -/
theorem get_set_of_ne {r r' : ContextReg} (h : r ≠ r') (bs : Bytes) (c : DebugEventContext) :
    (field r').get ((field r).set bs c) = (field r').get c := by
  cases r with
  | gpr i =>
    cases r' with
    | gpr j =>
      have hij : j ≠ i := fun hji => h (by rw [hji])
      simp [field, registerField, wordField, hij]
    | _ => rfl
  | fpr i =>
    cases r' with
    | fpr j =>
      have hij : j ≠ i := fun hji => h (by rw [hji])
      simp [field, vfpRegisterField, hij]
    | _ => rfl
  | sp => cases r' <;> first | rfl | exact absurd rfl h
  | lr => cases r' <;> first | rfl | exact absurd rfl h
  | pc => cases r' <;> first | rfl | exact absurd rfl h
  | cpsr => cases r' <;> first | rfl | exact absurd rfl h
  | fpscr => cases r' <;> first | rfl | exact absurd rfl h

theorem field_independent {r r' : ContextReg} (h : r ≠ r') :
    (field r).Independent (field r') :=
  ⟨get_set_of_ne h, get_set_of_ne h.symm⟩

def gdbOrder : List ContextReg :=
  (List.finRange 13).map .gpr ++ [.sp, .lr, .pc, .cpsr] ++ (List.finRange 32).map .fpr ++ [.fpscr]

def gdbFields : List (ByteField DebugEventContext) := gdbOrder.map field

theorem gdbOrder_nodup : gdbOrder.Nodup := by decide

theorem mem_gdbOrder (r : ContextReg) : r ∈ gdbOrder := by
  cases r <;> simp [gdbOrder]

theorem gdbFields_independent : gdbFields.Pairwise ByteField.Independent :=
  List.pairwise_map.mpr (gdbOrder_nodup.imp field_independent)

theorem total_gdbFields : total gdbFields = 328 := by decide

theorem gdbSerialize_eq (c : DebugEventContext) : gdbSerialize c = serialize gdbFields c := by
  simp [gdbSerialize, serialize, gdbFields, gdbOrder, field, List.flatMap_map, registerField,
    stackPointerField, linkRegisterField, programCounterField, cpsrField, vfpRegisterField,
    fpscrField, wordField]

theorem gdbDeserialize_eq (c : DebugEventContext) (bytes : Bytes) :
    gdbDeserialize c bytes = deserialize gdbFields c bytes := by
  simp [gdbDeserialize, gdbFields, gdbOrder, field, Function.comp_def]

/-- A context is no more than its registers. -/
theorem ext_fields {c d : DebugEventContext} (h : ∀ f ∈ gdbFields, f.get c = f.get d) :
    c = d := by
  have hreg : ∀ r, (field r).get c = (field r).get d := fun r =>
    h _ (List.mem_map_of_mem (mem_gdbOrder r))
  have hword : ∀ {v w : BitVec 32}, toLe 4 v = toLe 4 w → v = w := fun hvw =>
    toLe_injective (by omega) hvw
  apply DebugEventContext.ext
  · exact congrArg ProgramStatus.mk (hword (hreg .cpsr))
  · exact hword (hreg .sp)
  · exact hword (hreg .lr)
  · exact hword (hreg .fpscr)
  · funext i
    exact toLe_injective (by omega) (hreg (.fpr i))
  · funext i
    exact hword (hreg (.gpr i))
  · exact hword (hreg .pc)

def contextReg? : ArmRegisterID → Option ContextReg
  | .gpr rid => if h : rid.toNat < 13 then some (.gpr ⟨rid.toNat, h⟩) else none
  | .sp => some .sp
  | .lr => some .lr
  | .pc => some .pc
  | .cpsr => some .cpsr
  | .fpr rid => if h : rid.toNat < 32 then some (.fpr ⟨rid.toNat, h⟩) else none
  | .fpscr => some .fpscr

/-- Reading a register reads its field. -/
theorem readRegister_field {id : ArmRegisterID} {r : ContextReg} (h : contextReg? id = some r)
    (c : DebugEventContext) {buf : Bytes} (hlen : buf.length = (field r).size) :
    c.readRegister id buf = .ok (.ok ((field r).get c, (field r).size)) := by
  have hread : ∀ num : Bytes, num = (field r).get c →
      readReg buf num = .ok (.ok ((field r).get c, (field r).size)) := by
    intro num hnum
    rw [readReg, hnum, (field r).length_get, if_pos hlen]
  cases id with
  | gpr rid =>
    simp only [contextReg?] at h
    split_ifs at h with hlt
    obtain rfl := Option.some.inj h
    rw [readRegister, dif_pos hlt]
    exact hread _ rfl
  | fpr rid =>
    simp only [contextReg?] at h
    split_ifs at h with hlt
    obtain rfl := Option.some.inj h
    rw [readRegister, dif_pos hlt]
    exact hread _ rfl
  | _ =>
    obtain rfl := Option.some.inj h
    exact hread _ rfl

/-- Writing a register stores its field, if the value is of the field's size. -/
theorem writeRegister_field {id : ArmRegisterID} {r : ContextReg} (h : contextReg? id = some r)
    (c : DebugEventContext) (val : Bytes) :
    c.writeRegister id val =
      if val.length = (field r).size then ((field r).set val c, .ok ())
      else (c, .error .nonFatal) := by
  have hword : ∀ set : BitVec 32 → DebugEventContext, writeReg 32 c set val =
      if val.length = 4 then (set (fromLe 32 val), .ok ()) else (c, .error .nonFatal) := by
    intro set
    have hiff : 8 * val.length = 32 ↔ val.length = 4 := by omega
    simp only [writeReg, hiff]
  cases id with
  | gpr rid =>
    simp only [contextReg?] at h
    split_ifs at h with hlt
    obtain rfl := Option.some.inj h
    rw [writeRegister, dif_pos hlt]
    exact hword _
  | fpr rid =>
    simp only [contextReg?] at h
    split_ifs at h with hlt
    obtain rfl := Option.some.inj h
    have hiff : 8 * val.length = 64 ↔ val.length = 8 := by omega
    rw [writeRegister, dif_pos hlt]
    simp only [writeReg, hiff]
    rfl
  | sp =>
    obtain rfl := Option.some.inj h
    exact hword fun v => { c with stackPointer := v }
  | lr =>
    obtain rfl := Option.some.inj h
    exact hword fun v => { c with linkRegister := v }
  | pc =>
    obtain rfl := Option.some.inj h
    exact hword fun v => { c with programCounter := v }
  | cpsr =>
    obtain rfl := Option.some.inj h
    exact hword fun v => { c with cpsr := ⟨v⟩ }
  | fpscr =>
    obtain rfl := Option.some.inj h
    exact hword fun v => { c with fpscr := v }

/-- The numbers, sizes and offsets of the target description are those of the
packet: checked register by register. -/
def describes (raw : ℕ) : Bool :=
  match ArmRegisterID.fromRawId raw with
  | none => locate raw 0 0 targetFullXml = none
  | some (id, n) =>
    match contextReg? id with
    | none => false
    | some r =>
      (field r).size = n &&
        locate raw 0 0 targetFullXml = some (offset gdbFields (gdbOrder.idxOf r), n)

theorem describes_all : ∀ raw < 59, describes raw = true := by decide

theorem fromRawId_lt {raw : ℕ} {id : ArmRegisterID} {n : ℕ}
    (h : ArmRegisterID.fromRawId raw = some (id, n)) : raw < 59 := by
  by_contra hge
  have hnone : ArmRegisterID.fromRawId raw = none := by
    unfold ArmRegisterID.fromRawId
    rw [if_neg (by omega), if_neg (by omega), if_neg (by omega), if_neg (by omega),
      if_neg (by omega), if_neg (by omega), if_neg (by omega)]
    rfl
  rw [hnone] at h
  cases h

/-- An accepted number names a register of the context, whose field is as large
as reported and lies where the target description puts it. -/
theorem fromRawId_spec {raw : ℕ} {id : ArmRegisterID} {n : ℕ}
    (h : ArmRegisterID.fromRawId raw = some (id, n)) :
    ∃ r, contextReg? id = some r ∧ (field r).size = n ∧
      locate raw 0 0 targetFullXml = some (offset gdbFields (gdbOrder.idxOf r), n) := by
  have hraw := describes_all raw (fromRawId_lt h)
  rw [describes, h] at hraw
  simp only at hraw
  cases hr : contextReg? id with
  | none =>
    rw [hr] at hraw
    cases hraw
  | some r =>
    rw [hr] at hraw
    simp only [Bool.and_eq_true, decide_eq_true_eq] at hraw
    exact ⟨r, rfl, hraw.1, hraw.2⟩

theorem gdbFields_getElem? (r : ContextReg) :
    gdbFields[gdbOrder.idxOf r]? = some (field r) := by
  rw [gdbFields, List.getElem?_map, List.getElem?_idxOf (mem_gdbOrder r)]
  rfl

/-- The single accesses of a register are accesses of one slice of the packet. -/
structure AccessesSlice (c : DebugEventContext) (id : ArmRegisterID) (start n : ℕ) : Prop where
  read : ∀ buf : Bytes, buf.length = n →
    c.readRegister id buf = .ok (.ok ((c.gdbSerialize.drop start).take n, n))
  write : ∀ val : Bytes, val.length = n → ∃ c', c.writeRegister id val = (c', .ok ()) ∧
    c'.gdbSerialize = c.gdbSerialize.take start ++ val ++ c.gdbSerialize.drop (start + n)
  refuse : ∀ val : Bytes, val.length ≠ n → ∃ e, c.writeRegister id val = (c, .error e)

structure PathsAgree (c : DebugEventContext) : Prop where
  roundTrip : ∀ d : DebugEventContext, d.gdbDeserialize c.gdbSerialize = (c, .ok ())
  accepts : ∀ bytes : Bytes, (c.gdbDeserialize bytes).2 = .ok () ↔ 328 ≤ bytes.length
  front : ∀ bytes : Bytes, (c.gdbDeserialize bytes).2 = .ok () →
    (c.gdbDeserialize bytes).1.gdbSerialize = bytes.take 328
  single : ∀ raw id n, ArmRegisterID.fromRawId raw = some (id, n) →
    ∃ start, locate raw 0 0 targetFullXml = some (start, n) ∧ c.AccessesSlice id start n

theorem accesses_slice {c : DebugEventContext} {id : ArmRegisterID} {r : ContextReg}
    (h : contextReg? id = some r) :
    c.AccessesSlice id (offset gdbFields (gdbOrder.idxOf r)) (field r).size where
  read := by
    intro buf hlen
    rw [readRegister_field h c hlen, gdbSerialize_eq, slice_serialize (gdbFields_getElem? r)]
  write := by
    intro val hlen
    refine ⟨(field r).set val c, by rw [writeRegister_field h, if_pos hlen], ?_⟩
    rw [gdbSerialize_eq, gdbSerialize_eq,
      serialize_set gdbFields_independent (gdbFields_getElem? r) c hlen]
  refuse := by
    intro val hlen
    exact ⟨.nonFatal, by rw [writeRegister_field h, if_neg hlen]⟩

/-- All registers at once, one register at a time and the target description are
about the same bytes in the same order. -/
theorem register_paths_agree (c : DebugEventContext) : c.PathsAgree where
  roundTrip := by
    intro d
    rw [gdbDeserialize_eq, gdbSerialize_eq]
    exact deserialize_serialize gdbFields_independent (fun _ _ h => ext_fields h) d c
  accepts := by
    intro bytes
    rw [gdbDeserialize_eq, deserialize_ok_iff, total_gdbFields]
  front := by
    intro bytes hok
    rw [gdbDeserialize_eq] at hok ⊢
    have hlen := (deserialize_ok_iff ..).mp hok
    rw [gdbSerialize_eq, serialize_deserialize gdbFields_independent c hlen, total_gdbFields]
  single := by
    intro raw id n hraw
    obtain ⟨r, hr, rfl, hloc⟩ := fromRawId_spec hraw
    exact ⟨_, hloc, accesses_slice hr⟩

end DebugEventContext
end V5gdb
