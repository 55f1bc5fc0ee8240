import V5gdb.IrqHandler
import V5gdb.Transitions

/-!
The overlay vector table and its installation.
The addresses of the original entries are computed once, from the table that was in use
before. From then on every exception that is no debug event reaches its original entry as
if nothing had been in between, however often the table is installed again.
-/
namespace V5gdb

open ByteMemory Arm Transitions

inductive Exception
  | reset
  | undefined
  | supervisorCall
  | prefetchAbort
  | dataAbort
  | irq
  | fiq
  deriving DecidableEq, Repr

def Exception.index : Exception → ℕ
  | reset => 0
  | undefined => 1
  | supervisorCall => 2
  | prefetchAbort => 3
  | dataAbort => 4
  | irq => 6
  | fiq => 7

def AbortKind.exception : AbortKind → Exception
  | prefetch => .prefetchAbort
  | data => .dataAbort

structure Image where
  vectorTable : BitVec 32
  originalAddresses : BitVec 32
  abortStack : BitVec 32

def ABORT_STACK_SIZE : BitVec 32 := 0x8000

structure VectorBaseAddressRegister where
  raw : BitVec 32
  deriving DecidableEq, Repr

namespace VectorBaseAddressRegister

/-- `new`, or nothing where the assertion fails. -/
def new? (addr : BitVec 32) : Option VectorBaseAddressRegister :=
  if addr &&& 0b11111 = 0 then some ⟨addr⟩ else none

def ptr (v : VectorBaseAddressRegister) : BitVec 32 :=
  (Bitfields.field 5 27 v.raw).setWidth 32 <<< 5

end VectorBaseAddressRegister

namespace Arm.State

def cpsidF (s : State) : State := { s with cpsr := Bitfields.setField 6 s.cpsr (1 : BitVec 1) }

def cpsieF (s : State) : State := { s with cpsr := Bitfields.setField 6 s.cpsr (0 : BitVec 1) }

def ldrPc (s : State) (address : BitVec 32) : State :=
  { s with
    cpsr := Bitfields.setField 5 s.cpsr (BitVec.ofBool (address.getLsbD 0))
    pc := address &&& ~~~1 }

end Arm.State

/-- The CPU with its vector base address, and `ORIGINAL_VECTOR_ADDRESSES_SET`. -/
structure Processor where
  cpu : State
  vbar : VectorBaseAddressRegister
  originalVectorAddressesSet : Bool

namespace Image

variable (image : Image)

def originalVectorAddresses (vbar : VectorBaseAddressRegister) : List (BitVec 32) :=
  (List.range 8).map fun i => vbar.ptr + BitVec.ofNat 32 (i * 4)

/-- The first installation. The critical section around it leaves no trace. -/
def setOriginalVectorAddresses (p : Processor) : Processor :=
  let oldVbar := p.vbar
  -- cpsid f; cps #0b10111; ldr sp, ={abort_stack}+{stack_size}; cps #0b11111
  let s := p.cpu.cpsidF.cps 0b10111
  let s := (s.setSp (image.abortStack + ABORT_STACK_SIZE)).cps 0b11111
  let s := { s with
    mem := storeWords s.mem image.originalAddresses (originalVectorAddresses oldVbar) }
  -- dsb; cpsie f
  { p with cpu := s.cpsieF, originalVectorAddressesSet := true }

def installVectors (p : Processor) : Option Processor := do
  let p := if p.originalVectorAddressesSet then p else image.setOriginalVectorAddresses p
  let vbar ← VectorBaseAddressRegister.new? image.vectorTable
  return { p with vbar }

def originalAddress (s : State) (k : Exception) : BitVec 32 :=
  loadWord s.mem (image.originalAddresses + BitVec.ofNat 32 (4 * k.index))

/-- An exception of the kind `k` in the state `s` has gone through the overlay table. The
poll leaves alone the memory that is `kept`. -/
inductive Enters (kept : BitVec 32 → Prop) : Exception → State → AbortTarget → State → Prop
  /-- `ldr pc, original_reset_addr`, and so on -/
  | direct {s : State} {k : Exception}
      (hk : k ∈ [Exception.reset, .undefined, .supervisorCall, .fiq]) :
      Enters kept k s .originalVector (s.ldrPc (image.originalAddress s k))
  /-- `ldrne pc, original_prefetch_abt_addr`, and its like for data aborts -/
  | passed {s s' : State} (kind : AbortKind) (htest : kind.vector s = (.originalVector, s')) :
      Enters kept kind.exception s .originalVector
        (s'.ldrPc (image.originalAddress s' kind.exception))
  | caught {s s' : State} (kind : AbortKind) (htest : kind.vector s = (.catchDebugEvent, s')) :
      Enters kept kind.exception s .catchDebugEvent s'
  | irq {s t : State} (hcall : IrqHandler.Returned kept (IrqHandler.save s) t) :
      Enters kept .irq s .originalVector
        ((IrqHandler.restore t).ldrPc (image.originalAddress (IrqHandler.restore t) .irq))

inductive VectorEvent
  | install
  | run

inductive Step : Processor → VectorEvent → Processor → Prop
  | install {p p' : Processor} (hinstall : image.installVectors p = some p') : Step p .install p'
  | run {p p' : Processor}
      (hmem : ∀ x, Within image.originalAddresses 32 x → p'.cpu.mem x = p.cpu.mem x)
      (hset : p'.originalVectorAddressesSet = p.originalVectorAddressesSet) : Step p .run p'

end Image

/-- The abort handlers take it for a debug event. -/
def Exception.IsDebugEvent (s : State) : Exception → Prop
  | prefetchAbort => s.ifsr &&& 0b1111 = 0b00010
  | dataAbort => s.dfsr &&& 0b1111 = 0b00010
  | _ => False

section Entries

variable {s s' : State} {address : BitVec 32}

theorem and_not_one (h : address.getLsbD 0 = false) : address &&& ~~~1 = address := by
  apply BitVec.eq_of_getLsbD_eq
  intro i hi
  rw [BitVec.getLsbD_and, BitVec.getLsbD_not]
  rcases Nat.eq_zero_or_pos i with rfl | hpos
  · rw [h, Bool.false_and]
  · have hone : (1#32).getLsbD i = false := by
      rw [BitVec.getLsbD_one]
      simp [show ¬i = 0 by omega]
    rw [show (1 : BitVec 32) = 1#32 from rfl, hone]
    simp only [hi, decide_true, Bool.not_false, Bool.and_true]

/-- Entries of a table at a vector base address are ARM code. -/
theorem VectorBaseAddressRegister.getLsbD_entry (v : VectorBaseAddressRegister) (i : ℕ) :
    (v.ptr + BitVec.ofNat 32 (4 * i)).getLsbD 0 = false := by
  have hbit : ∀ a : BitVec 32, a.getLsbD 0 = decide (a.toNat % 2 = 1) := by
    intro a
    rw [BitVec.getLsbD, Nat.testBit_zero]
  have hptr : v.ptr.toNat % 2 = 0 := by
    rw [ptr, BitVec.toNat_shiftLeft, Nat.shiftLeft_eq]
    omega
  have heven : (v.ptr + BitVec.ofNat 32 (4 * i)).toNat % 2 = 0 := by
    rw [BitVec.toNat_add, BitVec.toNat_ofNat]
    omega
  rw [hbit, decide_eq_false]
  omega

theorem IrqHandler.Preserved.ldrPc (h : IrqHandler.Preserved s s')
    (harm : s.cpsr.getLsbD 5 = false) (haddress : address.getLsbD 0 = false) :
    IrqHandler.Preserved s (s'.ldrPc address) ∧ (s'.ldrPc address).pc = address := by
  refine ⟨⟨h.gpr, h.sp, h.lr, h.spsr, ?_, h.fpscr, h.d⟩, and_not_one haddress⟩
  rw [← h.control]
  have harm' : s'.cpsr.getLsbD 5 = false := by
    have hbit : (Bitfields.field 0 10 s'.cpsr).getLsbD 5 =
        (Bitfields.field 0 10 s.cpsr).getLsbD 5 := by rw [h.control]
    rw [Bitfields.getLsbD_field, Bitfields.getLsbD_field, Nat.zero_add, harm] at hbit
    exact hbit
  apply BitVec.eq_of_getLsbD_eq
  intro i hi
  rw [Bitfields.getLsbD_field, Bitfields.getLsbD_field, State.ldrPc,
    Bitfields.getLsbD_setField _ _ _ _ (by omega), haddress]
  split_ifs with hfive
  · obtain rfl : i = 5 := by omega
    rw [Nat.zero_add, harm']
    rfl
  · rfl

theorem SameRegisters.preserved (h : SameRegisters s s')
    (hcontrol : Bitfields.field 0 10 s'.cpsr = Bitfields.field 0 10 s.cpsr) :
    IrqHandler.Preserved s s' := ⟨h.gpr, h.sp, h.lr, h.spsr, hcontrol, h.fpscr, h.d⟩

theorem control_testFaultStatus (fsr : State → BitVec 32) (s : State) :
    Bitfields.field 0 10 (testFaultStatus fsr s).cpsr = Bitfields.field 0 10 s.cpsr :=
  Bitfields.field_setField_of_disjoint _ _ (by decide) (by decide)

theorem mem_testFaultStatus (fsr : State → BitVec 32) (s : State) :
    (testFaultStatus fsr s).mem = storeWords s.mem (s.currentSp - 4) [s.gpr r0] := rfl

/-- An abort handler passes on what is no debug event, with nothing changed but a word below
the stack pointer. -/
theorem AbortKind.vector_spec (kind : AbortKind) (s : State) :
    ((kind.vector s).1 = .catchDebugEvent ↔ kind.exception.IsDebugEvent s) ∧
      ((kind.vector s).1 = .originalVector → IrqHandler.Preserved s (kind.vector s).2 ∧
        (kind.vector s).2.mem = storeWords s.mem (s.currentSp - 4) [s.gpr r0]) := by
  have hhandler : ∀ (fsr : State → BitVec 32) (offset : BitVec 32),
      (∀ words, fsr (s.push words) = fsr s) →
      ((abortHandler fsr offset s).1 = .catchDebugEvent ↔ fsr s &&& 0b1111 = 0b00010) ∧
        ((abortHandler fsr offset s).1 = .originalVector →
          IrqHandler.Preserved s (abortHandler fsr offset s).2 ∧
          (abortHandler fsr offset s).2.mem =
            storeWords s.mem (s.currentSp - 4) [s.gpr r0]) := by
    intro fsr offset hfsr
    obtain ⟨hsame, heq⟩ := @testFaultStatus_spec s fsr hfsr
    rw [abortHandler]
    by_cases hdebug : fsr s &&& 0b1111 = 0b00010
    · rw [heq, decide_eq_true hdebug]
      exact ⟨iff_of_true rfl hdebug, fun h => by cases h⟩
    · rw [heq, decide_eq_false hdebug]
      exact ⟨iff_of_false (fun h => by cases h) hdebug,
        fun _ => ⟨hsame.preserved (control_testFaultStatus fsr s), mem_testFaultStatus fsr s⟩⟩
  cases kind with
  | prefetch => exact hhandler State.ifsr 4 fun _ => rfl
  | data => exact hhandler State.dfsr 8 fun _ => rfl

end Entries

namespace Image

variable {image : Image} {kept : BitVec 32 → Prop} {s s' : State} {k : Exception}
  {target : AbortTarget} {vbar : VectorBaseAddressRegister}

theorem length_originalVectorAddresses (vbar : VectorBaseAddressRegister) :
    (originalVectorAddresses vbar).length = 8 := rfl

def HoldsOriginals (image : Image) (vbar : VectorBaseAddressRegister) (m : Mem 32) : Prop :=
  HoldsWords m image.originalAddresses (originalVectorAddresses vbar)

theorem HoldsOriginals.congr {m m' : Mem 32} (h : image.HoldsOriginals vbar m)
    (hmem : ∀ x, Within image.originalAddresses 32 x → m' x = m x) :
    image.HoldsOriginals vbar m' :=
  HoldsWords.congr h (by rw [length_originalVectorAddresses]; decide)
    (by rwa [length_originalVectorAddresses])

theorem HoldsOriginals.originalAddress (h : image.HoldsOriginals vbar s.mem) (k : Exception) :
    image.originalAddress s k = vbar.ptr + BitVec.ofNat 32 (4 * k.index) := by
  have hword : (originalVectorAddresses vbar)[k.index]? =
      some (vbar.ptr + BitVec.ofNat 32 (k.index * 4)) := by
    cases k <;> rfl
  rw [Nat.mul_comm] at hword
  exact h k.index _ hword

/-- The original handler finds the state of the exception, and its memory. -/
structure PassedOn (kept : BitVec 32 → Prop) (s : State) (entry : BitVec 32) (s' : State) :
    Prop where
  preserved : IrqHandler.Preserved s s'
  pc : s'.pc = entry
  mem : ∀ x, kept x → ¬Within (s.currentSp - 224) 224 x → s'.mem x = s.mem x

theorem HoldsOriginals.passedOn {t : State} (h : image.HoldsOriginals vbar s.mem)
    (hpreserved : IrqHandler.Preserved s t) (harm : s.cpsr.getLsbD 5 = false)
    (hmem : ∀ x, kept x → ¬Within (s.currentSp - 224) 224 x → t.mem x = s.mem x)
    (hstack : ByteMemory.Disjoint (s.currentSp - 224) 224 image.originalAddresses 32)
    (hkept : ∀ x, Within image.originalAddresses 32 x → kept x) (k : Exception) :
    PassedOn kept s (vbar.ptr + BitVec.ofNat 32 (4 * k.index))
      (t.ldrPc (image.originalAddress t k)) := by
  have hholds : image.HoldsOriginals vbar t.mem :=
    h.congr fun x hx => hmem x (hkept x hx) fun hin => hstack x hin hx
  rw [hholds.originalAddress k]
  obtain ⟨hpassed, hpc⟩ := hpreserved.ldrPc harm (vbar.getLsbD_entry k.index)
  exact ⟨hpassed, hpc, hmem⟩

theorem Enters.spec (henter : image.Enters kept k s target s')
    (h : image.HoldsOriginals vbar s.mem) (harm : s.cpsr.getLsbD 5 = false)
    (hstack : ByteMemory.Disjoint (s.currentSp - 224) 224 image.originalAddresses 32)
    (hkept : ∀ x, Within (s.currentSp - 224) 224 x ∨ Within image.originalAddresses 32 x →
      kept x) :
    (target = .catchDebugEvent ↔ k.IsDebugEvent s) ∧
      (target = .originalVector →
        PassedOn kept s (vbar.ptr + BitVec.ofNat 32 (4 * k.index)) s') := by
  cases henter with
  | direct hk =>
    have hnot : ¬k.IsDebugEvent s := by
      simp only [List.mem_cons, List.not_mem_nil, or_false] at hk
      rcases hk with rfl | rfl | rfl | rfl <;> exact not_false
    refine ⟨iff_of_false AbortTarget.noConfusion hnot, fun _ => ?_⟩
    exact h.passedOn ⟨rfl, rfl, rfl, rfl, rfl, rfl, rfl⟩ harm (fun _ _ _ => rfl) hstack
      (fun x hx => hkept x (.inr hx)) k
  | passed kind htest =>
    obtain ⟨hdebug, hpassed⟩ := kind.vector_spec s
    rw [htest] at hdebug hpassed
    obtain ⟨hpreserved, hmem⟩ := hpassed rfl
    refine ⟨hdebug, fun _ => h.passedOn hpreserved harm ?_ hstack
      (fun x hx => hkept x (.inr hx)) kind.exception⟩
    intro x _ hout
    rw [hmem]
    refine storeWords_of_not_within _ (by simp) fun hin => hout ?_
    have hplace : s.currentSp - 224 + BitVec.ofNat 32 220 = s.currentSp - 4 := by
      rw [BitVec.sub_eq_add_neg, BitVec.sub_eq_add_neg, BitVec.add_assoc]
      rfl
    rw [← hplace] at hin
    exact hin.of_add (by decide) (by simp)
  | caught kind htest =>
    obtain ⟨hdebug, _⟩ := kind.vector_spec s
    rw [htest] at hdebug
    exact ⟨hdebug, fun h => by cases h⟩
  | irq hcall =>
    obtain ⟨hpreserved, hmem⟩ :=
      IrqHandler.restore_transparent (fun x hx => hkept x (.inl hx)) hcall
    refine ⟨iff_of_false AbortTarget.noConfusion not_false, fun _ => ?_⟩
    exact h.passedOn hpreserved harm hmem hstack (fun x hx => hkept x (.inr hx)) .irq

/-! The installation. -/

variable {p p' : Processor} {e : VectorEvent} {es : List VectorEvent}

structure Installed (image : Image) (vbar : VectorBaseAddressRegister) (p : Processor) :
    Prop where
  set : p.originalVectorAddressesSet = true
  originals : image.HoldsOriginals vbar p.cpu.mem

theorem installVectors_some (h : image.installVectors p = some p') :
    image.vectorTable &&& 0b11111 = 0 ∧
      p' = { (if p.originalVectorAddressesSet then p else image.setOriginalVectorAddresses p) with
        vbar := ⟨image.vectorTable⟩ } := by
  obtain ⟨v, hnew, hp'⟩ := Option.bind_eq_some_iff.mp h
  rw [VectorBaseAddressRegister.new?] at hnew
  split_ifs at hnew with haligned
  obtain rfl := Option.some.inj hnew
  exact ⟨haligned, (Option.some.inj hp').symm⟩

theorem installed_of_install (h : image.installVectors p = some p')
    (hfirst : p.originalVectorAddressesSet = false) : image.Installed p.vbar p' := by
  obtain ⟨_, rfl⟩ := installVectors_some h
  rw [hfirst]
  exact ⟨rfl, holdsWords_storeWords _ _ (by rw [length_originalVectorAddresses]; decide)⟩

theorem Installed.again (hp : image.Installed vbar p) (h : image.installVectors p = some p') :
    p' = { p with vbar := ⟨image.vectorTable⟩ } := by
  obtain ⟨_, rfl⟩ := installVectors_some h
  rw [if_pos hp.set]

theorem Installed.step (hp : image.Installed vbar p) (hstep : image.Step p e p') :
    image.Installed vbar p' := by
  cases hstep with
  | install hinstall =>
    rw [hp.again hinstall]
    exact ⟨hp.set, hp.originals⟩
  | run hmem hset => exact ⟨hset.trans hp.set, hp.originals.congr hmem⟩

/-- From the first installation on, whatever runs and however often the table is installed
again: an exception is caught if it is a debug event, and else reaches the entry that it had
in the first table with registers, modes and memory as they were. A repeated installation
changes nothing but the vector base address. -/
theorem exceptions_passed_on (image : Image) (p p₁ p' : Processor)
    (hfirst : p.originalVectorAddressesSet = false) (hinstall : image.installVectors p = some p₁)
    (es : List VectorEvent) (hrun : Run image.Step p₁ es p') :
    (∀ p'', image.installVectors p' = some p'' →
      p'' = { p' with vbar := ⟨image.vectorTable⟩ }) ∧
    ∀ (k : Exception) (kept : BitVec 32 → Prop) (s s' : State) (target : AbortTarget),
      s.mem = p'.cpu.mem → s.cpsr.getLsbD 5 = false →
      ByteMemory.Disjoint (s.currentSp - 224) 224 image.originalAddresses 32 →
      (∀ x, Within (s.currentSp - 224) 224 x ∨ Within image.originalAddresses 32 x → kept x) →
      image.Enters kept k s target s' →
      (target = .catchDebugEvent ↔ k.IsDebugEvent s) ∧
        (target = .originalVector →
          PassedOn kept s (p.vbar.ptr + BitVec.ofNat 32 (4 * k.index)) s') := by
  have hinstalled : image.Installed p.vbar p' :=
    hrun.invariant (P := fun _ q => image.Installed p.vbar q)
      (installed_of_install hinstall hfirst) (fun _ _ _ _ h hstep => h.step hstep)
  refine ⟨fun p'' h => hinstalled.again h, ?_⟩
  intro k kept s s' target hmem harm hstack hkept henter
  exact henter.spec (hmem ▸ hinstalled.originals) harm hstack hkept

/-- The table is installed twice, and an interrupt is taken for which the poll does
nothing. -/
theorem exceptions_passed_on_irq :
    ∃ (image : Image) (p p₁ p₂ : Processor) (s s' : State),
      image.installVectors p = some p₁ ∧ image.installVectors p₁ = some p₂ ∧
      image.Enters (fun _ => True) .irq s .originalVector s' ∧ s'.pc = 0x00100018 ∧
      s'.gpr = s.gpr := by
  let image : Image := ⟨0x03800000, 0x03800020, 0x03900000⟩
  let cpu : State := ⟨fun _ => 7, fun _ => 0x03a00000, fun _ => 0, fun _ => 0, 0x03850000,
    0b10010, 0, fun _ => 0, 0, 0, fun _ => 0⟩
  let p : Processor := ⟨cpu, ⟨0x00100000⟩, false⟩
  have haligned : image.vectorTable &&& 0b11111 = 0 := by decide
  have hinstall : ∀ q : Processor, image.installVectors q =
      some { (if q.originalVectorAddressesSet then q else image.setOriginalVectorAddresses q) with
        vbar := ⟨image.vectorTable⟩ } := by
    intro q
    rw [installVectors, VectorBaseAddressRegister.new?, if_pos haligned]
    rfl
  have hagain := hinstall { image.setOriginalVectorAddresses p with vbar := ⟨image.vectorTable⟩ }
  let s : State := { cpu with mem := (image.setOriginalVectorAddresses p).cpu.mem }
  have hcall : IrqHandler.Returned (fun _ => True) (IrqHandler.save s) (IrqHandler.save s) :=
    ⟨fun _ _ => rfl, fun _ _ _ => rfl, rfl, fun _ _ => rfl, rfl, rfl, fun _ _ => rfl⟩
  have hirq : image.Enters (fun _ => True) .irq s .originalVector _ := .irq hcall
  have hdisjoint : ByteMemory.Disjoint (s.currentSp - 224) 224 image.originalAddresses 32 :=
    (disjoint_of_toNat_le (a := image.originalAddresses) (by decide) (by decide)).symm
  obtain ⟨_, hentries⟩ :=
    exceptions_passed_on image p _ _ rfl (hinstall p) _ (Run.single (.install hagain))
  have harm : (0b10010 : BitVec 32).getLsbD 5 = false := by decide
  obtain ⟨_, hpassed⟩ := hentries .irq (fun _ => True) s _ _ rfl harm hdisjoint
    (fun _ _ => trivial) hirq
  have hentry : p.vbar.ptr + BitVec.ofNat 32 (4 * Exception.irq.index) = 0x00100018 := by decide
  exact ⟨image, p, _, _, s, _, hinstall p, hagain, hirq, (hpassed rfl).pc.trans hentry,
    (hpassed rfl).preserved.gpr⟩

end Image
end V5gdb
