import V5gdb.ArmCode
import V5gdb.Instructions

/-!
Redirecting a function: a trampoline is written over its first instructions.
The trampoline is 8 bytes of code, in the instruction set of the function, and a
slot after it with the address to go to. The Thumb one may lie at any multiple of
2, so it works out the place of its slot without the alignment of the PC that a
literal load has.
-/
namespace V5gdb

open ByteMemory LittleEndian Bitfields

def THUMB_BIT : Addr := 1

/-- `ldr r12, .Larm_dest` and `bx r12`. The label is where the PC points. -/
def sdkTrampolineArm : List Arm.Instr := [.ldr 12 15 0, .bx 12]

/-- `mov.n r12, pc`, `ldr.w r12, [r12, #4]` and `bx.n r12`. -/
def sdkTrampolineThumb : List Arm.Instr := [.mov 12 15, .ldr 12 12 4, .bx 12]

/-- The code between the two labels of a trampoline. -/
def trampolineCode (isThumb : Bool) : List (BitVec 8) :=
  (if isThumb then sdkTrampolineThumb else sdkTrampolineArm).flatMap (Arm.code isThumb)

example : trampolineCode false = [0x00, 0xC0, 0x9F, 0xE5, 0x1C, 0xFF, 0x2F, 0xE1] := by decide

example : trampolineCode true = [0xFC, 0x46, 0xDC, 0xF8, 0x04, 0xC0, 0x60, 0x47] := by decide

/-- Overwrites the target function to branch to the given one. -/
def redirectFunction (m : CodeMemory) (target destination : Addr) : CodeMemory :=
  let isThumb := target &&& THUMB_BIT ≠ 0
  let trampoline := trampolineCode isThumb
  let writeAddr := target &&& ~~~THUMB_BIT
  -- a pointer to halfwords, since the target may be a 2-byte aligned Thumb function
  let codeLen := trampoline.length / 2
  let destinationSlot := writeAddr + BitVec.ofNat 32 (2 * codeLen)
  let m := m.store writeAddr (trampoline.take (2 * codeLen))
  -- the Thumb bit of the destination is kept for the trampoline's `bx`
  let m := m.store destinationSlot (toLe 4 destination)
  (m.syncInstruction (.address writeAddr)).syncInstruction (.address destinationSlot)

/-- A function pointer: Thumb functions have their lowest bit set, ARM functions
lie at multiples of 4. -/
def FunctionPointer (p : Addr) : Prop := p.getLsbD 0 = true ∨ p.toNat % 4 = 0

instance (p : Addr) : Decidable (FunctionPointer p) := inferInstanceAs (Decidable (_ ∨ _))

/-- Where a CPU is that has called the function, with `r12` as the trampoline leaves it. -/
def arrive (s : Arm.State) (destination : Addr) : Arm.State :=
  { s.setGpr Arm.r12 destination with
    pc := destination &&& ~~~THUMB_BIT
    cpsr := setField 5 s.cpsr (BitVec.ofBool (destination.getLsbD 0)) }

structure Redirects (m m' : CodeMemory) (target destination : Addr) : Prop where
  reaches : ∀ s : Arm.State, s.mem = m'.data → s.pc = target &&& ~~~THUMB_BIT →
    s.thumb = target.getLsbD 0 → ∃ n, s.run m'.fetch n = some (arrive s destination)
  written : read m'.data (target &&& ~~~THUMB_BIT) 12 =
    trampolineCode (target.getLsbD 0) ++ toLe 4 destination
  kept : ∀ x, ¬Within (target &&& ~~~THUMB_BIT) 12 x → m'.data x = m.data x
  synced : ∀ x, Within (target &&& ~~~THUMB_BIT) 8 x →
    m'.FreshAt x ∧ (SameLine x (target &&& ~~~THUMB_BIT) ∨
      SameLine x ((target &&& ~~~THUMB_BIT) + 8))

theorem length_trampolineCode (isThumb : Bool) : (trampolineCode isThumb).length = 8 := by
  cases isThumb <;> decide

theorem getLsbD_THUMB_BIT {i : ℕ} (hi : i < 32) : THUMB_BIT.getLsbD i = decide (i = 0) := by
  revert i
  decide

theorem isThumb_iff (p : Addr) : p &&& THUMB_BIT ≠ 0 ↔ p.getLsbD 0 = true := by
  constructor
  · intro h
    by_contra hbit
    refine h (BitVec.eq_of_getLsbD_eq ?_)
    intro i hi
    have hnone : (0 : Addr).getLsbD i = false := BitVec.getLsbD_zero
    rw [BitVec.getLsbD_and, getLsbD_THUMB_BIT hi, hnone]
    by_cases hzero : i = 0
    · rw [hzero, Bool.eq_false_of_not_eq_true hbit, Bool.false_and]
    · rw [decide_eq_false hzero, Bool.and_false]
  · intro hbit h
    have hand := congrArg (fun v : Addr => v.getLsbD 0) h
    simp only [BitVec.getLsbD_and, hbit] at hand
    exact absurd hand (by decide)

/-- Without a Thumb bit there is nothing to clear. -/
theorem clear_of_even {p : Addr} (h : p.getLsbD 0 = false) : p &&& ~~~THUMB_BIT = p := by
  apply BitVec.eq_of_getLsbD_eq
  intro i hi
  rw [BitVec.getLsbD_and, BitVec.getLsbD_not, getLsbD_THUMB_BIT hi]
  by_cases hzero : i = 0
  · rw [hzero, h, Bool.false_and]
  · rw [decide_eq_false hzero, decide_eq_true hi]
    simp

theorem redirectFunction_eq (m : CodeMemory) (target destination : Addr) :
    redirectFunction m target destination =
      (((m.store (target &&& ~~~THUMB_BIT) (trampolineCode (target.getLsbD 0))).store
        ((target &&& ~~~THUMB_BIT) + 8) (toLe 4 destination)).syncInstruction
          (.address (target &&& ~~~THUMB_BIT))).syncInstruction
            (.address ((target &&& ~~~THUMB_BIT) + 8)) := by
  have hthumb : decide (target &&& THUMB_BIT ≠ 0) = target.getLsbD 0 := by
    rw [Bool.eq_iff_iff, decide_eq_true_iff]
    exact isThumb_iff target
  have htake : (trampolineCode (target.getLsbD 0)).take (2 * (8 / 2)) =
      trampolineCode (target.getLsbD 0) :=
    List.take_of_length_le (by rw [length_trampolineCode])
  simp only [redirectFunction, hthumb, length_trampolineCode, htake]
  rfl

/-! Running the trampolines. -/

/-- The lowest two bits of a multiple of 4. -/
theorem low_bits_of_aligned {p : Addr} (h : p.toNat % 4 = 0) :
    p.getLsbD 0 = false ∧ p.getLsbD 1 = false := by
  constructor
  · rw [BitVec.getLsbD, Nat.testBit_zero]
    exact decide_eq_false (by omega)
  · rw [BitVec.getLsbD, Nat.testBit_succ, Nat.testBit_zero]
    exact decide_eq_false (by omega)

theorem FunctionPointer.aligned {p : Addr} (hp : FunctionPointer p) (hbit : p.getLsbD 0 = false) :
    p.toNat % 4 = 0 := by
  refine hp.resolve_left ?_
  rw [hbit]
  exact Bool.false_ne_true

theorem branchExchange_eq (s : Arm.State) {p : Addr} (hp : FunctionPointer p) :
    s.branchExchange p = some { s with
      pc := p &&& ~~~THUMB_BIT
      cpsr := setField 5 s.cpsr (BitVec.ofBool (p.getLsbD 0)) } := by
  unfold Arm.State.branchExchange
  cases hbit : p.getLsbD 0 with
  | true => rfl
  | false =>
    obtain ⟨-, hsecond⟩ := low_bits_of_aligned (hp.aligned hbit)
    rw [hsecond, clear_of_even hbit]
    rfl

/-- The end of both trampolines. -/
theorem exec_bx {s s₁ : Arm.State} {pc destination : Addr} (hdest : FunctionPointer destination)
    (hs₁ : s₁ = { s.setGpr Arm.r12 destination with pc := pc }) :
    s₁.exec (.bx 12) = some (arrive s destination) := by
  have hreg : s₁.reg 12 = destination := by
    rw [Arm.State.reg_gpr _ (by decide), hs₁]
    exact Function.update_self Arm.r12 destination s.gpr
  simp only [Arm.State.exec]
  rw [hreg, branchExchange_eq _ hdest, hs₁]
  rfl

theorem run_arm_trampoline {fetched : Mem 32} {s : Arm.State} {destination : Addr}
    (hthumb : s.thumb = false) (hal : s.pc.toNat % 4 = 0)
    (hcode : Arm.HoldsCode fetched s.pc (trampolineCode false))
    (hslot : loadWord s.mem (s.pc + 8) = destination) (hdest : FunctionPointer destination) :
    s.run fetched 2 = some (arrive s destination) := by
  have hsplit : trampolineCode false =
      Arm.code false (.ldr 12 15 0) ++ Arm.code false (.bx 12) := by decide
  rw [hsplit, Arm.holdsCode_append] at hcode
  obtain ⟨hload, hbranch⟩ := hcode
  have hplace : (s.pc + 8) &&& ~~~3 = s.pc + 8 := by
    have hsum : (s.pc + 8).toNat % 4 = 0 := by
      rw [BitVec.toNat_add]
      simp only [BitVec.reduceToNat]
      omega
    apply BitVec.eq_of_toNat_eq
    rw [toNat_clear_low (s.pc + 8) 3 (by decide : ∀ i < 32, _ = decide (i < 2))]
    omega
  have hexec : s.exec (.ldr 12 15 0) =
      some { s.setGpr Arm.r12 destination with pc := s.pc + 4 } := by
    have hpc : s.reg 15 = s.pc + 8 := by
      rw [Arm.State.reg_pc, hthumb]
      rfl
    have hoffset : s.pc + 8 + (0 : BitVec 12).setWidth 32 = s.pc + 8 := BitVec.add_zero _
    simp only [Arm.State.exec, hpc, hplace, hthumb, if_true]
    rw [Arm.State.setReg_gpr _ (by decide), hoffset, hslot]
    rfl
  refine Arm.State.run_code (by decide) (by rwa [hthumb]) hexec ?_
  refine @Arm.State.run_code _ 0 _ _ _ (.bx 12) (by decide) ?_ (exec_bx hdest rfl) rfl
  have hstill : Arm.State.thumb { s.setGpr Arm.r12 destination with pc := s.pc + 4 } = false :=
    hthumb
  rw [hstill]
  exact hbranch

theorem run_thumb_trampoline {fetched : Mem 32} {s : Arm.State} {destination : Addr}
    (hthumb : s.thumb = true) (hcode : Arm.HoldsCode fetched s.pc (trampolineCode true))
    (hslot : loadWord s.mem (s.pc + 8) = destination) (hdest : FunctionPointer destination) :
    s.run fetched 3 = some (arrive s destination) := by
  have hsplit : trampolineCode true =
      Arm.code true (.mov 12 15) ++ (Arm.code true (.ldr 12 12 4) ++ Arm.code true (.bx 12)) := by
    decide
  rw [hsplit, Arm.holdsCode_append, Arm.holdsCode_append] at hcode
  obtain ⟨hmove, hload, hbranch⟩ := hcode
  let s₁ : Arm.State := { s.setGpr Arm.r12 (s.pc + 4) with pc := s.pc + 2 }
  let s₂ : Arm.State := { s.setGpr Arm.r12 destination with pc := s.pc + 2 + 4 }
  have hthumb₁ : s₁.thumb = true := hthumb
  have hthumb₂ : s₂.thumb = true := hthumb
  -- `r12` is 4 past the target, and the load adds 4 more
  have hexec : s.exec (.mov 12 15) = some s₁ := by
    have hpc : s.reg 15 = s.pc + 4 := by
      rw [Arm.State.reg_pc, hthumb]
      rfl
    simp only [Arm.State.exec, hpc, hthumb]
    rw [Arm.State.setReg_gpr _ (by decide)]
    rfl
  have hexec₁ : s₁.exec (.ldr 12 12 4) = some s₂ := by
    have hbase : s₁.reg 12 = s.pc + 4 := by
      rw [Arm.State.reg_gpr _ (by decide)]
      exact Function.update_self Arm.r12 (s.pc + 4) s.gpr
    have hoffset : s.pc + 4 + (4 : BitVec 12).setWidth 32 = s.pc + 8 := BitVec.add_assoc _ _ _
    have hword : loadWord s₁.mem (s.pc + 8) = destination := hslot
    have hagain : s₁.setGpr Arm.r12 destination =
        { s.setGpr Arm.r12 destination with pc := s.pc + 2 } := by
      simp only [s₁, Arm.State.setGpr, Function.update_idem]
    simp only [Arm.State.exec, hbase, hthumb₁]
    rw [Arm.State.setReg_gpr _ (by decide), if_neg (by decide), hoffset, hword]
    exact congrArg (fun t : Arm.State => some { t with pc := s.pc + 2 + 4 }) hagain
  refine Arm.State.run_code (by decide) (by rwa [hthumb]) hexec ?_
  refine @Arm.State.run_code _ 1 _ _ _ (.ldr 12 12 4) (by decide) (by rwa [hthumb₁]) hexec₁ ?_
  refine @Arm.State.run_code _ 0 _ _ _ (.bx 12) (by decide) ?_ (exec_bx hdest rfl) rfl
  rw [hthumb₂]
  exact hbranch

/-! What the redirection leaves in memory. -/

variable {m : CodeMemory} {target destination : Addr}

theorem redirectFunction_data (m : CodeMemory) (target destination : Addr) :
    (redirectFunction m target destination).data =
      write m.data (target &&& ~~~THUMB_BIT)
        (trampolineCode (target.getLsbD 0) ++ toLe 4 destination) := by
  rw [redirectFunction_eq]
  simp only [CodeMemory.syncInstruction_data, CodeMemory.store_data]
  have hlength : (trampolineCode (target.getLsbD 0)).length + (toLe 4 destination).length ≤
      2 ^ 32 := by
    rw [length_trampolineCode, length_toLe]
    decide
  rw [← write_append _ _ hlength, length_trampolineCode]
  rfl

/-- The first line holds the code up to its end, or the second one its end. -/
theorem code_in_lines {a x : Addr} (h : Within a 8 x) : SameLine x a ∨ SameLine x (a + 8) := by
  simp only [Within, distance, SameLine] at *
  bv_omega

theorem synced_redirectFunction {x : Addr} (h : Within (target &&& ~~~THUMB_BIT) 8 x) :
    (redirectFunction m target destination).FreshAt x := by
  rw [redirectFunction_eq]
  rcases code_in_lines h with hfirst | hsecond
  · exact (CodeMemory.freshAt_sync_of_sameLine hfirst).sync _
  · exact CodeMemory.freshAt_sync_of_sameLine hsecond

/-- The trampoline goes over whatever is at the target, an older one too. -/
theorem redirect_installs_trampoline (m : CodeMemory) {target destination : Addr}
    (htarget : FunctionPointer target) (hdest : FunctionPointer destination) :
    Redirects m (redirectFunction m target destination) target destination := by
  have hlength : (trampolineCode (target.getLsbD 0) ++ toLe 4 destination).length = 12 := by
    rw [List.length_append, length_trampolineCode, length_toLe]
  have hwritten : read (redirectFunction m target destination).data (target &&& ~~~THUMB_BIT) 12 =
      trampolineCode (target.getLsbD 0) ++ toLe 4 destination := by
    rw [redirectFunction_data, ← hlength]
    exact read_write_self _ _ (by rw [hlength]; decide)
  have hparts := hwritten
  rw [read_append _ _ 8 4] at hparts
  obtain ⟨hcode, hslot⟩ := List.append_inj hparts (by rw [length_read, length_trampolineCode])
  have hfetched : Arm.HoldsCode (redirectFunction m target destination).fetch
      (target &&& ~~~THUMB_BIT) (trampolineCode (target.getLsbD 0)) := by
    rw [Arm.HoldsCode, length_trampolineCode, ← hcode]
    exact read_congr (by decide) fun x hx => synced_redirectFunction hx
  constructor
  case reaches =>
    intro s hmem hpc hthumb
    have hword : loadWord s.mem (s.pc + 8) = destination := by
      rw [hmem, hpc, loadWord]
      exact (congrArg (fromLe 32) hslot).trans (fromLe_toLe _ (by decide))
    rw [← hpc, ← hthumb] at hfetched
    cases hbit : s.thumb with
    | false =>
      have hplace : target &&& ~~~THUMB_BIT = target := clear_of_even (hthumb ▸ hbit)
      have hal : s.pc.toNat % 4 = 0 := by
        rw [hpc, hplace]
        exact htarget.aligned (hthumb ▸ hbit)
      rw [hbit] at hfetched
      exact ⟨2, run_arm_trampoline hbit hal hfetched hword hdest⟩
    | true =>
      rw [hbit] at hfetched
      exact ⟨3, run_thumb_trampoline hbit hfetched hword hdest⟩
  case written => exact hwritten
  case kept =>
    intro x hx
    rw [redirectFunction_data]
    exact write_of_not_within _ (by rwa [hlength])
  case synced => exact fun x hx => ⟨synced_redirectFunction hx, code_in_lines hx⟩

/-- The code crosses a cache line here, and the slot is not at a multiple of 4. -/
theorem redirect_installs_across_lines :
    Redirects ⟨fun _ => 0, fun _ => 0⟩
      (redirectFunction ⟨fun _ => 0, fun _ => 0⟩ 0x0380001b 0x03801000) 0x0380001b 0x03801000 :=
  redirect_installs_trampoline _ (by decide) (by decide)

end V5gdb
