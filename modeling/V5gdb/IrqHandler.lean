import V5gdb.FrameRestore

/-!
The interrupt handler of the overlay vector table.
It saves what a routine may clobber that follows the procedure call standard, polls,
and passes the interrupt on as it came. Nothing else is known about the poll than that
it follows the standard and which memory it leaves alone.
-/
namespace V5gdb

open ByteMemory Arm

namespace Arm

abbrev r2 : Fin 13 := ⟨2, by decide⟩

abbrev r3 : Fin 13 := ⟨3, by decide⟩

namespace State

def pop (s : State) (regs : List (Fin 13)) : State :=
  { s.release regs.length with
    gpr := fun i => if i ∈ regs then s.top (regs.idxOf i) else s.gpr i }

def popLr (s : State) : State := (s.setLr (s.top 0)).release 1

variable {s s' : State}

theorem pushed_through_r0_with (s : State) (v : BitVec 32) (words : List (BitVec 32)) :
    Pushed s (v :: words) ((s.setGpr r0 v).push (v :: words)) where
  gpr := fun _ hi => Function.update_of_ne hi _ _
  sp := rfl
  lr := rfl
  spsr := rfl
  cpsr := rfl
  fpscr := rfl
  d := rfl
  mem := rfl

theorem popped_pop (s : State) (regs : List (Fin 13)) : Popped s regs.length (s.pop regs) where
  sp := rfl
  lr := rfl
  spsr := rfl
  cpsr := rfl
  mem := rfl

theorem sp_popLr (s : State) :
    s.popLr.sp = Function.update s.sp s.bank (s.currentSp + BitVec.ofNat 32 4) := rfl

theorem popLr_keeps (s : State) :
    s.popLr.spsr = s.spsr ∧ s.popLr.cpsr = s.cpsr ∧ s.popLr.mem = s.mem := ⟨rfl, rfl, rfl⟩

/-- The words behind those that have been popped. -/
theorem Popped.holdsWords (words : List (BitVec 32)) {words' : List (BitVec 32)}
    (h : Popped s words.length s') (hmem : HoldsWords s.mem s.currentSp (words ++ words')) :
    HoldsWords s'.mem s'.currentSp words' := by
  rw [h.mem, h.currentSp]
  exact (holdsWords_append.mp hmem).2

/-- What was pushed for the registers is popped into them. -/
theorem gpr_pop {regs : List (Fin 13)} {f : Fin 13 → BitVec 32} {words : List (BitVec 32)}
    (h : HoldsWords s.mem s.currentSp (regs.map f ++ words)) (i : Fin 13) :
    (s.pop regs).gpr i = if i ∈ regs then f i else s.gpr i := by
  have hpop : (s.pop regs).gpr i = if i ∈ regs then s.top (regs.idxOf i) else s.gpr i := rfl
  rw [hpop]
  by_cases hi : i ∈ regs
  · rw [if_pos hi, if_pos hi]
    refine (holdsWords_append.mp h).1 _ _ ?_
    rw [List.getElem?_map, List.getElem?_idxOf hi, Option.map_some]
  · rw [if_neg hi, if_neg hi]

theorem d_vpop {ds : List (Fin 32)} {f : Fin 32 → BitVec 64} {words : List (BitVec 32)}
    (h : HoldsWords s.mem s.currentSp ((ds.flatMap fun i => doubleWords (f i)) ++ words))
    (i : Fin 32) : (s.vpop ds).d i = if i ∈ ds then f i else s.d i := by
  have hpop : (s.vpop ds).d i = if i ∈ ds then
      loadDouble s.mem (s.currentSp + BitVec.ofNat 32 (8 * ds.idxOf i)) else s.d i := rfl
  rw [hpop]
  by_cases hi : i ∈ ds
  · rw [if_pos hi, if_pos hi]
    obtain ⟨hlow, hhigh⟩ := getElem?_flatMap_doubleWords ds f (ds.idxOf i)
    rw [List.getElem?_idxOf hi, Option.map_some] at hlow hhigh
    have hplace : 8 * ds.idxOf i = 4 * (2 * ds.idxOf i) := by omega
    rw [hplace]
    exact (holdsWords_append.mp h).1.loadDouble hlow hhigh
  · rw [if_neg hi, if_neg hi]

end State
end Arm

namespace IrqHandler

/-- The general registers of `{r0-r3, r12, lr}`. -/
def scratch : List (Fin 13) := [r0, r1, r2, r3, r12]

def argumentDoubles : List (Fin 32) := (List.finRange 32).take 8

/-- Up to the call of `v5gdb_irq_poll`. -/
def save (s : State) : State :=
  -- push {r0-r3, r12, lr}; vpush {d16-d31}; vpush {d0-d7}
  let s := s.push (scratch.map s.gpr ++ [s.currentLr])
  let s := (s.vpush upperDoubles).vpush argumentDoubles
  -- vmrs r0, fpscr; push {r0, r1}
  let s := s.setGpr r0 s.fpscr
  s.push [s.gpr r0, s.gpr r1]

/-- Up to the load of the original handler's address. -/
def restore (s : State) : State :=
  -- pop {r0, r1}; vmsr fpscr, r0
  let s := s.pop [r0, r1]
  let s := { s with fpscr := s.gpr r0 }
  -- vpop {d0-d7}; vpop {d16-d31}; pop {r0-r3, r12, lr}
  (((s.vpop argumentDoubles).vpop upperDoubles).pop scratch).popLr

/-- A routine that follows the procedure call standard has returned. The memory that it
is known to leave alone is `kept`. -/
structure Returned (kept : BitVec 32 → Prop) (s s' : State) : Prop where
  gpr : ∀ i, i ∉ scratch → s'.gpr i = s.gpr i
  d : ∀ i, i ∉ argumentDoubles → i ∉ upperDoubles → s'.d i = s.d i
  sp : s'.sp = s.sp
  lr : ∀ bank, bank ≠ s.bank → s'.lr bank = s.lr bank
  spsr : s'.spsr = s.spsr
  /-- the mode, the instruction set, the masks and the endianness -/
  control : Bitfields.field 0 10 s'.cpsr = Bitfields.field 0 10 s.cpsr
  mem : ∀ x, kept x → s'.mem x = s.mem x

def frame (s : State) : List (BitVec 32) :=
  [s.fpscr, s.gpr r1] ++ ((argumentDoubles.flatMap fun i => doubleWords (s.d i)) ++
    ((upperDoubles.flatMap fun i => doubleWords (s.d i)) ++
      (scratch.map s.gpr ++ [s.currentLr])))

theorem length_frame (s : State) : (frame s).length = 56 := by
  simp [frame, argumentDoubles, upperDoubles, scratch, doubleWords]

theorem pushed_save (s : State) : State.Pushed s (frame s) (save s) := by
  have hscratch := State.pushed_push s (scratch.map s.gpr ++ [s.currentLr])
  have hupper := hscratch.trans (State.pushed_vpush _ upperDoubles)
  have hdoubles := hupper.trans (State.pushed_vpush _ argumentDoubles)
  exact hdoubles.trans (State.pushed_through_r0_with _ s.fpscr [s.gpr r1])

structure Restored (s t s' : State) : Prop where
  gpr : ∀ i, s'.gpr i = if i ∈ scratch then s.gpr i else t.gpr i
  d : ∀ i, s'.d i = if i ∈ upperDoubles ∨ i ∈ argumentDoubles then s.d i else t.d i
  fpscr : s'.fpscr = s.fpscr
  sp : s'.sp = Function.update t.sp t.bank (t.currentSp + BitVec.ofNat 32 224)
  lr : s'.lr = Function.update t.lr t.bank s.currentLr
  spsr : s'.spsr = t.spsr
  cpsr : s'.cpsr = t.cpsr
  mem : s'.mem = t.mem

theorem restored_restore {s t : State} (h : HoldsWords t.mem t.currentSp (frame s)) :
    Restored s t (restore t) := by
  let f : Fin 13 → BitVec 32 := Function.update s.gpr r0 s.fpscr
  have hpair : [r0, r1].map f = [s.fpscr, s.gpr r1] := rfl
  let t₁ : State := { t.pop [r0, r1] with fpscr := (t.pop [r0, r1]).gpr r0 }
  have hpop₁ : State.Popped t 2 t₁ := ⟨rfl, rfl, rfl, rfl, rfl⟩
  have hwords₁ : HoldsWords t₁.mem t₁.currentSp _ :=
    State.Popped.holdsWords [s.fpscr, s.gpr r1] hpop₁ h
  have hpop₂ := State.popped_vpop t₁ argumentDoubles
  have hwords₂ := State.Popped.holdsWords (argumentDoubles.flatMap _) hpop₂ hwords₁
  have hpop₃ := State.popped_vpop (t₁.vpop argumentDoubles) upperDoubles
  have hwords₃ := State.Popped.holdsWords (upperDoubles.flatMap _) hpop₃ hwords₂
  have hpop₄ := State.popped_pop ((t₁.vpop argumentDoubles).vpop upperDoubles) scratch
  have hwords₄ := State.Popped.holdsWords (scratch.map s.gpr) hpop₄ hwords₃
  have hall := ((hpop₁.trans hpop₂).trans hpop₃).trans hpop₄
  let t₄ := ((t₁.vpop argumentDoubles).vpop upperDoubles).pop scratch
  have hrestore : restore t = t₄.popLr := rfl
  obtain ⟨hspsr, hcpsr, hmem⟩ := t₄.popLr_keeps
  rw [hrestore]
  constructor
  case gpr =>
    intro i
    have hscratch : t₄.gpr i = if i ∈ scratch then s.gpr i else (t.pop [r0, r1]).gpr i :=
      State.gpr_pop hwords₃ i
    refine hscratch.trans ?_
    by_cases hi : i ∈ scratch
    · rw [if_pos hi, if_pos hi]
    · have hpair' : i ∉ [r0, r1] := by
        intro hmem
        refine hi ?_
        rcases List.mem_pair.mp hmem with rfl | rfl <;> decide
      rw [if_neg hi, if_neg hi, State.gpr_pop (f := f) h, if_neg hpair']
  case d =>
    intro i
    have hupper : t₄.d i = if i ∈ upperDoubles then s.d i else (t₁.vpop argumentDoubles).d i :=
      State.d_vpop hwords₂ i
    have hargument : (t₁.vpop argumentDoubles).d i =
        if i ∈ argumentDoubles then s.d i else t.d i := State.d_vpop hwords₁ i
    refine (hupper.trans (by rw [hargument])).trans ?_
    split_ifs <;> simp_all
  case fpscr =>
    have hfpscr : t₄.popLr.fpscr = (t.pop [r0, r1]).gpr r0 := rfl
    rw [hfpscr, State.gpr_pop (f := f) h, if_pos (List.mem_cons_self ..)]
    rfl
  case sp =>
    rw [State.sp_popLr, hall.bank, hall.currentSp, hall.sp, Function.update_idem,
      add_ofNat_add]
    rfl
  case lr =>
    have hlr : t₄.popLr.lr = Function.update t₄.lr t₄.bank (t₄.top 0) := rfl
    have htop : t₄.top 0 = s.currentLr := hwords₄ 0 _ rfl
    rw [hlr, htop, hall.bank, hall.lr]
  case spsr => rw [hspsr, hall.spsr]
  case cpsr => rw [hcpsr, hall.cpsr]
  case mem => rw [hmem, hall.mem]

/-- What an exception handler leaves as it was: everything but the condition flags, the
program counter and memory. -/
structure Preserved (s s' : State) : Prop where
  gpr : s'.gpr = s.gpr
  sp : s'.sp = s.sp
  lr : s'.lr = s.lr
  spsr : s'.spsr = s.spsr
  control : Bitfields.field 0 10 s'.cpsr = Bitfields.field 0 10 s.cpsr
  fpscr : s'.fpscr = s.fpscr
  d : s'.d = s.d

theorem mode_of_control {s s' : State}
    (h : Bitfields.field 0 10 s'.cpsr = Bitfields.field 0 10 s.cpsr) : s'.mode = s.mode := by
  apply BitVec.eq_of_getLsbD_eq
  intro i hi
  have hbit := congrArg (BitVec.getLsbD · i) h
  simp only [Bitfields.getLsbD_field, Nat.zero_add] at hbit
  rw [State.mode, State.mode, Bitfields.getLsbD_field, Bitfields.getLsbD_field, Nat.zero_add]
  simpa [hi, show i < 10 by omega] using hbit

/-- Whatever the poll does with the registers it may use and with its own memory, the
original handler finds the interrupted state. -/
theorem restore_transparent {kept : BitVec 32 → Prop} {s t : State}
    (hstack : ∀ x, Within (s.currentSp - 224) 224 x → kept x)
    (hcall : Returned kept (save s) t) :
    Preserved s (restore t) ∧
      ∀ x, kept x → ¬Within (s.currentSp - 224) 224 x → (restore t).mem x = s.mem x := by
  have hpushed := pushed_save s
  have hplace : s.currentSp - BitVec.ofNat 32 (4 * (frame s).length) = s.currentSp - 224 := by
    rw [length_frame]
    rfl
  have hsp := hpushed.sp
  have hmem := hpushed.mem
  rw [hplace] at hsp hmem
  have hbank : t.bank = s.bank := by
    rw [State.bank, mode_of_control hcall.control, ← State.bank, hpushed.bank]
  have hframe : HoldsWords t.mem t.currentSp (frame s) := by
    rw [State.currentSp, hbank, hcall.sp, hsp, Function.update_self]
    refine HoldsWords.congr (m := (save s).mem) ?_ ?_ ?_
    · rw [hmem]
      exact holdsWords_storeWords _ _ (by rw [length_frame]; decide)
    · rw [length_frame]
      decide
    · rw [length_frame]
      exact fun x hx => hcall.mem x (hstack x hx)
  have hrestored := restored_restore hframe
  refine ⟨?_, ?_⟩
  · constructor
    case gpr =>
      funext i
      rw [hrestored.gpr]
      split_ifs with hi
      · rfl
      · rw [hcall.gpr i hi]
        refine hpushed.gpr i ?_
        rintro rfl
        exact hi (List.mem_cons_self ..)
    case sp =>
      rw [hrestored.sp, State.currentSp, hbank, hcall.sp, hsp, Function.update_self,
        Function.update_idem]
      have hback : s.currentSp - 224 + BitVec.ofNat 32 224 = s.currentSp :=
        BitVec.sub_add_cancel _ _
      rw [hback, State.currentSp, Function.update_eq_self]
    case lr =>
      funext bank
      rw [hrestored.lr, hbank]
      by_cases hb : bank = s.bank
      · rw [hb, Function.update_self]
        rfl
      · rw [Function.update_of_ne hb, hcall.lr bank (by rwa [hpushed.bank]), hpushed.lr]
    case spsr => rw [hrestored.spsr, hcall.spsr, hpushed.spsr]
    case control => rw [hrestored.cpsr, hcall.control, hpushed.cpsr]
    case fpscr => exact hrestored.fpscr
    case d =>
      funext i
      rw [hrestored.d]
      split_ifs with hi
      · rfl
      · obtain ⟨hupper, hargument⟩ := not_or.mp hi
        rw [hcall.d i hargument hupper, hpushed.d]
  · intro x hx hout
    rw [hrestored.mem, hcall.mem x hx, hmem]
    refine storeWords_of_not_within _ ?_ ?_
    · rw [length_frame]
      decide
    · rwa [length_frame]

end IrqHandler
end V5gdb
