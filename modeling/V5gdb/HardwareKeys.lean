import V5gdb.HardwareBreakpoints
import V5gdb.SlotTables

/-!
What an enabled hardware slot stands for.
A key is an aligned address, an instruction set and a specificity. Its word, its
byte select and its type are all that the registers hold of it, and they
determine it. The manager is read as a table of keys over its slots.
-/
namespace V5gdb

open SlotLoops SlotTables

structure HwKey where
  addr : Addr
  thumb : Bool
  specificity : Specificity
  aligned : Instruction.AlignedFor thumb addr
  deriving DecidableEq

namespace HwKey

def of? (addr : Addr) (specificity : Specificity) (kind : ArmBreakpointKind) : Option HwKey :=
  if h : Instruction.AlignedFor kind.isThumb addr then
    some ⟨addr, kind.isThumb, specificity, h⟩
  else none

def word (k : HwKey) : BitVec 32 := k.addr &&& ~~~0b11

def byteSelect (k : HwKey) : BitVec 4 :=
  if k.thumb then if k.addr.toNat % 4 = 0 then 0b0011 else 0b1100 else 0b1111

def control (k : HwKey) : BreakpointControl :=
  BreakpointControl.DISABLED.arm k.byteSelect k.specificity.breakpointType

theorem of?_eq_some {addr : Addr} {specificity : Specificity} {kind : ArmBreakpointKind}
    {k : HwKey} : of? addr specificity kind = some k ↔
      k.addr = addr ∧ k.thumb = kind.isThumb ∧ k.specificity = specificity := by
  unfold of?
  split_ifs with h
  · constructor
    · intro hk
      obtain rfl := Option.some.inj hk
      exact ⟨rfl, rfl, rfl⟩
    · rintro ⟨rfl, ht, rfl⟩
      cases k
      simp_all
  · constructor
    · intro hk
      cases hk
    · rintro ⟨rfl, ht, rfl⟩
      exact absurd (ht ▸ k.aligned) h

theorem of?_eq_none {addr : Addr} {specificity : Specificity} {kind : ArmBreakpointKind} :
    of? addr specificity kind = none ↔ ¬ Instruction.AlignedFor kind.isThumb addr := by
  unfold of?
  split_ifs with h <;> simp [h]

theorem toNat_clear_low (addr : Addr) : (addr &&& ~~~0b11).toNat = addr.toNat / 4 * 4 :=
  @Bitfields.toNat_clear_low 32 2 addr 0b11 (by decide)

/-- Two keys that configure a slot alike are the same key. -/
theorem ext_config {k k' : HwKey} (hword : k.word = k'.word)
    (hbas : k.byteSelect = k'.byteSelect) (hspec : k.specificity = k'.specificity) : k = k' := by
  have hw : k.addr.toNat / 4 * 4 = k'.addr.toNat / 4 * 4 := by
    rw [← toNat_clear_low, ← toNat_clear_low]
    exact congrArg BitVec.toNat hword
  obtain ⟨addr, thumb, specificity, hal⟩ := k
  obtain ⟨addr', thumb', specificity', hal'⟩ := k'
  obtain rfl : specificity = specificity' := hspec
  simp only [byteSelect] at hbas
  have hthumb : thumb = thumb' := by
    cases thumb <;> cases thumb' <;> simp at hbas ⊢
    all_goals
      split_ifs at hbas
      all_goals cases hbas
  subst hthumb
  have haddr : addr.toNat = addr'.toNat := by
    cases thumb with
    | false =>
      have h1 : addr.toNat % 4 = 0 := hal
      have h2 : addr'.toNat % 4 = 0 := hal'
      simp only at hw
      omega
    | true =>
      have h1 : addr.toNat % 2 = 0 := hal
      have h2 : addr'.toNat % 2 = 0 := hal'
      simp only [if_true] at hbas hw
      split_ifs at hbas with h3 h4
      · omega
      · cases hbas
      · cases hbas
      · omega
  obtain rfl := BitVec.eq_of_toNat_eq haddr
  rfl

theorem splitAddr_of_aligned {addr : Addr} {specificity : Specificity} {kind : ArmBreakpointKind}
    {k : HwKey} (hk : of? addr specificity kind = some k) :
    splitAddr addr kind = .ok (k.word, k.byteSelect) := by
  obtain ⟨rfl, ht, rfl⟩ := of?_eq_some.mp hk
  have hal := k.aligned
  rw [Instruction.AlignedFor, ht] at hal
  cases kind with
  | arm32 =>
    have h4 : k.addr.toNat % 4 = 0 := hal
    simp [splitAddr, word, byteSelect, ht, ArmBreakpointKind.isThumb, h4]
  | thumb16 =>
    have h2 : k.addr.toNat % 2 = 0 := hal
    simp only [splitAddr, word, byteSelect, ht, ArmBreakpointKind.isThumb, if_pos h2, if_true]
    split_ifs <;> rfl
  | thumb32 =>
    have h2 : k.addr.toNat % 2 = 0 := hal
    simp only [splitAddr, word, byteSelect, ht, ArmBreakpointKind.isThumb, if_pos h2, if_true]
    split_ifs <;> rfl

theorem splitAddr_of_misaligned {addr : Addr} {specificity : Specificity}
    {kind : ArmBreakpointKind} (hk : of? addr specificity kind = none) :
    splitAddr addr kind = .error .notAlignedCorrectly := by
  have hal := of?_eq_none.mp hk
  cases kind with
  | arm32 => exact if_neg hal
  | thumb16 => exact if_neg hal
  | thumb32 => exact if_neg hal

end HwKey

namespace HwBreakpointManager

structure Holds (m : HwBreakpointManager) (t : Table 16 HwKey) : Prop where
  below : t.Below m.capabilities.numBreakpoints
  used : ∀ i, m.usedBreakpoints i = (t.slot i).isSome
  configured : ∀ i k, t.slot i = some k →
    m.mmio.breakpointValue i = k.word ∧ m.mmio.breakpointCtrl i = k.control
  disabled : ∀ i, i.val < m.capabilities.numBreakpoints → t.slot i = none →
    (m.mmio.breakpointCtrl i).enabled = false ∧ (m.mmio.breakpointCtrl i).Blank

structure SameBoard (m m' : HwBreakpointManager) : Prop where
  capabilities : m'.capabilities = m.capabilities
  locked : m'.locked = m.locked
  status : m'.mmio.statusControlExt = m.mmio.statusControlExt

theorem SameBoard.refl (m : HwBreakpointManager) : m.SameBoard m := ⟨rfl, rfl, rfl⟩

theorem SameBoard.trans {m m' m'' : HwBreakpointManager} (h : m.SameBoard m')
    (h' : m'.SameBoard m'') : m.SameBoard m'' :=
  ⟨h'.capabilities.trans h.capabilities, h'.locked.trans h.locked, h'.status.trans h.status⟩

variable {m : HwBreakpointManager} {t : Table 16 HwKey} {addr : Addr} {specificity : Specificity}
  {kind : ArmBreakpointKind} {k : HwKey} {i : Fin 16}

theorem Holds.enabled (h : m.Holds t) (hi : i.val < m.capabilities.numBreakpoints) :
    (m.mmio.breakpointCtrl i).enabled = (t.slot i).isSome := by
  cases hs : t.slot i with
  | none => exact (h.disabled i hi hs).1
  | some k =>
    rw [(h.configured i k hs).2]
    exact BreakpointControl.enabled_arm ..

/-- Searching the registers for a key's configuration finds that key. -/
theorem Holds.configuredAs_iff (h : m.Holds t) (hi : i.val < m.capabilities.numBreakpoints)
    (k : HwKey) :
    m.configuredAs k.word k.byteSelect k.specificity i = true ↔ t.slot i = some k := by
  cases hs : t.slot i with
  | none => simp [configuredAs, (h.disabled i hi hs).1]
  | some k' =>
    obtain ⟨hvalue, hctrl⟩ := h.configured i k' hs
    simp only [configuredAs, hvalue, hctrl, HwKey.control, BreakpointControl.enabled_arm,
      BreakpointControl.breakpointType_arm, BreakpointControl.byteAddressSelect_arm,
      Bool.true_and, Bool.and_eq_true, decide_eq_true_eq, Option.some.injEq]
    constructor
    · rintro ⟨⟨hspec, hbas⟩, hword⟩
      exact HwKey.ext_config hword hbas (Specificity.breakpointType_injective hspec)
    · rintro rfl
      exact ⟨⟨rfl, rfl⟩, rfl⟩

theorem Holds.isFree_iff (h : m.Holds t) (hi : i.val < m.capabilities.numBreakpoints) :
    m.isFree i = true ↔ t.slot i = none := by
  rw [isFree, h.enabled hi, h.used]
  cases t.slot i <;> simp

theorem enableSlot_eq (hun : m.locked = false) (word : BitVec 32) (bas : BitVec 4) (i : Fin 16) :
    m.enableSlot word bas specificity i = { m with
      mmio := { m.mmio with
        breakpointValue := Function.update m.mmio.breakpointValue i word
        breakpointCtrl := Function.update m.mmio.breakpointCtrl i
          ((m.mmio.breakpointCtrl i).arm bas specificity.breakpointType) }
      usedBreakpoints := Function.update m.usedBreakpoints i true } := by
  rw [enableSlot, DebugLogic.writeBreakpointValue_of_unlocked hun,
    DebugLogic.modifyBreakpointCtrl, DebugLogic.writeBreakpointCtrl_of_unlocked (by exact hun)]

theorem enableSlot_sameBoard (hun : m.locked = false) (word : BitVec 32) (bas : BitVec 4)
    (i : Fin 16) : m.SameBoard (m.enableSlot word bas specificity i) := by
  rw [enableSlot_eq hun]
  exact ⟨rfl, rfl, rfl⟩

/-- Enabling a free slot for a new key; what the slot held before does not matter. -/
theorem Holds.enableSlot (h : m.Holds t) (hun : m.locked = false)
    (hi : i.val < m.capabilities.numBreakpoints) (hfree : t.slot i = none)
    (hnew : ∀ j, t.slot j ≠ some k) :
    (m.enableSlot k.word k.byteSelect k.specificity i).Holds (t.put i k hnew) := by
  rw [enableSlot_eq hun]
  constructor
  · exact h.below.put hnew hi
  · intro j
    rw [Table.put_slot]
    by_cases hj : j = i
    · simp [hj]
    · simp [hj, h.used j]
  · intro j k' hk'
    rw [Table.put_slot] at hk'
    by_cases hj : j = i
    · subst hj
      rw [if_pos rfl] at hk'
      obtain rfl := Option.some.inj hk'
      simp only [Function.update_self, true_and]
      exact BreakpointControl.arm_eq_of_blank (h.disabled j hi hfree).2
        BreakpointControl.blank_disabled _ _
    · rw [if_neg hj] at hk'
      simpa [hj] using h.configured j k' hk'
  · intro j hjn hj
    rw [Table.put_slot] at hj
    by_cases hji : j = i
    · rw [if_pos hji] at hj
      cases hj
    · rw [if_neg hji] at hj
      simpa [hji] using h.disabled j hjn hj

theorem Holds.not_mem_of_scan {r : Option (Fin 16)} (h : m.Holds t)
    (hscan : scan (fun i =>
      if m.configuredAs k.word k.byteSelect k.specificity i then some () else none)
      m.isFree none (SlotLoops.below 16 m.capabilities.numBreakpoints) = .miss r) :
    ∀ i, t.slot i ≠ some k := by
  intro i hi
  have hlt : i.val < m.capabilities.numBreakpoints := by
    by_contra hge
    rw [h.below i (by omega)] at hi
    cases hi
  have hmiss := scan_miss hscan i (mem_below.mpr hlt)
  rw [(h.configuredAs_iff hlt k).mpr hi, if_pos rfl] at hmiss
  cases hmiss

inductive AddOutcome (m : HwBreakpointManager) (t : Table 16 HwKey) (addr : Addr)
    (specificity : Specificity) (kind : ArmBreakpointKind) :
    HwBreakpointManager → Table 16 HwKey → Except BreakpointError Unit → Prop
  | notAligned (hk : HwKey.of? addr specificity kind = none) :
      AddOutcome m t addr specificity kind m t (.error .notAlignedCorrectly)
  | alreadyExists (k : HwKey) (i : Fin 16) (hk : HwKey.of? addr specificity kind = some k)
      (hi : t.slot i = some k) :
      AddOutcome m t addr specificity kind m t (.error .alreadyExists)
  | noSpace (k : HwKey) (hk : HwKey.of? addr specificity kind = some k)
      (hnew : ∀ i, t.slot i ≠ some k)
      (hfull : ∀ i : Fin 16, i.val < m.capabilities.numBreakpoints → t.slot i ≠ none) :
      AddOutcome m t addr specificity kind m t (.error .noSpace)
  | added (k : HwKey) (i : Fin 16) (hk : HwKey.of? addr specificity kind = some k)
      (hi : i.val < m.capabilities.numBreakpoints) (hfree : t.slot i = none)
      (hnew : ∀ j, t.slot j ≠ some k) :
      AddOutcome m t addr specificity kind (m.enableSlot k.word k.byteSelect k.specificity i)
        (t.put i k hnew) (.ok ())

theorem addBreakpointAt_outcome (h : m.Holds t) (hun : m.locked = false) (addr : Addr)
    (specificity : Specificity) (kind : ArmBreakpointKind) :
    ∃ m' t' r, m.addBreakpointAt addr specificity kind = .ok (m', r) ∧
      m.AddOutcome t addr specificity kind m' t' r := by
  rw [addBreakpointAt, hun, if_neg (by simp)]
  cases hk : HwKey.of? addr specificity kind with
  | none =>
    rw [HwKey.splitAddr_of_misaligned hk]
    exact ⟨m, t, _, rfl, .notAligned hk⟩
  | some k =>
    obtain ⟨_, _, rfl⟩ := HwKey.of?_eq_some.mp hk
    rw [HwKey.splitAddr_of_aligned hk]
    simp only
    split
    · next i _ hscan =>
      obtain ⟨hmem, hprobe⟩ := scan_hit hscan
      rw [mem_below] at hmem
      have hi : m.configuredAs k.word k.byteSelect k.specificity i = true := by
        by_contra hne
        rw [if_neg hne] at hprobe
        cases hprobe
      exact ⟨m, t, _, rfl, .alreadyExists k i hk ((h.configuredAs_iff hmem k).mp hi)⟩
    · next hscan =>
      have hnew := h.not_mem_of_scan hscan
      refine ⟨m, t, _, rfl, .noSpace k hk hnew ?_⟩
      intro i hi hnone
      have hbusy := (scan_miss_none hscan).2 i (mem_below.mpr hi)
      rw [(h.isFree_iff hi).mpr hnone] at hbusy
      cases hbusy
    · next i hscan =>
      have hnew := h.not_mem_of_scan hscan
      rcases scan_miss_some hscan with hnext | ⟨hmem, hfree⟩
      · cases hnext
      · rw [mem_below] at hmem
        exact ⟨_, _, _, rfl, .added k i hk hmem ((h.isFree_iff hmem).mp hfree) hnew⟩

theorem AddOutcome.holds {m' : HwBreakpointManager} {t' : Table 16 HwKey}
    {r : Except BreakpointError Unit} (h : m.Holds t) (hun : m.locked = false)
    (ho : m.AddOutcome t addr specificity kind m' t' r) : m'.Holds t' ∧ m.SameBoard m' := by
  cases ho with
  | notAligned => exact ⟨h, .refl m⟩
  | alreadyExists => exact ⟨h, .refl m⟩
  | noSpace => exact ⟨h, .refl m⟩
  | added k i hk hi hfree hnew =>
    exact ⟨h.enableSlot hun hi hfree hnew, enableSlot_sameBoard hun _ _ _⟩

def freeSlot (m : HwBreakpointManager) (i : Fin 16) : HwBreakpointManager :=
  { m with
    mmio := { m.mmio with
      breakpointCtrl := Function.update m.mmio.breakpointCtrl i
        ((m.mmio.breakpointCtrl i).withEnabled false) }
    usedBreakpoints := Function.update m.usedBreakpoints i false }

theorem Holds.freeSlot (h : m.Holds t) (hi : t.slot i = some k) :
    (m.freeSlot i).Holds (t.clear i) := by
  constructor
  · exact h.below.clear i
  · intro j
    rw [Table.clear_slot]
    by_cases hj : j = i
    · simp [HwBreakpointManager.freeSlot, hj]
    · simp [HwBreakpointManager.freeSlot, hj, h.used j]
  · intro j k' hk'
    rw [Table.clear_slot] at hk'
    by_cases hj : j = i
    · rw [if_pos hj] at hk'
      cases hk'
    · rw [if_neg hj] at hk'
      simpa [HwBreakpointManager.freeSlot, hj] using h.configured j k' hk'
  · intro j hjn hj
    rw [Table.clear_slot] at hj
    by_cases hji : j = i
    · subst hji
      have hblank : (m.mmio.breakpointCtrl j).Blank := by
        rw [(h.configured j k hi).2]
        exact BreakpointControl.blank_arm BreakpointControl.blank_disabled _ _
      simp only [HwBreakpointManager.freeSlot, Function.update_self]
      exact ⟨BreakpointControl.enabled_withEnabled ..,
        BreakpointControl.blank_withEnabled hblank _⟩
    · rw [if_neg hji] at hj
      simpa [HwBreakpointManager.freeSlot, hji] using h.disabled j hjn hj

theorem disableSlot_of_configured (hun : m.locked = false) {word : BitVec 32} {bas : BitVec 4}
    (b : Bool) (hc : m.configuredAs word bas specificity i = true) :
    disableSlot word bas specificity (m, b) i = (m.freeSlot i, true) := by
  rw [disableSlot, if_pos hc, DebugLogic.writeBreakpointCtrl_of_unlocked hun]
  rfl

theorem disableSlot_of_other {word : BitVec 32} {bas : BitVec 4} (b : Bool)
    (hc : ¬ m.configuredAs word bas specificity i = true) :
    disableSlot word bas specificity (m, b) i = (m, b) := by
  rw [disableSlot, if_neg hc]

inductive RemoveOutcome (m : HwBreakpointManager) (t : Table 16 HwKey) (addr : Addr)
    (specificity : Specificity) (kind : ArmBreakpointKind) :
    HwBreakpointManager → Table 16 HwKey → Bool → Prop
  | absent (habsent : ∀ k, HwKey.of? addr specificity kind = some k → ∀ i, t.slot i ≠ some k) :
      RemoveOutcome m t addr specificity kind m t false
  | removed (k : HwKey) (i : Fin 16) (hk : HwKey.of? addr specificity kind = some k)
      (hi : t.slot i = some k) :
      RemoveOutcome m t addr specificity kind (m.freeSlot i) (t.clear i) true

theorem removeBreakpointAt_outcome (h : m.Holds t) (hun : m.locked = false) (addr : Addr)
    (specificity : Specificity) (kind : ArmBreakpointKind) :
    ∃ m' t' r, m.removeBreakpointAt addr specificity kind = .ok (m', r) ∧
      m.RemoveOutcome t addr specificity kind m' t' r := by
  rw [removeBreakpointAt, hun, if_neg (by simp)]
  cases hk : HwKey.of? addr specificity kind with
  | none =>
    rw [HwKey.splitAddr_of_misaligned hk]
    refine ⟨m, t, _, rfl, .absent ?_⟩
    intro k hk'
    rw [hk] at hk'
    cases hk'
  | some k =>
    obtain ⟨_, _, rfl⟩ := HwKey.of?_eq_some.mp hk
    rw [HwKey.splitAddr_of_aligned hk]
    simp only [foldl_below]
    by_cases hmem : ∃ i, t.slot i = some k
    · -- the key sits in one slot only, so the loop has work to do just there
      obtain ⟨i, hi⟩ := hmem
      have hlt : i.val < m.capabilities.numBreakpoints := by
        by_contra hge
        rw [h.below i (by omega)] at hi
        cases hi
      have hhit := disableSlot_of_configured hun false ((h.configuredAs_iff hlt k).mpr hi)
      refine ⟨m.freeSlot i, t.clear i, true, ?_, .removed k i hk hi⟩
      rw [sweep_single i]
      · rw [if_pos hlt, hhit]
      · intro j hj
        split_ifs with hjn
        · refine disableSlot_of_other false fun hc => ?_
          exact hj (t.injective j i k ((h.configuredAs_iff hjn k).mp hc) hi)
        · rfl
      · intro j hj
        rw [if_pos hlt, hhit]
        split_ifs with hjn
        · refine disableSlot_of_other true fun hc => ?_
          have hslot := ((h.freeSlot hi).configuredAs_iff hjn k).mp hc
          rw [Table.clear_slot, if_neg hj] at hslot
          exact hj (t.injective j i k hslot hi)
        · rfl
    · refine ⟨m, t, false, ?_, .absent ?_⟩
      · rw [sweep_idle]
        intro j
        split_ifs with hjn
        · exact disableSlot_of_other false fun hc => hmem ⟨j, (h.configuredAs_iff hjn k).mp hc⟩
        · rfl
      · intro k' hk' i hi
        rw [hk] at hk'
        obtain rfl := Option.some.inj hk'
        exact hmem ⟨i, hi⟩

theorem RemoveOutcome.holds {m' : HwBreakpointManager} {t' : Table 16 HwKey} {r : Bool}
    (h : m.Holds t) (ho : m.RemoveOutcome t addr specificity kind m' t' r) :
    m'.Holds t' ∧ m.SameBoard m' := by
  cases ho with
  | absent => exact ⟨h, .refl m⟩
  | removed k i hk hi => exact ⟨h.freeSlot hi, rfl, rfl, rfl⟩

theorem Holds.setLocked (h : m.Holds t) (b : Bool) : (m.setLocked b).Holds t :=
  ⟨h.below, h.used, h.configured, h.disabled⟩

theorem resetBreakpoint_eq {d : DebugLogic} (hun : d.softwareLockStatus = false) (i : Fin 16) :
    resetBreakpoint d i = { d with
      breakpointValue := Function.update d.breakpointValue i RESET_SENTINEL
      breakpointCtrl := Function.update d.breakpointCtrl i .DISABLED } := by
  rw [resetBreakpoint, DebugLogic.writeBreakpointCtrl_of_unlocked hun,
    DebugLogic.writeBreakpointValue_of_unlocked (by exact hun)]

/-- The first loop of a reset disables every slot that exists. -/
theorem reset_breakpoints {d : DebugLogic} (hun : d.softwareLockStatus = false) (n : ℕ) :
    ((SlotLoops.below 16 n).foldl resetBreakpoint d).softwareLockStatus = false ∧
      ∀ i : Fin 16, i.val < n →
        ((SlotLoops.below 16 n).foldl resetBreakpoint d).breakpointCtrl i = .DISABLED := by
  rw [foldl_below]
  have h := sweep_induction (s := d)
    (f := fun t i => if i.val < n then resetBreakpoint t i else t)
    (fun j t => t.softwareLockStatus = false ∧
      ∀ i : Fin 16, i.val < j → i.val < n → t.breakpointCtrl i = .DISABLED)
    ⟨hun, by simp⟩ (by
      intro i t ⟨hlock, hctrl⟩
      split_ifs with hin
      · rw [resetBreakpoint_eq hlock]
        refine ⟨hlock, ?_⟩
        intro j hj hjn
        by_cases hji : j = i
        · simp [hji]
        · have hne : j.val ≠ i.val := fun h => hji (Fin.ext h)
          simpa [hji] using hctrl j (by omega) hjn
      · refine ⟨hlock, ?_⟩
        intro j hj hjn
        exact hctrl j (by omega) hjn)
  exact ⟨h.1, fun i hi => h.2 i i.isLt hi⟩

theorem reset_watchpoints (d : DebugLogic) (n : ℕ) :
    d.SameBreakpoints ((SlotLoops.below 16 n).foldl resetWatchpoint d) := by
  rw [foldl_below]
  refine sweep_induction (fun _ t => d.SameBreakpoints t) ⟨rfl, rfl, rfl⟩ ?_
  intro i t ht
  split_ifs with hin
  · exact (ht.trans (DebugLogic.writeWatchpointCtrl_same ..)).trans
      (DebugLogic.writeWatchpointValue_same ..)
  · exact ht

/-- A reset forgets every breakpoint, whatever the registers held. -/
theorem exists_reset (hun : m.locked = false) :
    ∃ m', m.reset = .ok m' ∧ m'.Holds .empty ∧ m'.capabilities = m.capabilities ∧
      m'.locked = false := by
  obtain ⟨hlock, hctrl⟩ := reset_breakpoints hun m.capabilities.numBreakpoints
  have hsame := (reset_watchpoints ((SlotLoops.below 16 m.capabilities.numBreakpoints).foldl
    resetBreakpoint m.mmio) m.capabilities.numWatchpoints).trans
      (DebugLogic.modifyStatusControlExt_same _ fun ctrl =>
        (ctrl.withHaltingDebugMode false).withMonitorDebugMode true)
  rw [reset, hun, if_neg (by simp)]
  refine ⟨_, rfl, ?_, rfl, hsame.lock.trans hlock⟩
  constructor
  · exact fun i _ => rfl
  · exact fun i => rfl
  · intro i k hk
    cases hk
  · intro i hi _
    simp only [hsame.ctrl]
    rw [hctrl i hi]
    exact ⟨BreakpointControl.enabled_withEnabled .., BreakpointControl.blank_disabled⟩

theorem exists_setup (debugId : BitVec 32) (mmio : DebugLogic) :
    ∃ m, setup debugId mmio = .ok m ∧ m.Holds .empty ∧
      m.capabilities = .ofDebugId debugId ∧ m.locked = true := by
  obtain ⟨m, hreset, hholds, hcap, _⟩ := exists_reset (m := HwBreakpointManager.setLocked
    { capabilities := .ofDebugId debugId, mmio, usedBreakpoints := fun _ => false } false)
    (locked_setLocked ..)
  refine ⟨m.setLocked true, ?_, hholds.setLocked true, hcap, locked_setLocked ..⟩
  rw [setup, hreset]
  rfl

/-- The used slots are counted as the keys are. -/
theorem Holds.countP_used (h : m.Holds t) :
    (List.finRange 16).countP m.usedBreakpoints = t.keys.card := by
  rw [Table.card_keys, Table.occupied, List.countP_eq_length_filter]
  have hused : m.usedBreakpoints = fun i => (t.slot i).isSome := funext h.used
  rw [hused]
  simp [Finset.card, Finset.filter, Fin.univ_def]

theorem Holds.breakpointsAvailable (h : m.Holds t) :
    m.breakpointsAvailable = .ok (m.capabilities.numBreakpoints - t.keys.card) := by
  have hle := h.below.card_le m.capabilities.numBreakpoints_le
  rw [HwBreakpointManager.breakpointsAvailable, h.countP_used, if_pos hle]

end HwBreakpointManager
end V5gdb
