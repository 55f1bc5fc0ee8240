import V5gdb.StepAndHalt

/-!
When the hardware breakpoints strike.
A slot compares the word of an instruction's address and the bytes that are selected in it.
Half an instruction cannot be selected: whether such a slot strikes is unpredictable. The
configurations of the debugger are read against this, for every instruction of a run.
-/
namespace V5gdb

open Bitfields Transitions

structure Fetch where
  addr : Addr
  thumb : Bool
  mode : BitVec 5
  secure : Bool
  aligned : Instruction.AlignedFor thumb addr

namespace Fetch

def key (f : Fetch) (specificity : Specificity) : HwKey :=
  ⟨f.addr, f.thumb, specificity, f.aligned⟩

def word (f : Fetch) : BitVec 32 := f.addr &&& ~~~0b11

/-- The bytes of the word that the instruction, or its first half, takes up. -/
def bytes (f : Fetch) : BitVec 4 :=
  if f.thumb then if f.addr.toNat % 4 = 0 then 0b0011 else 0b1100 else 0b1111

/-- User, System and Supervisor mode -/
def ProgramMode (f : Fetch) : Prop :=
  f.mode = 0b10000 ∨ f.mode = 0b11111 ∨ f.mode = 0b10011

instance (f : Fetch) : Decidable f.ProgramMode := inferInstanceAs (Decidable (_ ∨ _))

end Fetch

namespace BreakpointControl

def privilegedModeCtrl (c : BreakpointControl) : BitVec 2 := field 1 2 c.raw

def securityStateCtrl (c : BreakpointControl) : BitVec 2 := field 14 2 c.raw

def admits (c : BreakpointControl) (f : Fetch) : Prop :=
  (if c.privilegedModeCtrl = 0b00 then f.ProgramMode
    else if c.privilegedModeCtrl = 0b01 then f.mode ≠ 0b10000
    else if c.privilegedModeCtrl = 0b10 then f.mode = 0b10000
    else True) ∧
  (if c.securityStateCtrl = 0b00 then True
    else if c.securityStateCtrl = 0b01 then f.secure = false
    else f.secure = true)

end BreakpointControl

inductive Fetch.Compares (f : Fetch) (value : BitVec 32) (bas : BitVec 4) : Bool → Prop
  | elsewhere (hword : value ≠ f.word) : Compares f value bas false
  | unselected (hbytes : bas &&& f.bytes = 0) : Compares f value bas false
  | selected (hword : value = f.word) (hbytes : bas &&& f.bytes = f.bytes) :
      Compares f value bas true
  /-- half an instruction -/
  | unpredictable (hword : value = f.word) (hsome : bas &&& f.bytes ≠ 0)
      (hall : bas &&& f.bytes ≠ f.bytes) (equal : Bool) : Compares f value bas equal

/-- What a comparison means for the type of a slot. Of the other types nothing is known
here: they look at the context as well. -/
def BreakpointType.Strikes (equal : Bool) : BreakpointType → Prop
  | unlinkedInstrAddressMatch => equal = true
  | unlinkedInstrAddressMismatch => equal = false
  | _ => True

namespace HwBreakpointManager

variable (m : HwBreakpointManager) (f : Fetch)

structure StrikesWith (i : Fin 16) (equal : Bool) : Prop where
  exists_slot : i.val < m.capabilities.numBreakpoints
  enabled : (m.mmio.breakpointCtrl i).enabled = true
  admits : (m.mmio.breakpointCtrl i).admits f
  strikes : ∀ t, (m.mmio.breakpointCtrl i).breakpointType = some t → t.Strikes equal

def MayStrike : Prop := ∃ i equal,
  f.Compares (m.mmio.breakpointValue i) (m.mmio.breakpointCtrl i).byteAddressSelect equal ∧
    m.StrikesWith f i equal

/-- It raises one, whatever the processor makes of what is unpredictable. -/
def MustStrike : Prop := ∃ i, ∀ equal,
  f.Compares (m.mmio.breakpointValue i) (m.mmio.breakpointCtrl i).byteAddressSelect equal →
    m.StrikesWith f i equal

end HwBreakpointManager

namespace Fetch

variable {f : Fetch} {k : HwKey}

/-- Every comparison has an outcome. -/
theorem exists_compares (f : Fetch) (value : BitVec 32) (bas : BitVec 4) :
    ∃ equal, f.Compares value bas equal := by
  by_cases hword : value = f.word
  · by_cases hsome : bas &&& f.bytes = 0
    · exact ⟨false, .unselected hsome⟩
    · by_cases hall : bas &&& f.bytes = f.bytes
      · exact ⟨true, .selected hword hall⟩
      · exact ⟨true, .unpredictable hword hsome hall true⟩
  · exact ⟨false, .elsewhere hword⟩

theorem bytes_ne_zero (f : Fetch) : f.bytes ≠ 0 := by
  unfold bytes
  split_ifs <;> decide

/-- Where a breakpoint and an instruction of one instruction set share a word, all or nothing
of the instruction is selected. -/
theorem and_bytes (hthumb : k.thumb = f.thumb) :
    k.byteSelect &&& f.bytes = if k.byteSelect = f.bytes then f.bytes else 0 := by
  rw [HwKey.byteSelect, bytes, hthumb]
  cases f.thumb <;> simp only [Bool.false_eq_true, if_false, if_true]
  · decide
  · split_ifs <;> first | decide | simp_all

theorem key_eq_iff (hthumb : k.thumb = f.thumb) :
    k = f.key k.specificity ↔ k.addr = f.addr := by
  constructor
  · exact congrArg HwKey.addr
  · obtain ⟨addr, thumb, specificity, hal⟩ := k
    obtain rfl : thumb = f.thumb := hthumb
    rintro rfl
    rfl

/-- For the instruction set it was set for, a breakpoint is compared by its address. -/
theorem compares_iff (hset : k.word = f.word → k.thumb = f.thumb) (equal : Bool) :
    f.Compares k.word k.byteSelect equal ↔ equal = decide (k.addr = f.addr) := by
  by_cases hword : k.word = f.word
  · have hthumb := hset hword
    have hand := and_bytes hthumb
    by_cases hbytes : k.byteSelect = f.bytes
    · have haddr : k.addr = f.addr :=
        (key_eq_iff hthumb).mp (@HwKey.ext_config k (f.key k.specificity) hword hbytes rfl)
      rw [if_pos hbytes] at hand
      rw [decide_eq_true haddr]
      constructor
      · rintro (hne | hzero | _ | ⟨_, _, hne⟩)
        · exact absurd hword hne
        · exact absurd (hand.symm.trans hzero) f.bytes_ne_zero
        · rfl
        · exact absurd hand hne
      · rintro rfl
        exact .selected hword hand
    · have haddr : k.addr ≠ f.addr := by
        intro haddr
        rw [(key_eq_iff hthumb).mpr haddr] at hbytes
        exact hbytes rfl
      rw [if_neg hbytes] at hand
      rw [decide_eq_false haddr]
      constructor
      · rintro (_ | _ | ⟨_, hall⟩ | ⟨_, hne, _⟩)
        · rfl
        · rfl
        · exact absurd (hall.symm.trans hand) f.bytes_ne_zero
        · exact absurd hand hne
      · rintro rfl
        exact .unselected hand
  · have haddr : k.addr ≠ f.addr := by
      intro haddr
      rw [HwKey.word, haddr] at hword
      exact hword rfl
    rw [decide_eq_false haddr]
    constructor
    · rintro (_ | _ | ⟨heq, _⟩ | ⟨heq, _, _⟩)
      · rfl
      · rfl
      · exact absurd heq hword
      · exact absurd heq hword
    · rintro rfl
      exact .elsewhere hword

end Fetch

theorem BreakpointControl.admits_arm (c : BreakpointControl) (bas : BitVec 4)
    (t : BreakpointType) (f : Fetch) : (c.arm bas t).admits f ↔ f.ProgramMode := by
  have hmode : (c.arm bas t).privilegedModeCtrl = 0b00 := by
    simp (disch := omega) only [privilegedModeCtrl, arm, withSecurityStateCtrl,
      withPrivilegedModeCtrl, field_setField_of_disjoint, field_setField_self]
    rfl
  have hsecurity : (c.arm bas t).securityStateCtrl = 0b00 := by
    simp (disch := omega) only [securityStateCtrl, arm, withSecurityStateCtrl,
      field_setField_self]
    rfl
  rw [admits, if_pos hmode, if_pos hsecurity, and_true]

def HwKey.StrikesAt (k : HwKey) (f : Fetch) : Prop :=
  match k.specificity with
  | .matching => k.addr = f.addr
  | .mismatching => k.addr ≠ f.addr

namespace HwBreakpointManager

variable {n : ℕ} {m : HwBreakpointManager} {a : KeySet n} {f : Fetch} {k : HwKey} {i : Fin 16}
  {equal : Bool}

theorem SlotOf.strikesWith_iff (h : m.SlotOf k i) :
    m.StrikesWith f i equal ↔ f.ProgramMode ∧ k.specificity.breakpointType.Strikes equal := by
  have htype := h.enabledAs.specificity
  constructor
  · intro hstrikes
    have hadmits := hstrikes.admits
    rw [h.control] at hadmits
    exact ⟨(BreakpointControl.admits_arm _ _ _ f).mp hadmits, hstrikes.strikes _ htype⟩
  · rintro ⟨hmode, hequal⟩
    refine ⟨h.exists_slot, h.enabled, ?_, ?_⟩
    · rw [h.control]
      exact (BreakpointControl.admits_arm _ _ _ f).mpr hmode
    · intro t ht
      rw [htype] at ht
      obtain rfl := Option.some.inj ht
      exact hequal

theorem SlotOf.compares_iff (h : m.SlotOf k i) :
    f.Compares (m.mmio.breakpointValue i) (m.mmio.breakpointCtrl i).byteAddressSelect equal ↔
      f.Compares k.word k.byteSelect equal := by
  rw [h.value, h.control, HwKey.control, BreakpointControl.byteAddressSelect_arm]

theorem SlotOf.strikes (h : m.SlotOf k i) (hset : k.word = f.word → k.thumb = f.thumb)
    (hcompares : f.Compares (m.mmio.breakpointValue i)
      (m.mmio.breakpointCtrl i).byteAddressSelect equal) :
    m.StrikesWith f i equal ↔ f.ProgramMode ∧ k.StrikesAt f := by
  rw [h.compares_iff, Fetch.compares_iff hset] at hcompares
  rw [h.strikesWith_iff, hcompares, HwKey.StrikesAt]
  cases k.specificity <;> simp [Specificity.breakpointType, BreakpointType.Strikes]

/-- Whatever is unpredictable, only code in a mode of the program is stopped. -/
theorem HasKeys.programMode (h : m.HasKeys a) (hmay : m.MayStrike f) : f.ProgramMode := by
  obtain ⟨i, equal, _, hstrikes⟩ := hmay
  obtain ⟨k, ⟨_, hslot⟩, _⟩ :=
    h.mirrors.enabled i (h.slots ▸ hstrikes.exists_slot) hstrikes.enabled
  exact (hslot.strikesWith_iff.mp hstrikes).1

theorem HasKeys.mayStrike_iff (h : m.HasKeys a)
    (hset : ∀ k ∈ a.keys, k.word = f.word → k.thumb = f.thumb) :
    m.MayStrike f ↔ f.ProgramMode ∧ ∃ k ∈ a.keys, k.StrikesAt f := by
  constructor
  · rintro ⟨i, equal, hcompares, hstrikes⟩
    obtain ⟨k, ⟨hk, hslot⟩, _⟩ :=
      h.mirrors.enabled i (h.slots ▸ hstrikes.exists_slot) hstrikes.enabled
    obtain ⟨hmode, hat⟩ := (hslot.strikes (hset k hk) hcompares).mp hstrikes
    exact ⟨hmode, k, hk, hat⟩
  · rintro ⟨hmode, k, hk, hat⟩
    obtain ⟨i, hslot, _⟩ := h.mirrors.placed k hk
    obtain ⟨equal, hcompares⟩ := f.exists_compares (m.mmio.breakpointValue i)
      (m.mmio.breakpointCtrl i).byteAddressSelect
    exact ⟨i, equal, hcompares, (hslot.strikes (hset k hk) hcompares).mpr ⟨hmode, hat⟩⟩

theorem HasKeys.mustStrike (h : m.HasKeys a)
    (hset : ∀ k ∈ a.keys, k.word = f.word → k.thumb = f.thumb) (hmay : m.MayStrike f) :
    m.MustStrike f := by
  obtain ⟨hmode, k, hk, hat⟩ := (h.mayStrike_iff hset).mp hmay
  obtain ⟨i, hslot, _⟩ := h.mirrors.placed k hk
  exact ⟨i, fun _ hcompares => (hslot.strikes (hset k hk) hcompares).mpr ⟨hmode, hat⟩⟩

end HwBreakpointManager

namespace V5Target

variable {n : ℕ} {user : Finset HwKey} {t : V5Target} {f : Fetch}

theorem Accounted.strikesAt_iff (h : t.Accounted n user) :
    (∃ k ∈ user ∪ t.trapKeys, k.StrikesAt f) ↔
      (∃ k ∈ user, k.addr = f.addr) ∨ ∃ addr, t.trapAddr = some addr ∧ addr ≠ f.addr := by
  have huser : (∃ k ∈ user, k.StrikesAt f) ↔ ∃ k ∈ user, k.addr = f.addr := by
    refine exists_congr fun k => and_congr_right fun hk => ?_
    rw [HwKey.StrikesAt, h.matching k hk]
  have htrap : (∃ k ∈ t.trapKeys, k.StrikesAt f) ↔
      ∃ addr, t.trapAddr = some addr ∧ addr ≠ f.addr := by
    rcases h.trapKeys_cases with ⟨haddr, hnone⟩ | ⟨k, haddr, hone, hspec⟩
    · simp [haddr, hnone]
    · rw [haddr, hone]
      simp [HwKey.StrikesAt, hspec]
  rw [← huser, ← htrap]
  constructor
  · rintro ⟨k, hk, hat⟩
    rcases Finset.mem_union.mp hk with hk | hk
    · exact .inl ⟨k, hk, hat⟩
    · exact .inr ⟨k, hk, hat⟩
  · rintro (⟨k, hk, hat⟩ | ⟨k, hk, hat⟩)
    · exact ⟨k, Finset.mem_union_left _ hk, hat⟩
    · exact ⟨k, Finset.mem_union_right _ hk, hat⟩

end V5Target

namespace Sys

/-- In every state of a run: code in another mode than the program's is never stopped by a
hardware breakpoint, be it the debugger or an interrupt handler. An instruction of the
program is stopped exactly if GDB has a breakpoint there or it is not the one that may be
executed before a step or a halt strikes; this for programs that execute the words of
breakpoints in the instruction sets these were set for. -/
theorem breakpoints_strike (table : TranslationTable) (debugId : BitVec 32) (mmio : DebugLogic)
    (memory : CodeMemory) (exitFunc : Addr) (stopMotorsOnBreak : Bool) (session : DebugSession)
    (hboot : DebugSession.boot debugId mmio memory exitFunc stopMotorsOnBreak = .ok session)
    (es : List SysEvent) (s : Sys) (hrun : Run (Step table) (start session) es s) (f : Fetch) :
    (s.session.target.hwManager.MayStrike f → f.ProgramMode) ∧
      (f.ProgramMode → (∀ k ∈ userKeys es ∪ s.session.target.trapKeys,
          k.word = f.word → k.thumb = f.thumb) →
        (s.session.target.hwManager.MayStrike f ↔ (∃ k ∈ userKeys es, k.addr = f.addr) ∨
          ∃ addr, s.session.target.trapAddr = some addr ∧ addr ≠ f.addr) ∧
        (s.session.target.hwManager.MayStrike f →
          s.session.target.hwManager.MustStrike f)) := by
  have hacc := (holding_of_run hboot hrun).accounted
  obtain ⟨a, hkeys, ha⟩ := hacc.hasKeys
  refine ⟨hkeys.programMode, ?_⟩
  intro hmode hset
  rw [← ha] at hset
  refine ⟨?_, hkeys.mustStrike hset⟩
  rw [hkeys.mayStrike_iff hset, ha, hacc.strikesAt_iff]
  exact and_iff_right hmode

/-- A halt is pending, and strikes at whatever the program executes next. -/
theorem breakpoints_strike_one_slot :
    ∃ (es : List SysEvent) (session : DebugSession) (s : Sys),
      Run (Step ⟨fun _ => ⟨0⟩⟩) (start session) es s ∧
      s.session.target.trapAddr = some ASYNC_HALT_SENTINEL ∧
      s.session.target.hwManager.MustStrike ⟨0x03800000, false, 0b11111, true, by decide⟩ := by
  obtain ⟨session, hboot⟩ := DebugSession.exists_boot_one_slot
  obtain ⟨s, hrun, htrap⟩ := exists_stepped_halt hboot ⟨fun _ => ⟨0⟩⟩
    ⟨⟨0⟩, 0, 0, 0, fun _ => 0, fun _ => 0, 0x03900000⟩ ⟨0⟩ (by decide) (by decide)
    (by decide)
  obtain ⟨_, hprogram⟩ := breakpoints_strike _ _ _ _ _ _ _ hboot _ s hrun
    ⟨0x03800000, false, 0b11111, true, by decide⟩
  obtain ⟨hmay, hmust⟩ := hprogram (by decide) (by
    intro k hk hword
    rcases Finset.mem_union.mp hk with hk | hk
    · cases hk
    · rcases (holding_of_run hboot hrun).accounted.trapKeys_cases with
        ⟨_, hnone⟩ | ⟨k', haddr, hone, _⟩
      · rw [hnone] at hk
        cases hk
      · rw [hone, Finset.mem_singleton] at hk
        rw [htrap, ← hk] at haddr
        rw [HwKey.word, ← Option.some.inj haddr] at hword
        have hne : ASYNC_HALT_SENTINEL &&& ~~~0b11 ≠ (0x03800000 : Addr) &&& ~~~0b11 := by
          decide
        exact absurd hword hne)
  exact ⟨_, session, s, hrun, htrap, hmust (hmay.mpr (.inr ⟨_, htrap, by decide⟩))⟩

end Sys
end V5gdb
