import V5gdb.BreakpointTable
import V5gdb.HardwareSets
import V5gdb.Target

/-!
The target's use of the hardware breakpoints.
Apart from the breakpoints of the user there is at most one more, the trap of a
pending halt or of a single step. Each function of the target keeps this account,
and none of them is refused the slot of the trap.
-/
namespace V5gdb

def sentinelKey : HwKey := ⟨ASYNC_HALT_SENTINEL, false, .mismatching, by decide⟩

theorem of?_sentinel :
    HwKey.of? ASYNC_HALT_SENTINEL .mismatching .arm32 = some sentinelKey :=
  HwKey.of?_eq_some.mpr ⟨rfl, rfl, rfl⟩

def SingleStepRequest.key? (r : SingleStepRequest) : Option HwKey :=
  HwKey.of? r.targetAddr .mismatching r.kind

/-- The user's hardware breakpoints after a callback and its reply: what was
accepted is added, what is removed is gone. -/
def noteReply (user : Finset HwKey) : TargetCall × TargetReply → Finset HwKey
  | (.addHwBreakpoint addr kind, .accepted true) =>
    (HwKey.of? addr .matching kind).toFinset ∪ user
  | (.removeHwBreakpoint addr kind, _) => user \ (HwKey.of? addr .matching kind).toFinset
  | _ => user

namespace V5Target

def stepKeys (t : V5Target) : Finset HwKey :=
  (t.singleStepRequest.bind SingleStepRequest.key?).toFinset

def haltKeys (t : V5Target) : Finset HwKey := if t.interruptPending then {sentinelKey} else ∅

/-- A pending halt has taken over the slot of a step. -/
def trapKeys (t : V5Target) : Finset HwKey :=
  if t.interruptPending then {sentinelKey} else t.stepKeys

variable {n : ℕ} {user : Finset HwKey} {t t' : V5Target} {a : KeySet n}

theorem trapKeys_mismatching {k : HwKey} (h : k ∈ t.trapKeys) : k.specificity = .mismatching := by
  unfold trapKeys at h
  split_ifs at h with hp
  · rw [Finset.mem_singleton.mp h]
    rfl
  · rw [stepKeys, Option.mem_toFinset] at h
    obtain ⟨r, _, hr⟩ := Option.bind_eq_some_iff.mp h
    exact (HwKey.of?_eq_some.mp hr).2.2

theorem trapKeys_subset (t : V5Target) : t.trapKeys ⊆ t.stepKeys ∪ t.haltKeys := by
  unfold trapKeys haltKeys
  split_ifs <;> simp

/-- What the enabled slots hold: the user's breakpoints and the trap, with one
slot always kept from the user. -/
structure Accounted (n : ℕ) (user : Finset HwKey) (t : V5Target) : Prop where
  hasKeys : ∃ a : KeySet n, t.hwManager.HasKeys a ∧ a.keys = user ∪ t.trapKeys
  matching : ∀ k ∈ user, k.specificity = .matching
  reserve : user.card + 1 ≤ n
  stepAligned : ∀ r, t.singleStepRequest = some r → ∃ k, r.key? = some k

structure SameHw (t t' : V5Target) : Prop where
  hwManager : t'.hwManager = t.hwManager
  request : t'.singleStepRequest = t.singleStepRequest
  pending : t'.interruptPending = t.interruptPending
  original : t'.originalHwLockState = t.originalHwLockState

theorem SameHw.trapKeys (h : t.SameHw t') : t'.trapKeys = t.trapKeys := by
  rw [V5Target.trapKeys, V5Target.trapKeys, stepKeys, stepKeys, h.pending, h.request]

theorem Accounted.congr (h : t.Accounted n user) (hsame : t.SameHw t') : t'.Accounted n user where
  hasKeys := by
    obtain ⟨a, ha, hkeys⟩ := h.hasKeys
    exact ⟨a, hsame.hwManager ▸ ha, by rw [hkeys, hsame.trapKeys]⟩
  matching := h.matching
  reserve := h.reserve
  stepAligned := fun r hr => h.stepAligned r (hsame.request ▸ hr)

theorem Accounted.disjoint (h : t.Accounted n user) : Disjoint user t.trapKeys := by
  rw [Finset.disjoint_left]
  intro k hk htrap
  have hmatch := h.matching k hk
  rw [trapKeys_mismatching htrap] at hmatch
  cases hmatch

/-- A breakpoint of the user is never taken for a trap. -/
theorem not_mem_of_mismatching (hmatch : ∀ k ∈ user, k.specificity = .matching) {k : HwKey}
    (hk : k.specificity = .mismatching) : k ∉ user := by
  intro hmem
  rw [hmatch k hmem] at hk
  cases hk

theorem finalizeSingleStep_spec (h : t.hwManager.HasKeys a) (hun : t.hwManager.locked = false) :
    ∃ hw, ∃ a' : KeySet n,
      t.finalizeSingleStep = .ok { t with hwManager := hw, singleStepRequest := none } ∧
      hw.HasKeys a' ∧ a'.keys = a.keys \ t.stepKeys ∧ t.hwManager.SameBoard hw := by
  unfold finalizeSingleStep stepKeys
  cases hr : t.singleStepRequest with
  | none =>
    refine ⟨t.hwManager, a, ?_, h, by simp, .refl _⟩
    simp only
    rw [← hr]
  | some r =>
    obtain ⟨hw, hrem, hkeys, hsame, _⟩ := h.remove hun r.targetAddr .mismatching r.kind
    refine ⟨hw, _, ?_, hkeys, KeySet.keys_remove .., hsame⟩
    simp only [hrem]
    rfl

theorem finalizeInterrupt_spec (h : t.hwManager.HasKeys a) (hun : t.hwManager.locked = false) :
    ∃ hw, ∃ a' : KeySet n,
      t.finalizeInterrupt = .ok { t with hwManager := hw, interruptPending := false } ∧
      hw.HasKeys a' ∧ a'.keys = a.keys \ t.haltKeys ∧ t.hwManager.SameBoard hw := by
  unfold finalizeInterrupt haltKeys
  cases hp : t.interruptPending with
  | false =>
    refine ⟨t.hwManager, a, ?_, h, by simp, .refl _⟩
    rw [if_neg (by simp)]
    rw [← hp]
  | true =>
    obtain ⟨hw, hrem, hkeys, hsame, _⟩ := h.remove hun ASYNC_HALT_SENTINEL .mismatching .arm32
    refine ⟨hw, _, ?_, hkeys, ?_, hsame⟩
    · simp only [if_true, hrem]
      rfl
    · rw [KeySet.keys_remove, of?_sentinel]
      rfl

structure Ready (n : ℕ) (user : Finset HwKey) (lock : Bool) (t : V5Target) : Prop where
  accounted : t.Accounted n user
  unlocked : t.hwManager.locked = false
  pending : t.interruptPending = false
  original : t.originalHwLockState = lock

theorem Ready.congr {lock : Bool} (h : t.Ready n user lock) (hsame : t.SameHw t') :
    t'.Ready n user lock :=
  ⟨h.accounted.congr hsame, by rw [hsame.hwManager, h.unlocked], hsame.pending.trans h.pending,
    hsame.original.trans h.original⟩

theorem fixupManualBkpt_cases (t : V5Target) :
    (t.stopReason = .untrackedSoftwareBreak ∧
        t.fixupManualBkpt = .error .unalignedInstruction ∧
        ¬Instruction.AlignedFor t.exceptionCtx.cpsr.thumb t.exceptionCtx.programCounter) ∨
      ∃ ctx, t.fixupManualBkpt = .ok { t with exceptionCtx := ctx } ∧
        (t.stopReason ≠ .untrackedSoftwareBreak → ctx = t.exceptionCtx) := by
  unfold fixupManualBkpt
  split_ifs with hr
  · cases hread : Instruction.read t.memory.data t.exceptionCtx.programCounter
      t.exceptionCtx.cpsr.thumb with
    | error e =>
      obtain rfl := Instruction.read_error hread
      refine Or.inl ⟨hr, rfl, ?_⟩
      intro haligned
      obtain ⟨instr, hinstr⟩ := Instruction.exists_read t.memory.data haligned
      cases hread.symm.trans hinstr
    | ok instr => exact Or.inr ⟨_, rfl, fun hne => absurd hr hne⟩
  · exact Or.inr ⟨t.exceptionCtx, rfl, fun _ => rfl⟩

theorem Accounted.keys_after_finalize (h : t.Accounted n user) :
    ((user ∪ t.trapKeys) \ t.stepKeys) \ t.haltKeys = user := by
  have hstep : Disjoint user (t.stepKeys ∪ t.haltKeys) := by
    rw [Finset.disjoint_left]
    intro k hk htrap
    have hmatch := h.matching k hk
    rcases Finset.mem_union.mp htrap with hs | hh
    · rw [stepKeys, Option.mem_toFinset] at hs
      obtain ⟨r, _, hr⟩ := Option.bind_eq_some_iff.mp hs
      rw [(HwKey.of?_eq_some.mp hr).2.2] at hmatch
      cases hmatch
    · unfold haltKeys at hh
      split_ifs at hh
      · rw [Finset.mem_singleton.mp hh] at hmatch
        cases hmatch
      · cases hh
  rw [sdiff_sdiff_left, Finset.sup_eq_union, Finset.union_sdiff_distrib,
    Finset.sdiff_eq_empty_iff_subset.mpr t.trapKeys_subset, Finset.union_empty]
  exact Finset.sdiff_eq_self_of_disjoint hstep

/-- An entry leaves the user's hardware breakpoints and nothing else, and unlocks
the debug registers. It can only fail to read a `bkpt` it has to skip. -/
theorem enterBreakpoint_cases (h : t.Accounted n user) (ctx : DebugEventContext) :
    ((t.prepareEntry ctx).stopReason = .untrackedSoftwareBreak ∧
        t.enterBreakpoint ctx = .error .unalignedInstruction ∧
        ¬Instruction.AlignedFor ctx.cpsr.thumb ctx.programCounter) ∨
      ∃ hw ctx', t.enterBreakpoint ctx = .ok ({ t.prepareEntry ctx with
          hwManager := hw
          singleStepRequest := none
          interruptPending := false
          exceptionCtx := ctx' }, t.singleStepRequest.isNone) ∧
        ((t.prepareEntry ctx).stopReason ≠ .untrackedSoftwareBreak → ctx' = ctx) ∧
        hw.locked = false ∧ ∃ a : KeySet n, hw.HasKeys a ∧ a.keys = user := by
  obtain ⟨a, ha, hkeys⟩ := h.hasKeys
  have hun : (t.prepareEntry ctx).hwManager.locked = false :=
    HwBreakpointManager.locked_setLocked ..
  obtain ⟨hw, a', hstep, ha', hkeys', hsame⟩ := finalizeSingleStep_spec
    (t := t.prepareEntry ctx) (ha.setLocked false) hun
  obtain ⟨hw', a'', hhalt, ha'', hkeys'', hsame'⟩ := finalizeInterrupt_spec
    (t := { t.prepareEntry ctx with hwManager := hw, singleStepRequest := none }) ha'
    (hsame.locked.trans hun)
  have hall : a''.keys = user := by
    rw [hkeys'', hkeys', hkeys]
    exact h.keys_after_finalize
  have henter : t.enterBreakpoint ctx = (do
      let t' ← fixupManualBkpt { t.prepareEntry ctx with
        hwManager := hw', singleStepRequest := none, interruptPending := false }
      return (t', t.singleStepRequest.isNone)) := by
    rw [enterBreakpoint, hstep]
    simp only [bind, Except.bind]
    rw [hhalt]
  rw [henter]
  rcases fixupManualBkpt_cases { t.prepareEntry ctx with
    hwManager := hw', singleStepRequest := none, interruptPending := false } with
      ⟨hreason, hfix, hmis⟩ | ⟨ctx', hfix, hctx⟩
  · rw [hfix]
    exact Or.inl ⟨hreason, rfl, hmis⟩
  · rw [hfix]
    exact Or.inr ⟨hw', ctx', rfl, hctx, hsame'.locked.trans (hsame.locked.trans hun),
      a'', ha'', hall⟩

theorem enterBreakpoint_ready {ctx : DebugEventContext} {suspends : Bool}
    (h : t.Accounted n user) (henter : t.enterBreakpoint ctx = .ok (t', suspends)) :
    t'.Ready n user t.hwManager.locked ∧ t'.singleStepRequest = none ∧
      suspends = t.singleStepRequest.isNone := by
  rcases enterBreakpoint_cases h ctx with
    ⟨_, herr, _⟩ | ⟨hw, ctx', hok, _, hun, a, ha, hkeys⟩
  · rw [herr] at henter
    cases henter
  · rw [hok] at henter
    obtain ⟨rfl, rfl⟩ := Prod.mk.inj (Except.ok.inj henter)
    refine ⟨⟨⟨⟨a, ha, ?_⟩, h.matching, h.reserve, nofun⟩, hun, rfl, rfl⟩, rfl, rfl⟩
    rw [hkeys]
    exact (Finset.union_empty user).symm

theorem Accounted.setLocked (h : t.Accounted n user) (b : Bool) :
    ({ t with hwManager := t.hwManager.setLocked b } : V5Target).Accounted n user := by
  obtain ⟨a, ha, hkeys⟩ := h.hasKeys
  exact ⟨⟨a, ha.setLocked b, hkeys⟩, h.matching, h.reserve, h.stepAligned⟩

/-- While nothing but the user's breakpoints is there, a trap can be added. -/
theorem add_trap {hw : HwBreakpointManager} {addr : Addr} {kind : ArmBreakpointKind} {k : HwKey}
    (ha : hw.HasKeys a) (hkeys : a.keys = user) (hun : hw.locked = false)
    (hmatch : ∀ k ∈ user, k.specificity = .matching) (hreserve : user.card + 1 ≤ n)
    (hk : HwKey.of? addr .mismatching kind = some k) :
    ∃ hw', hw.addBreakpointAt addr .mismatching kind = .ok (hw', .ok ()) ∧
      (∃ a' : KeySet n, hw'.HasKeys a' ∧ a'.keys = user ∪ {k}) ∧ hw.SameBoard hw' := by
  have hnew : k ∉ a.keys := by
    rw [hkeys]
    exact not_mem_of_mismatching hmatch (HwKey.of?_eq_some.mp hk).2.2
  have hroom : a.keys.card ≠ n := by
    rw [hkeys]
    omega
  obtain ⟨hw', hadd, ha', hsame⟩ := ha.add_ok hun (KeySet.add_insert hk hnew hroom)
  refine ⟨hw', hadd, ⟨_, ha', ?_⟩, hsame⟩
  rw [← hkeys, Finset.union_comm]
  rfl

theorem keys_of_idle (hkeys : a.keys = user ∪ t.trapKeys) (hp : t.interruptPending = false)
    (hr : t.singleStepRequest = none) : a.keys = user := by
  rw [hkeys, trapKeys, hp, stepKeys, hr]
  exact Finset.union_empty user

def PcAligned (t : V5Target) : Prop :=
  Instruction.AlignedFor t.exceptionCtx.cpsr.thumb t.exceptionCtx.programCounter

theorem stepKind_isThumb (ctx : DebugEventContext) :
    (stepKind ctx).isThumb = ctx.cpsr.thumb := by
  unfold stepKind
  cases ctx.cpsr.thumb <;> rfl

/-- A single step is refused only where the PC is misaligned, and then changes nothing. -/
theorem requestSingleStep_cases {lock : Bool} (h : t.Ready n user lock) :
    (¬ t.PcAligned ∧ ∃ e, t.requestSingleStep = .ok (t, .error e)) ∨
      ∃ t', t.requestSingleStep = .ok (t', .ok ()) ∧ t'.Ready n user lock := by
  unfold requestSingleStep
  cases hr : t.singleStepRequest with
  | some r => exact Or.inr ⟨t, rfl, h⟩
  | none =>
    obtain ⟨a, ha, hkeys⟩ := h.accounted.hasKeys
    simp only [Option.isSome_none, Bool.false_eq_true, if_false, bind, Except.bind]
    cases hk : HwKey.of? t.exceptionCtx.programCounter .mismatching (stepKind t.exceptionCtx) with
    | none =>
      have hal := HwKey.of?_eq_none.mp hk
      rw [stepKind_isThumb] at hal
      rcases ha.add_cases h.unlocked t.exceptionCtx.programCounter .mismatching
        (stepKind t.exceptionCtx) with ⟨e, _, hadd⟩ | ⟨_, _, hset, _⟩
      · refine Or.inl ⟨hal, e, ?_⟩
        rw [hadd]
        simp only
        rw [← hr]
        rfl
      · rw [KeySet.add_notAligned hk] at hset
        cases hset
    | some k =>
      obtain ⟨hw, hadd, ⟨a', ha', hkeys'⟩, hsame⟩ := add_trap ha
        (keys_of_idle hkeys h.pending hr) h.unlocked h.accounted.matching h.accounted.reserve hk
      rw [hadd]
      refine Or.inr ⟨_, rfl, ⟨⟨a', ha', ?_⟩, h.accounted.matching, h.accounted.reserve, ?_⟩,
        hsame.locked.trans h.unlocked, h.pending, h.original⟩
      · rw [hkeys', trapKeys, stepKeys]
        simp [h.pending, SingleStepRequest.key?, hk]
      · intro r hreq
        obtain rfl := Option.some.inj hreq
        exact ⟨k, hk⟩

theorem releaseStepSlot_spec {hw : HwBreakpointManager} (ha : hw.HasKeys a)
    (hun : hw.locked = false) :
    ∃ hw', t.releaseStepSlot hw = .ok hw' ∧
      (∃ a' : KeySet n, hw'.HasKeys a' ∧ a'.keys = a.keys \ t.stepKeys) ∧ hw.SameBoard hw' := by
  unfold releaseStepSlot stepKeys
  cases t.singleStepRequest with
  | none => exact ⟨hw, rfl, ⟨a, ha, by simp⟩, .refl _⟩
  | some r =>
    obtain ⟨hw', hrem, hkeys, hsame, _⟩ := ha.remove hun r.targetAddr .mismatching r.kind
    refine ⟨hw', ?_, ⟨_, hkeys, KeySet.keys_remove ..⟩, hsame⟩
    simp only [hrem]
    rfl

/-- A halt can be requested at any time, and the lock is left as it was found. -/
theorem requestInterrupt_spec (h : t.Accounted n user) :
    ∃ t', t.requestInterrupt = .ok t' ∧ t'.Accounted n user ∧
      t'.hwManager.locked = t.hwManager.locked ∧
      t'.singleStepRequest = t.singleStepRequest ∧ t'.interruptPending = true := by
  unfold requestInterrupt
  cases hp : t.interruptPending with
  | true => exact ⟨t, rfl, h, rfl, rfl, hp⟩
  | false =>
    obtain ⟨a, ha, hkeys⟩ := h.hasKeys
    obtain ⟨hw, hrel, ⟨a', ha', hkeys'⟩, hsame⟩ := releaseStepSlot_spec (t := t)
      (ha.setLocked false) (HwBreakpointManager.locked_setLocked ..)
    have hun : hw.locked = false := hsame.locked.trans (HwBreakpointManager.locked_setLocked ..)
    have huser : a'.keys = user := by
      have hall := h.keys_after_finalize
      rw [haltKeys, hp] at hall
      simpa [hkeys', hkeys] using hall
    obtain ⟨hw', hadd, ⟨a'', ha'', hkeys''⟩, hsame'⟩ :=
      add_trap ha' huser hun h.matching h.reserve of?_sentinel
    simp only [Bool.false_eq_true, if_false, bind, Except.bind, hrel, hadd]
    refine ⟨_, rfl, ⟨⟨a'', ha''.setLocked _, ?_⟩, h.matching, h.reserve, h.stepAligned⟩, ?_, rfl,
      rfl⟩
    · rw [hkeys'', trapKeys]
      simp
    · exact HwBreakpointManager.locked_setLocked ..

theorem Accounted.card_keys (h : t.Accounted n user) (hkeys : a.keys = user ∪ t.trapKeys) :
    a.keys.card = user.card + t.trapKeys.card := by
  rw [hkeys, Finset.card_union_of_disjoint h.disjoint]

/-- A request for a hardware breakpoint is always answered. -/
theorem addHwBreakpoint_spec {lock : Bool} (h : t.Ready n user lock) (addr : Addr)
    (kind : ArmBreakpointKind) :
    ∃ t' b, t.addHwBreakpoint addr kind = .ok (t', b) ∧
      t'.Ready n (noteReply user (.addHwBreakpoint addr kind, .accepted b)) lock := by
  obtain ⟨a, ha, hkeys⟩ := h.accounted.hasKeys
  have hcard := h.accounted.card_keys hkeys
  have havail := ha.mirrors.available
  unfold addHwBreakpoint
  rw [havail]
  simp only [bind, Except.bind]
  split_ifs with hle
  · exact ⟨t, false, rfl, h⟩
  · rcases ha.add_cases h.unlocked addr .matching kind with
      ⟨e, _, hadd⟩ | ⟨hw, a', hset, hadd, ha', hsame⟩
    · rw [hadd]
      exact ⟨t, false, rfl, h⟩
    · rw [hadd]
      obtain ⟨k, hk, hnew, hkeys'⟩ := KeySet.add_eq_ok hset
      have huser : noteReply user (.addHwBreakpoint addr kind, .accepted true) = {k} ∪ user := by
        simp [noteReply, hk]
      refine ⟨_, true, rfl, ?_⟩
      rw [huser]
      refine ⟨⟨⟨a', ha', ?_⟩, ?_, ?_, h.accounted.stepAligned⟩,
        hsame.locked.trans h.unlocked, h.pending, h.original⟩
      · rw [hkeys', hkeys, Finset.union_assoc]
        rfl
      · intro k' hk'
        rcases Finset.mem_union.mp hk' with hk' | hk'
        · rw [Finset.mem_singleton.mp hk']
          exact (HwKey.of?_eq_some.mp hk).2.2
        · exact h.accounted.matching k' hk'
      · have hgrow := Finset.card_union_le {k} user
        rw [Finset.card_singleton] at hgrow
        omega

theorem removeHwBreakpoint_spec {lock : Bool} (h : t.Ready n user lock) (addr : Addr)
    (kind : ArmBreakpointKind) :
    ∃ t' b, t.removeHwBreakpoint addr kind = .ok (t', b) ∧
      t'.Ready n (noteReply user (.removeHwBreakpoint addr kind, .accepted b)) lock := by
  obtain ⟨a, ha, hkeys⟩ := h.accounted.hasKeys
  obtain ⟨hw, hrem, ha', hsame, _⟩ := ha.remove h.unlocked addr .matching kind
  unfold removeHwBreakpoint
  rw [hrem]
  have htrap : Disjoint t.trapKeys (HwKey.of? addr .matching kind).toFinset := by
    rw [Finset.disjoint_left]
    intro k hk hmem
    rw [Option.mem_toFinset] at hmem
    have hmatch := (HwKey.of?_eq_some.mp hmem).2.2
    rw [trapKeys_mismatching hk] at hmatch
    cases hmatch
  refine ⟨_, _, rfl, ⟨⟨_, ha', ?_⟩, ?_, ?_, h.accounted.stepAligned⟩,
    hsame.locked.trans h.unlocked, h.pending, h.original⟩
  · rw [KeySet.keys_remove, hkeys, Finset.union_sdiff_distrib,
      Finset.sdiff_eq_self_of_disjoint htrap]
    rfl
  · intro k hk
    exact h.accounted.matching k (Finset.mem_sdiff.mp hk).1
  · have hshrink := Finset.card_le_card
      (Finset.sdiff_subset (s := user) (t := (HwKey.of? addr .matching kind).toFinset))
    have hreserve := h.accounted.reserve
    show (user \ _).card + 1 ≤ n
    omega

theorem mustStep_cases {lock : Bool} (h : t.Ready n user lock) :
    (¬ t.PcAligned ∧ ∃ e, t.mustStep = .error (.singleStepSetup e)) ∨
      ∃ t', t.mustStep = .ok t' ∧ t'.Ready n user lock := by
  unfold mustStep
  rcases requestSingleStep_cases h with ⟨hpc, e, hreq⟩ | ⟨t', hreq, ht'⟩
  · rw [hreq]
    exact Or.inl ⟨hpc, e, rfl⟩
  · rw [hreq]
    exact Or.inr ⟨t', rfl, ht'⟩

/-- The panics a callback may end in: none of them is about hardware breakpoints,
unless a step is asked for at a misaligned PC. -/
def CallPanic (t : V5Target) : Panic → Prop
  | .unalignedInstruction => True
  | .stepOtherThread => True
  | .singleStepSetup _ => ¬ t.PcAligned
  | _ => False

/-- A callback of GDB is answered with the account in order, or ends in a panic
that has nothing to do with it. -/
theorem applyCall_cases {lock : Bool} (table : TranslationTable) (h : t.Ready n user lock)
    (c : TargetCall) :
    (∃ e, t.applyCall table c = .error e ∧ t.CallPanic e) ∨
      ∃ t' r, t.applyCall table c = .ok (t', r) ∧ t'.Ready n (noteReply user (c, r)) lock := by
  cases c with
  | writeRegisters regs => exact Or.inr ⟨_, _, rfl, h.congr ⟨rfl, rfl, rfl, rfl⟩⟩
  | writeRegister regId val => exact Or.inr ⟨_, _, rfl, h.congr ⟨rfl, rfl, rfl, rfl⟩⟩
  | readAddrs startAddr data => exact Or.inr ⟨_, _, rfl, h⟩
  | writeAddrs startAddr data => exact Or.inr ⟨_, _, rfl, h.congr ⟨rfl, rfl, rfl, rfl⟩⟩
  | addSwBreakpoint addr kind =>
    cases hreg : t.toSwState.registerSwBreakpoint addr kind.isThumb false with
    | error e =>
      obtain rfl := SwState.register_error hreg
      refine Or.inl ⟨.unalignedInstruction, ?_, trivial⟩
      rw [applyCall, addSwBreakpoint, hreg]
      rfl
    | ok p =>
      refine Or.inr ⟨{ t with toSwState := p.1 }, .accepted p.2.isOk, ?_,
        h.congr ⟨rfl, rfl, rfl, rfl⟩⟩
      rw [applyCall, addSwBreakpoint, hreg]
      rfl
  | removeSwBreakpoint addr kind => exact Or.inr ⟨_, _, rfl, h.congr ⟨rfl, rfl, rfl, rfl⟩⟩
  | addHwBreakpoint addr kind =>
    obtain ⟨t', b, hadd, ht'⟩ := addHwBreakpoint_spec h addr kind
    exact Or.inr ⟨t', .accepted b, by rw [applyCall, hadd]; rfl, ht'⟩
  | removeHwBreakpoint addr kind =>
    obtain ⟨t', b, hrem, ht'⟩ := removeHwBreakpoint_spec h addr kind
    exact Or.inr ⟨t', .accepted b, by rw [applyCall, hrem]; rfl, ht'⟩
  | resume => exact Or.inr ⟨_, _, rfl, h.congr ⟨rfl, rfl, rfl, rfl⟩⟩
  | step =>
    rcases mustStep_cases h with ⟨hpc, e, hstep⟩ | ⟨t', hstep, ht'⟩
    · exact Or.inl ⟨.singleStepSetup e, by rw [applyCall, hstep]; rfl, hpc⟩
    · exact Or.inr ⟨{ t' with monitorStatus := .resumingProgram }, .done,
        by rw [applyCall, hstep]; rfl, ht'.congr ⟨rfl, rfl, rfl, rfl⟩⟩
  | clearResumeActions => exact Or.inr ⟨_, _, rfl, h⟩
  | setResumeActionContinue => exact Or.inr ⟨_, _, rfl, h⟩
  | setResumeActionStep current =>
    cases current with
    | false => exact Or.inl ⟨.stepOtherThread, rfl, trivial⟩
    | true =>
      rcases mustStep_cases h with ⟨hpc, e, hstep⟩ | ⟨t', hstep, ht'⟩
      · exact Or.inl ⟨.singleStepSetup e, by rw [applyCall, if_pos rfl, hstep]; rfl, hpc⟩
      · exact Or.inr ⟨t', .done, by rw [applyCall, if_pos rfl, hstep]; rfl, ht'⟩
  | autostop enabled => exact Or.inr ⟨_, _, rfl, h.congr ⟨rfl, rfl, rfl, rfl⟩⟩

end V5Target
end V5gdb
