import V5gdb.HardwareKeys
import V5gdb.Transitions
import Mathlib.Data.Finset.Option

/-!
What the hardware breakpoint manager is for: a set of at most `n` keys.
The set knows nothing of slots, registers or the lock. An unlocked manager
answers every call as the set does, and its registers can be read off the set.
-/
namespace V5gdb

open SlotTables Transitions

structure KeySet (n : ℕ) where
  keys : Finset HwKey
  bounded : keys.card ≤ n

inductive HwCall
  | reset
  | add (addr : Addr) (specificity : Specificity) (kind : ArmBreakpointKind)
  | remove (addr : Addr) (specificity : Specificity) (kind : ArmBreakpointKind)

inductive HwReply
  | done
  | added (r : Except BreakpointError Unit)
  | removed (anythingRemoved : Bool)

def HwReply.Failed : HwReply → Prop
  | done => False
  | added r => r ≠ .ok ()
  | removed anythingRemoved => anythingRemoved = false

namespace KeySet

variable {n : ℕ} {a a' : KeySet n} {addr : Addr} {specificity : Specificity}
  {kind : ArmBreakpointKind} {k : HwKey}

def empty (n : ℕ) : KeySet n := ⟨∅, by simp⟩

def insert (a : KeySet n) (k : HwKey) (h : a.keys.card ≠ n) : KeySet n where
  keys := Insert.insert k a.keys
  bounded := by
    have hcard := Finset.card_insert_le k a.keys
    have hle := a.bounded
    omega

def erase (a : KeySet n) (k : HwKey) : KeySet n where
  keys := a.keys.erase k
  bounded := Nat.le_trans (Finset.card_le_card (Finset.erase_subset k a.keys)) a.bounded

def add (a : KeySet n) (addr : Addr) (specificity : Specificity) (kind : ArmBreakpointKind) :
    Except BreakpointError (KeySet n) :=
  match HwKey.of? addr specificity kind with
  | none => .error .notAlignedCorrectly
  | some k =>
    if k ∈ a.keys then .error .alreadyExists
    else if h : a.keys.card = n then .error .noSpace
    else .ok (a.insert k h)

def remove (a : KeySet n) (addr : Addr) (specificity : Specificity) (kind : ArmBreakpointKind) :
    KeySet n × Bool :=
  match HwKey.of? addr specificity kind with
  | none => (a, false)
  | some k => (a.erase k, decide (k ∈ a.keys))

def applyCall (a : KeySet n) : HwCall → KeySet n × HwReply
  | .reset => (empty n, .done)
  | .add addr specificity kind =>
    match a.add addr specificity kind with
    | .ok a' => (a', .added (.ok ()))
    | .error e => (a, .added (.error e))
  | .remove addr specificity kind =>
    let (a', anythingRemoved) := a.remove addr specificity kind
    (a', .removed anythingRemoved)

def Step (a : KeySet n) (e : HwCall × HwReply) (a' : KeySet n) : Prop :=
  a.applyCall e.1 = (a', e.2)

theorem ext_keys (h : a.keys = a'.keys) : a = a' := by
  cases a
  cases a'
  simp_all

theorem add_notAligned (hk : HwKey.of? addr specificity kind = none) :
    a.add addr specificity kind = .error .notAlignedCorrectly := by
  rw [add, hk]

theorem add_alreadyExists (hk : HwKey.of? addr specificity kind = some k) (hmem : k ∈ a.keys) :
    a.add addr specificity kind = .error .alreadyExists := by
  rw [add, hk]
  exact if_pos hmem

theorem add_noSpace (hk : HwKey.of? addr specificity kind = some k) (hnew : k ∉ a.keys)
    (hfull : a.keys.card = n) : a.add addr specificity kind = .error .noSpace := by
  rw [add, hk]
  simp only
  rw [if_neg hnew, dif_pos hfull]

theorem add_insert (hk : HwKey.of? addr specificity kind = some k) (hnew : k ∉ a.keys)
    (hroom : a.keys.card ≠ n) : a.add addr specificity kind = .ok (a.insert k hroom) := by
  rw [add, hk]
  simp only
  rw [if_neg hnew, dif_neg hroom]

theorem remove_absent (h : ∀ k, HwKey.of? addr specificity kind = some k → k ∉ a.keys) :
    a.remove addr specificity kind = (a, false) := by
  unfold remove
  cases hk : HwKey.of? addr specificity kind with
  | none => rfl
  | some k =>
    have herase : a.erase k = a := ext_keys (Finset.erase_eq_of_notMem (h k hk))
    simp [h k hk, herase]

theorem remove_erase (hk : HwKey.of? addr specificity kind = some k) (hmem : k ∈ a.keys) :
    a.remove addr specificity kind = (a.erase k, true) := by
  rw [remove, hk]
  simp [hmem]

theorem add_eq_ok (h : a.add addr specificity kind = .ok a') :
    ∃ k, HwKey.of? addr specificity kind = some k ∧ k ∉ a.keys ∧
      a'.keys = Insert.insert k a.keys := by
  cases hk : HwKey.of? addr specificity kind with
  | none =>
    rw [add_notAligned hk] at h
    cases h
  | some k =>
    by_cases hmem : k ∈ a.keys
    · rw [add_alreadyExists hk hmem] at h
      cases h
    · by_cases hfull : a.keys.card = n
      · rw [add_noSpace hk hmem hfull] at h
        cases h
      · rw [add_insert hk hmem hfull] at h
        obtain rfl := Except.ok.inj h
        exact ⟨k, rfl, hmem, rfl⟩

theorem keys_remove (a : KeySet n) (addr : Addr) (specificity : Specificity)
    (kind : ArmBreakpointKind) :
    (a.remove addr specificity kind).1.keys =
      a.keys \ (HwKey.of? addr specificity kind).toFinset := by
  unfold remove
  cases HwKey.of? addr specificity kind with
  | none => simp
  | some k =>
    rw [Option.toFinset_some, Finset.sdiff_singleton_eq_erase]
    rfl

end KeySet

namespace HwBreakpointManager

variable {n : ℕ} {m m' : HwBreakpointManager} {a a' : KeySet n} {addr : Addr}
  {specificity : Specificity} {kind : ArmBreakpointKind}

structure HasKeys (m : HwBreakpointManager) (a : KeySet n) : Prop where
  slots : m.capabilities.numBreakpoints = n
  holds : ∃ t, m.Holds t ∧ t.keys = a.keys

theorem HasKeys.setLocked (h : m.HasKeys a) (b : Bool) : (m.setLocked b).HasKeys a := by
  obtain ⟨t, ht, hkeys⟩ := h.holds
  exact ⟨h.slots, t, ht.setLocked b, hkeys⟩

/-- Adding a breakpoint, outcome by outcome as the set has them. -/
theorem HasKeys.add_cases (h : m.HasKeys a) (hun : m.locked = false) (addr : Addr)
    (specificity : Specificity) (kind : ArmBreakpointKind) :
    (∃ e, a.add addr specificity kind = .error e ∧
      m.addBreakpointAt addr specificity kind = .ok (m, .error e)) ∨
    ∃ m' a', a.add addr specificity kind = .ok a' ∧
      m.addBreakpointAt addr specificity kind = .ok (m', .ok ()) ∧ m'.HasKeys a' ∧
      m.SameBoard m' := by
  obtain ⟨t, ht, hkeys⟩ := h.holds
  obtain ⟨m', t', r, hadd, hout⟩ := addBreakpointAt_outcome ht hun addr specificity kind
  obtain ⟨ht', hsame⟩ := hout.holds ht hun
  cases hout with
  | notAligned hk => exact Or.inl ⟨_, KeySet.add_notAligned hk, hadd⟩
  | alreadyExists k i hk hi =>
    have hmem : k ∈ a.keys := hkeys ▸ Table.mem_keys.mpr ⟨i, hi⟩
    exact Or.inl ⟨_, KeySet.add_alreadyExists hk hmem, hadd⟩
  | noSpace k hk hnew hfull =>
    have hmem : k ∉ a.keys := by
      rw [← hkeys, Table.mem_keys]
      exact fun ⟨i, hi⟩ => hnew i hi
    have hcard : a.keys.card = n := by
      rw [← hkeys, ht.below.card_eq_of_full m.capabilities.numBreakpoints_le hfull, h.slots]
    exact Or.inl ⟨_, KeySet.add_noSpace hk hmem hcard, hadd⟩
  | added k i hk hi hfree hnew =>
    have hmem : k ∉ a.keys := by
      rw [← hkeys, Table.mem_keys]
      exact fun ⟨i, hi⟩ => hnew i hi
    have hlt := ht.below.card_lt_of_free m.capabilities.numBreakpoints_le hi hfree
    have hroom : a.keys.card ≠ n := by
      rw [← hkeys, ← h.slots]
      omega
    refine Or.inr ⟨_, a.insert k hroom, KeySet.add_insert hk hmem hroom, hadd, ?_, hsame⟩
    refine ⟨h.slots, _, ht', ?_⟩
    rw [Table.keys_put hnew hfree, hkeys]
    rfl

theorem HasKeys.add_ok (h : m.HasKeys a) (hun : m.locked = false)
    (hadd : a.add addr specificity kind = .ok a') :
    ∃ m', m.addBreakpointAt addr specificity kind = .ok (m', .ok ()) ∧ m'.HasKeys a' ∧
      m.SameBoard m' := by
  rcases h.add_cases hun addr specificity kind with ⟨e, he, _⟩ | ⟨m', b, hb, hm', hkeys, hsame⟩
  · rw [hadd] at he
    cases he
  · rw [hadd] at hb
    obtain rfl := Except.ok.inj hb
    exact ⟨m', hm', hkeys, hsame⟩

/-- Removing a breakpoint answers as the set does, and a removal of nothing changes nothing. -/
theorem HasKeys.remove (h : m.HasKeys a) (hun : m.locked = false) (addr : Addr)
    (specificity : Specificity) (kind : ArmBreakpointKind) :
    ∃ m', m.removeBreakpointAt addr specificity kind =
        .ok (m', (a.remove addr specificity kind).2) ∧
      m'.HasKeys (a.remove addr specificity kind).1 ∧ m.SameBoard m' ∧
      ((a.remove addr specificity kind).2 = false → m' = m) := by
  obtain ⟨t, ht, hkeys⟩ := h.holds
  obtain ⟨m', t', r, hrem, hout⟩ := removeBreakpointAt_outcome ht hun addr specificity kind
  obtain ⟨ht', hsame⟩ := hout.holds ht
  cases hout with
  | absent habsent =>
    have hset : a.remove addr specificity kind = (a, false) := by
      refine KeySet.remove_absent fun k hk hmem => ?_
      rw [← hkeys, Table.mem_keys] at hmem
      obtain ⟨i, hi⟩ := hmem
      exact habsent k hk i hi
    rw [hset]
    exact ⟨m, hrem, h, hsame, fun _ => rfl⟩
  | removed k i hk hi =>
    have hmem : k ∈ a.keys := hkeys ▸ Table.mem_keys.mpr ⟨i, hi⟩
    rw [KeySet.remove_erase hk hmem]
    refine ⟨_, hrem, ⟨h.slots, _, ht', ?_⟩, hsame, nofun⟩
    rw [Table.keys_clear hi, hkeys]
    rfl

def applyCall (m : HwBreakpointManager) : HwCall → Exec (HwBreakpointManager × HwReply)
  | .reset => do
    let m ← m.reset
    return (m, .done)
  | .add addr specificity kind => do
    let (m, r) ← m.addBreakpointAt addr specificity kind
    return (m, .added r)
  | .remove addr specificity kind => do
    let (m, anythingRemoved) ← m.removeBreakpointAt addr specificity kind
    return (m, .removed anythingRemoved)

structure Represents (m : HwBreakpointManager) (a : KeySet n) : Prop where
  hasKeys : m.HasKeys a
  unlocked : m.locked = false

/-- Every call on an unlocked manager is answered as the set answers it. -/
theorem Represents.exists_applyCall (h : m.Represents a) (c : HwCall) :
    ∃ m' reply a', m.applyCall c = .ok (m', reply) ∧ a.Step (c, reply) a' ∧ m'.Represents a' ∧
      (reply.Failed → m' = m) := by
  cases c with
  | reset =>
    obtain ⟨m', hreset, hholds, hcap, hun⟩ := exists_reset h.unlocked
    refine ⟨m', .done, .empty n, by rw [applyCall, hreset]; rfl, rfl, ⟨⟨?_, ?_⟩, hun⟩, nofun⟩
    · rw [hcap, h.hasKeys.slots]
    · exact ⟨.empty, hholds, Table.keys_empty⟩
  | add addr specificity kind =>
    rcases h.hasKeys.add_cases h.unlocked addr specificity kind with
      ⟨e, he, hadd⟩ | ⟨m', a', ha', hadd, hkeys, hsame⟩
    · refine ⟨m, .added (.error e), a, by rw [applyCall, hadd]; rfl, ?_, h, fun _ => rfl⟩
      simp only [KeySet.Step, KeySet.applyCall, he]
    · refine ⟨m', .added (.ok ()), a', by rw [applyCall, hadd]; rfl, ?_,
        ⟨hkeys, hsame.locked.trans h.unlocked⟩, fun hf => absurd rfl hf⟩
      simp only [KeySet.Step, KeySet.applyCall, ha']
  | remove addr specificity kind =>
    obtain ⟨m', hrem, hkeys, hsame, hnone⟩ := h.hasKeys.remove h.unlocked addr specificity kind
    exact ⟨m', .removed _, _, by rw [applyCall, hrem]; rfl, rfl,
      ⟨hkeys, hsame.locked.trans h.unlocked⟩, hnone⟩

theorem manager_simulation :
    Simulation (CallStep applyCall) (KeySet.Step (n := n)) Represents where
  matched := by
    rintro m a ⟨c, reply⟩ m' h happ
    obtain ⟨m'', reply', a', happ', hspec, hrep, _⟩ := h.exists_applyCall c
    obtain ⟨rfl, rfl⟩ := Prod.mk.inj (Except.ok.inj (happ.symm.trans happ'))
    exact ⟨a', hspec, hrep⟩

structure SlotOf (m : HwBreakpointManager) (k : HwKey) (i : Fin 16) : Prop where
  exists_slot : i.val < m.capabilities.numBreakpoints
  enabled : (m.mmio.breakpointCtrl i).enabled = true
  value : m.mmio.breakpointValue i = k.word
  control : m.mmio.breakpointCtrl i = k.control

theorem Holds.slotOf_iff {t : Table 16 HwKey} (h : m.Holds t) {k : HwKey} {i : Fin 16} :
    m.SlotOf k i ↔ t.slot i = some k := by
  constructor
  · intro hs
    refine (h.configuredAs_iff hs.exists_slot k).mp ?_
    simp [configuredAs, hs.value, hs.control, HwKey.control]
  · intro hi
    have hlt : i.val < m.capabilities.numBreakpoints := by
      by_contra hge
      rw [h.below i (by omega)] at hi
      cases hi
    obtain ⟨hvalue, hctrl⟩ := h.configured i k hi
    exact ⟨hlt, by rw [h.enabled hlt, hi]; rfl, hvalue, hctrl⟩

structure Mirrors (m : HwBreakpointManager) (a : KeySet n) : Prop where
  slots : m.capabilities.numBreakpoints = n
  enabled : ∀ i : Fin 16, i.val < n → (m.mmio.breakpointCtrl i).enabled = true →
    ∃! k, k ∈ a.keys ∧ m.SlotOf k i
  placed : ∀ k ∈ a.keys, ∃! i, m.SlotOf k i
  used : ∀ i, m.usedBreakpoints i = (decide (i.val < n) && (m.mmio.breakpointCtrl i).enabled)
  available : m.breakpointsAvailable = .ok (n - a.keys.card)

theorem HasKeys.mirrors (h : m.HasKeys a) : m.Mirrors a := by
  obtain ⟨rfl, t, ht, hkeys⟩ := h
  constructor
  · rfl
  · intro i hi hen
    rw [ht.enabled hi] at hen
    obtain ⟨k, hk⟩ := Option.isSome_iff_exists.mp hen
    refine ⟨k, ⟨hkeys ▸ Table.mem_keys.mpr ⟨i, hk⟩, ht.slotOf_iff.mpr hk⟩, ?_⟩
    rintro k' ⟨_, hk'⟩
    rw [ht.slotOf_iff, hk] at hk'
    exact (Option.some.inj hk').symm
  · intro k hk
    rw [← hkeys, Table.mem_keys] at hk
    obtain ⟨i, hi⟩ := hk
    exact ⟨i, ht.slotOf_iff.mpr hi, fun j hj => t.injective j i k (ht.slotOf_iff.mp hj) hi⟩
  · intro i
    rw [ht.used]
    by_cases hi : i.val < m.capabilities.numBreakpoints
    · simp [hi, ht.enabled hi]
    · simp [hi, ht.below i (by omega)]
  · rw [ht.breakpointsAvailable, hkeys]

/-- From any debug registers, for any slot count, any calls on the unlocked
manager are answered as a bounded set of keys answers them. The registers mirror
the set, and a failed call changes nothing. -/
theorem manager_refines_keySet (debugId : BitVec 32) (mmio : DebugLogic) (calls : List HwCall) :
    ∃ m₀ es m, ∃ a : KeySet (HardwareCapabilities.ofDebugId debugId).numBreakpoints,
      setup debugId mmio = .ok m₀ ∧
      Run (CallStep applyCall) (m₀.setLocked false) es m ∧ es.map Prod.fst = calls ∧
      Run KeySet.Step (.empty _) es a ∧ m.Mirrors a ∧
      ∀ c m' reply, m.applyCall c = .ok (m', reply) → reply.Failed → m' = m := by
  obtain ⟨m₀, hsetup, hholds, hcap, _⟩ := exists_setup debugId mmio
  have h₀ : (m₀.setLocked false).Represents
      (KeySet.empty (HardwareCapabilities.ofDebugId debugId).numBreakpoints) :=
    ⟨⟨by rw [← hcap]; rfl, .empty, hholds.setLocked false, Table.keys_empty⟩,
      locked_setLocked ..⟩
  have hok : ∀ (m : HwBreakpointManager) (c : HwCall),
      (∃ a : KeySet (HardwareCapabilities.ofDebugId debugId).numBreakpoints, m.Represents a) →
        True → ∃ m' reply, m.applyCall c = .ok (m', reply) ∧
          ∃ a : KeySet (HardwareCapabilities.ofDebugId debugId).numBreakpoints,
            m'.Represents a := by
    rintro m c ⟨a, ha⟩ _
    obtain ⟨m', reply, a', happ, _, ha', _⟩ := ha.exists_applyCall c
    exact ⟨m', reply, happ, a', ha'⟩
  obtain ⟨es, m, hrun, hmap, _⟩ :=
    exists_run applyCall hok calls (fun _ _ => trivial) ⟨_, h₀⟩
  obtain ⟨a, hspec, hrep⟩ := manager_simulation.run hrun h₀
  refine ⟨m₀, es, m, a, hsetup, hrun, hmap, hspec, hrep.hasKeys.mirrors, ?_⟩
  intro c m' reply happ hfail
  obtain ⟨m'', reply', _, happ', _, _, hnone⟩ := hrep.exists_applyCall c
  rw [happ] at happ'
  obtain ⟨rfl, rfl⟩ := Prod.mk.inj (Except.ok.inj happ')
  exact hnone hfail

end HwBreakpointManager
end V5gdb
