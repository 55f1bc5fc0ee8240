import V5gdb.BreakpointRuns
import Mathlib.Data.Finset.Card
import Mathlib.Data.Finset.Image
import Mathlib.Data.Fintype.Card

/-!
What the breakpoint table is for: two sets of addresses, one for each owner,
with at most 16 addresses between them. The table is shown to answer every call
as the two sets do. The sets know nothing of slots, backups or memory.
-/
namespace V5gdb

open Transitions

/-- The addresses of the user (`false`) and of the debugger itself (`true`). -/
structure AddrSets where
  owned : Bool → Finset Addr
  bounded : (owned false ∪ owned true).card ≤ 16

namespace AddrSets

def tracked (a : AddrSets) : Finset Addr := a.owned false ∪ a.owned true

theorem mem_tracked {a : AddrSets} {addr : Addr} :
    addr ∈ a.tracked ↔ ∃ o, addr ∈ a.owned o := by
  simp [tracked]

def empty : AddrSets := ⟨fun _ => ∅, by simp⟩

def insert (a : AddrSets) (addr : Addr) (internal : Bool)
    (h : addr ∈ a.tracked ∨ a.tracked.card < 16) : AddrSets where
  owned := Function.update a.owned internal (Insert.insert addr (a.owned internal))
  bounded := by
    have heq : Function.update a.owned internal (Insert.insert addr (a.owned internal)) false ∪
        Function.update a.owned internal (Insert.insert addr (a.owned internal)) true =
          Insert.insert addr a.tracked := by
      cases internal <;> simp [tracked]
    rw [heq]
    rcases h with hmem | hlt
    · rw [Finset.insert_eq_of_mem hmem]
      exact a.bounded
    · have hcard := Finset.card_insert_le addr a.tracked
      omega

def erase (a : AddrSets) (addr : Addr) (internal : Bool) : AddrSets where
  owned := Function.update a.owned internal ((a.owned internal).erase addr)
  bounded := by
    refine Nat.le_trans (Finset.card_le_card ?_) a.bounded
    cases internal <;> simp [Finset.union_subset_union, Finset.erase_subset]

theorem mem_insert {a : AddrSets} {addr x : Addr} {internal o : Bool}
    {h : addr ∈ a.tracked ∨ a.tracked.card < 16} :
    x ∈ (a.insert addr internal h).owned o ↔ x = addr ∧ o = internal ∨ x ∈ a.owned o := by
  by_cases ho : o = internal
  · subst ho
    simp [insert]
  · simp [insert, ho]

theorem mem_erase {a : AddrSets} {addr x : Addr} {internal o : Bool} :
    x ∈ (a.erase addr internal).owned o ↔ ¬ (x = addr ∧ o = internal) ∧ x ∈ a.owned o := by
  by_cases ho : o = internal
  · subst ho
    simp [erase]
  · simp [erase, ho]

def register (a : AddrSets) (addr : Addr) (internal : Bool) : Except BreakpointError AddrSets :=
  if addr < 0x03000000 then .error .cannotWrite
  else if addr ∈ a.owned internal then .error .alreadyExists
  else if h : addr ∈ a.tracked ∨ a.tracked.card < 16 then .ok (a.insert addr internal h)
  else .error .noSpace

/-- The sets answer a call; a failed registration changes nothing, and a removal
reports whether it gave up the last owner of the address. -/
def applyCall (a : AddrSets) : TableCall → AddrSets × TableReply
  | .register addr _ internal =>
    match a.register addr internal with
    | .ok a' => (a', .registered (.ok ()))
    | .error e => (a, .registered (.error e))
  | .remove addr internal =>
    (a.erase addr internal,
      .removed (decide (addr ∈ a.owned internal ∧ addr ∉ a.owned (!internal))))
  | .setIgnored _ => (a, .done)

def Step (a : AddrSets) (e : TableCall × TableReply) (a' : AddrSets) : Prop :=
  a.applyCall e.1 = (a', e.2)

theorem register_cannotWrite {a : AddrSets} {addr : Addr} {internal : Bool}
    (hlow : addr < 0x03000000) : a.register addr internal = .error .cannotWrite := by
  rw [register, if_pos hlow]

theorem register_alreadyExists {a : AddrSets} {addr : Addr} {internal : Bool}
    (hlow : ¬ addr < 0x03000000) (hmem : addr ∈ a.owned internal) :
    a.register addr internal = .error .alreadyExists := by
  rw [register, if_neg hlow, if_pos hmem]

theorem register_insert {a : AddrSets} {addr : Addr} {internal : Bool}
    (hlow : ¬ addr < 0x03000000) (hnew : addr ∉ a.owned internal)
    (h : addr ∈ a.tracked ∨ a.tracked.card < 16) :
    a.register addr internal = .ok (a.insert addr internal h) := by
  rw [register, if_neg hlow, if_neg hnew, dif_pos h]

/-- Space is refused exactly to an untracked address while 16 are tracked. -/
theorem register_noSpace {a : AddrSets} {addr : Addr} {internal : Bool}
    (hlow : ¬ addr < 0x03000000) (hnew : addr ∉ a.owned internal) :
    a.register addr internal = .error .noSpace ↔ addr ∉ a.tracked ∧ a.tracked.card = 16 := by
  have hle : a.tracked.card ≤ 16 := a.bounded
  rw [register, if_neg hlow, if_neg hnew]
  split_ifs with h
  · constructor
    · rintro ⟨⟩
    · rintro ⟨hnot, hfull⟩
      rcases h with h | h
      · exact absurd h hnot
      · omega
  · push Not at h
    exact ⟨fun _ => ⟨h.1, by omega⟩, fun _ => rfl⟩

end AddrSets

namespace SwState

structure Represents (s : SwState) (a : AddrSets) : Prop where
  table : s.TableInv
  mem_owned : ∀ addr o, addr ∈ a.owned o ↔
    ∃ i b, s.breaks i = some b ∧ b.instrAddr = addr ∧ b.reason.owns o = true

theorem empty_represents (m : CodeMemory) : (empty m).Represents .empty where
  table := empty_tableInv m
  mem_owned := by simp [AddrSets.empty, empty]

variable {s s' : SwState} {a : AddrSets} {addr : Addr} {internal : Bool}

/-- The occupied addresses are exactly the tracked ones: no slot is without an owner. -/
theorem Represents.occupied (h : s.Represents a) (addr : Addr) :
    addr ∈ a.tracked ↔ ∃ i b, s.breaks i = some b ∧ b.instrAddr = addr := by
  rw [AddrSets.mem_tracked]
  constructor
  · rintro ⟨o, hm⟩
    obtain ⟨i, b, hb, ha, _⟩ := (h.mem_owned addr o).mp hm
    exact ⟨i, b, hb, ha⟩
  · rintro ⟨i, b, hb, ha⟩
    have hw := h.table.wanted i b hb
    rw [BreakpointReason.unwanted_eq] at hw
    cases hu : b.reason.owns false with
    | true => exact ⟨false, (h.mem_owned addr false).mpr ⟨i, b, hb, ha, hu⟩⟩
    | false =>
      rw [hu] at hw
      exact ⟨true, (h.mem_owned addr true).mpr ⟨i, b, hb, ha, by simpa using hw⟩⟩

/-- A slot's flags are membership of its address in the two sets. -/
theorem Represents.owners (h : s.Represents a) {i : Fin 16} {b : SwBreakpoint}
    (hb : s.breaks i = some b) (o : Bool) :
    b.reason.owns o = true ↔ b.instrAddr ∈ a.owned o := by
  rw [h.mem_owned]
  constructor
  · intro ho
    exact ⟨i, b, hb, rfl, ho⟩
  · rintro ⟨j, c, hc, hcb, ho⟩
    obtain rfl := h.table.distinct j i c b hc hb hcb
    rw [hb] at hc
    obtain rfl := Option.some.inj hc
    exact ho

theorem Represents.absent (h : s.Represents a) (habsent : s.Absent addr) : addr ∉ a.tracked := by
  intro hmem
  obtain ⟨i, b, hb, ha⟩ := (h.occupied addr).mp hmem
  exact habsent i b hb ha

def slotAddr (s : SwState) (i : Fin 16) : Addr := (s.breaks i).elim 0 SwBreakpoint.instrAddr

/-- A full table tracks 16 addresses: distinct slots are at distinct addresses. -/
theorem Represents.card_of_full (h : s.Represents a) (hfull : ∀ i, s.breaks i ≠ none) :
    a.tracked.card = 16 := by
  have hsome : ∀ i, ∃ b, s.breaks i = some b := fun i => Option.ne_none_iff_exists'.mp (hfull i)
  have hinj : Function.Injective s.slotAddr := by
    intro i j hij
    obtain ⟨b, hb⟩ := hsome i
    obtain ⟨c, hc⟩ := hsome j
    exact h.table.distinct i j b c hb hc (by simpa [slotAddr, hb, hc] using hij)
  have hsub : Finset.univ.image s.slotAddr ⊆ a.tracked := by
    intro x hx
    obtain ⟨i, _, rfl⟩ := Finset.mem_image.mp hx
    obtain ⟨b, hb⟩ := hsome i
    exact (h.occupied _).mpr ⟨i, b, hb, by simp [slotAddr, hb]⟩
  have hcard := Finset.card_le_card hsub
  rw [Finset.card_image_of_injective _ hinj, Finset.card_univ, Fintype.card_fin] at hcard
  exact Nat.le_antisymm a.bounded hcard

theorem Represents.card_of_free (h : s.Represents a) {i : Fin 16} (hfree : s.breaks i = none) :
    a.tracked.card < 16 := by
  have hsub : a.tracked ⊆ (Finset.univ.erase i).image s.slotAddr := by
    intro x hx
    obtain ⟨j, b, hb, rfl⟩ := (h.occupied x).mp hx
    have hj : j ≠ i := by
      rintro rfl
      rw [hfree] at hb
      cases hb
    exact Finset.mem_image.mpr ⟨j, by simpa using hj, by simp [slotAddr, hb]⟩
  have hcard := Nat.le_trans (Finset.card_le_card hsub) Finset.card_image_le
  rw [Finset.card_erase_of_mem (Finset.mem_univ i), Finset.card_univ, Fintype.card_fin] at hcard
  omega

/-- Which slots have a property, when one slot has been replaced. -/
theorem exists_slot_replace {i : Fin 16} {slot : Option SwBreakpoint}
    (hbreaks : ∀ j, s'.breaks j = if j = i then slot else s.breaks j) (P : SwBreakpoint → Prop) :
    (∃ j c, s'.breaks j = some c ∧ P c) ↔
      (∃ c, slot = some c ∧ P c) ∨ ∃ j c, j ≠ i ∧ s.breaks j = some c ∧ P c := by
  constructor
  · rintro ⟨j, c, hc, hP⟩
    rw [hbreaks] at hc
    split_ifs at hc with hj
    · exact Or.inl ⟨c, hc, hP⟩
    · exact Or.inr ⟨j, c, hj, hc, hP⟩
  · rintro (⟨c, hc, hP⟩ | ⟨j, c, hj, hc, hP⟩)
    · exact ⟨i, c, by rw [hbreaks, if_pos rfl, hc], hP⟩
    · exact ⟨j, c, by rw [hbreaks, if_neg hj, hc], hP⟩

/-- Membership, split into slot `i` and the others. -/
theorem Represents.mem_owned_split (h : s.Represents a) (i : Fin 16) (addr : Addr) (o : Bool) :
    addr ∈ a.owned o ↔
      (∃ c, s.breaks i = some c ∧ c.instrAddr = addr ∧ c.reason.owns o = true) ∨
      ∃ j c, j ≠ i ∧ s.breaks j = some c ∧ c.instrAddr = addr ∧ c.reason.owns o = true := by
  rw [h.mem_owned]
  refine exists_slot_replace (s := s) (fun j => ?_) fun c =>
    c.instrAddr = addr ∧ c.reason.owns o = true
  split_ifs with hj
  · rw [hj]
  · rfl

/-- A registration that claims or fills slot `i` for `b` inserts its address. -/
theorem Represents.insert_slot (h : s.Represents a) (hs' : s'.TableInv) {i : Fin 16}
    {b : SwBreakpoint} (hbreaks : ∀ j, s'.breaks j = if j = i then some b else s.breaks j)
    (ha : b.instrAddr = addr)
    (howns : ∀ o, b.reason.owns o = true ↔
      o = internal ∨ ∃ c, s.breaks i = some c ∧ c.instrAddr = addr ∧ c.reason.owns o = true)
    (hold : ∀ c, s.breaks i = some c → c.instrAddr = addr)
    (hroom : addr ∈ a.tracked ∨ a.tracked.card < 16) :
    s'.Represents (a.insert addr internal hroom) where
  table := hs'
  mem_owned := by
    intro x o
    rw [AddrSets.mem_insert, exists_slot_replace hbreaks, h.mem_owned_split i]
    by_cases hx : x = addr
    · subst hx
      simp [ha, howns, or_assoc]
    · have hax : b.instrAddr ≠ x := fun hbx => hx (hbx.symm.trans ha)
      have hcx : ¬ ∃ c, s.breaks i = some c ∧ c.instrAddr = x ∧ c.reason.owns o = true := by
        rintro ⟨c, hc, hcx, _⟩
        exact hx (hcx.symm.trans (hold c hc))
      simp [hx, hax, hcx]

/-- Registration on the table answers as registration in the sets. -/
theorem register_represents {thumb : Bool} {r : Except BreakpointError Unit}
    (h : s.Represents a) (hreg : s.registerSwBreakpoint addr thumb internal = .ok (s', r)) :
    ∃ a', a.Step (.register addr thumb internal, .registered r) a' ∧ s'.Represents a' := by
  have htable : s'.TableInv := register_tableInv h.table hreg
  cases register_outcome hreg with
  | cannotWrite hlow =>
    exact ⟨a, by simp only [AddrSets.Step, AddrSets.applyCall,
      AddrSets.register_cannotWrite hlow], h⟩
  | alreadyExists i b hlow hb ha ho =>
    have hmem : addr ∈ a.owned internal := ha ▸ (h.owners hb internal).mp ho
    exact ⟨a, by simp only [AddrSets.Step, AddrSets.applyCall,
      AddrSets.register_alreadyExists hlow hmem], h⟩
  | noSpace hlow habsent hfull =>
    have hnew : addr ∉ a.owned internal := fun hm =>
      h.absent habsent (AddrSets.mem_tracked.mpr ⟨_, hm⟩)
    have hans := (AddrSets.register_noSpace hlow hnew).mpr
      ⟨h.absent habsent, h.card_of_full hfull⟩
    exact ⟨a, by simp only [AddrSets.Step, AddrSets.applyCall, hans], h⟩
  | claimed i b hlow hb ha ho =>
    have hmem : addr ∈ a.tracked := (h.occupied addr).mpr ⟨i, b, hb, ha⟩
    have hnew : addr ∉ a.owned internal := by
      intro hm
      rw [(h.owners hb internal).mpr (ha ▸ hm)] at ho
      cases ho
    refine ⟨a.insert addr internal (Or.inl hmem), ?_, ?_⟩
    · simp only [AddrSets.Step, AddrSets.applyCall,
        AddrSets.register_insert hlow hnew (Or.inl hmem)]
    · refine h.insert_slot htable (fun j => setSlot_breaks ..) ha ?_ ?_ _
      · intro o
        by_cases hoi : o = internal
        · simp [hoi]
        · simp [hoi, hb, ha]
      · intro c hc
        rw [hb] at hc
        obtain rfl := Option.some.inj hc
        exact ha
  | installed i b hlow habsent hfree hnew =>
    obtain ⟨hdis, ha, hr, _⟩ := SwBreakpoint.new_spec hnew
    have hroom : addr ∈ a.tracked ∨ a.tracked.card < 16 := Or.inr (h.card_of_free hfree)
    have hnot : addr ∉ a.owned internal := fun hm =>
      h.absent habsent (AddrSets.mem_tracked.mpr ⟨_, hm⟩)
    refine ⟨a.insert addr internal hroom, ?_, ?_⟩
    · simp only [AddrSets.Step, AddrSets.applyCall, AddrSets.register_insert hlow hnot hroom]
    · refine h.insert_slot htable (fun j => install_breaks s i j b hdis) ha ?_ ?_ _
      · intro o
        simp [hr, hfree]
      · intro c hc
        rw [hfree] at hc
        cases hc

/-- A removal that takes an owner from slot `i`, or frees it, erases the address. -/
theorem Represents.erase_slot (h : s.Represents a) (hs' : s'.TableInv) {i : Fin 16}
    {b : SwBreakpoint} {slot : Option SwBreakpoint} (hb : s.breaks i = some b)
    (ha : b.instrAddr = addr)
    (hbreaks : ∀ j, s'.breaks j = if j = i then slot else s.breaks j)
    (hslot : ∀ x o, (∃ c, slot = some c ∧ c.instrAddr = x ∧ c.reason.owns o = true) ↔
      addr = x ∧ o ≠ internal ∧ b.reason.owns o = true) :
    s'.Represents (a.erase addr internal) where
  table := hs'
  mem_owned := by
    intro x o
    rw [AddrSets.mem_erase, exists_slot_replace hbreaks, h.mem_owned_split i, hslot]
    by_cases hx : x = addr
    · -- no other slot is at the address
      have hrest : ¬ ∃ j c, j ≠ i ∧ s.breaks j = some c ∧ c.instrAddr = x ∧
          c.reason.owns o = true := by
        rintro ⟨j, c, hj, hc, hcx, _⟩
        exact h.table.others hb j c hj hc (hcx.trans (hx.trans ha.symm))
      rw [or_iff_left hrest, or_iff_left hrest]
      simp [hx, hb, ha]
    · have hax : addr ≠ x := Ne.symm hx
      simp [hx, hb, ha, hax]

/-- Removal on the table answers as removal from the sets. -/
theorem remove_represents {r : Bool} (h : s.Represents a)
    (hrem : s.removeSwBreakpoint addr internal = (s', r)) :
    a.Step (.remove addr internal, .removed r) (a.erase addr internal) ∧
      s'.Represents (a.erase addr internal) := by
  have htable : s'.TableInv := remove_tableInv h.table hrem
  cases remove_outcome h.table hrem with
  | absent habsent =>
    have hnot : ∀ o, addr ∉ a.owned o := fun o hm =>
      h.absent habsent (AddrSets.mem_tracked.mpr ⟨o, hm⟩)
    refine ⟨by simp [AddrSets.Step, AddrSets.applyCall, hnot], htable, ?_⟩
    intro x o
    rw [AddrSets.mem_erase, ← h.mem_owned]
    refine and_iff_right_of_imp ?_
    rintro hx ⟨rfl, _⟩
    exact hnot o hx
  | kept i b hb ha ho =>
    have hmem : addr ∈ a.owned (!internal) := ha ▸ (h.owners hb _).mp ho
    refine ⟨by simp [AddrSets.Step, AddrSets.applyCall, hmem], ?_⟩
    refine h.erase_slot htable hb ha (fun j => setSlot_breaks ..) ?_
    intro x o
    by_cases hoi : o = internal
    · simp [hoi]
    · simp [hoi, ha]
  | freed i b hb ha ho =>
    have hmem : addr ∉ a.owned (!internal) := by
      intro hm
      rw [(h.owners hb _).mpr (ha ▸ hm)] at ho
      cases ho
    have hown : addr ∈ a.owned internal := by
      have hw := h.table.wanted i b hb
      rw [← ha]
      refine (h.owners hb internal).mp ?_
      rw [BreakpointReason.unwanted_eq] at hw
      cases internal with
      | false =>
        rw [show b.reason.owns true = false from ho] at hw
        simpa using hw
      | true =>
        rw [show b.reason.owns false = false from ho] at hw
        simpa using hw
    refine ⟨by simp [AddrSets.Step, AddrSets.applyCall, hmem, hown], ?_⟩
    refine h.erase_slot htable hb ha (fun j => freeSlot_breaks ..) ?_
    intro x o
    constructor
    · rintro ⟨c, hc, _⟩
      cases hc
    · rintro ⟨_, hoi, hbo⟩
      have hoi' : o = !internal := by cases o <;> cases internal <;> simp_all
      rw [hoi', ho] at hbo
      cases hbo

theorem setBreakpointsIgnored_represents (h : s.Represents a) (ignored : Bool) :
    (s.setBreakpointsIgnored ignored).Represents a where
  table := setBreakpointsIgnored_tableInv h.table ignored
  mem_owned := by
    intro x o
    rw [h.mem_owned]
    constructor
    · rintro ⟨i, b, hb, hbx, ho⟩
      exact ⟨i, { b with enabled := !ignored }, setBreakpointsIgnored_of_some ignored hb, hbx, ho⟩
    · rintro ⟨i, c, hc, hcx, ho⟩
      obtain ⟨b, hb, rfl⟩ := setBreakpointsIgnored_some hc
      exact ⟨i, b, hb, hcx, ho⟩

theorem table_simulation :
    Simulation (CallStep applyCall) AddrSets.Step Represents where
  matched := by
    rintro s a ⟨c, reply⟩ s' h happ
    cases c with
    | register addr thumb internal =>
      obtain ⟨r, hreg, rfl⟩ := applyCall_register happ
      exact register_represents h hreg
    | remove addr internal =>
      obtain ⟨r, hrem, rfl⟩ := applyCall_remove happ
      exact ⟨_, remove_represents h hrem⟩
    | setIgnored ignored =>
      obtain ⟨rfl, rfl⟩ := applyCall_setIgnored happ
      exact ⟨a, rfl, setBreakpointsIgnored_represents h ignored⟩

structure Mirrors (s : SwState) (a : AddrSets) : Prop where
  distinct : ∀ i j b c, s.breaks i = some b → s.breaks j = some c →
    b.instrAddr = c.instrAddr → i = j
  occupied : ∀ addr, addr ∈ a.tracked ↔ ∃ i b, s.breaks i = some b ∧ b.instrAddr = addr
  user : ∀ i b, s.breaks i = some b → (b.reason.user = true ↔ b.instrAddr ∈ a.owned false)
  internal : ∀ i b, s.breaks i = some b → (b.reason.internal = true ↔ b.instrAddr ∈ a.owned true)
  enabled : ∀ i b, s.breaks i = some b → b.enabled = !s.breaksPaused

theorem Represents.mirrors (h : s.Represents a) : s.Mirrors a where
  distinct := h.table.distinct
  occupied := h.occupied
  user := fun _ _ hb => h.owners hb false
  internal := fun _ _ hb => h.owners hb true
  enabled := h.table.enabled

/-- An error changes nothing, and a removal leaves the slots of all other
addresses as they are. -/
structure Frame (s : SwState) : Prop where
  error : ∀ c s' e, s.applyCall c = .ok (s', .registered (.error e)) → s' = s
  remove : ∀ addr internal s' reply, s.applyCall (.remove addr internal) = .ok (s', reply) →
    ∀ i, (∀ b, s.breaks i = some b → b.instrAddr ≠ addr) → s'.breaks i = s.breaks i

theorem TableInv.frame (hs : s.TableInv) : s.Frame where
  error := by
    intro c s' e happ
    cases c with
    | register addr thumb internal =>
      obtain ⟨r, hreg, hr⟩ := applyCall_register happ
      obtain rfl := TableReply.registered.inj hr
      cases register_outcome hreg <;> rfl
    | remove addr internal =>
      obtain ⟨r, _, hr⟩ := applyCall_remove happ
      cases hr
    | setIgnored ignored =>
      obtain ⟨_, hr⟩ := applyCall_setIgnored happ
      cases hr
  remove := by
    intro addr internal s' reply happ i hi
    obtain ⟨r, hrem, _⟩ := applyCall_remove happ
    cases remove_outcome hs hrem with
    | absent => rfl
    | kept j b hb ha ho =>
      have hij : i ≠ j := fun hij => hi b (hij ▸ hb) ha
      rw [setSlot_breaks, if_neg hij]
    | freed j b hb ha ho =>
      have hij : i ≠ j := fun hij => hi b (hij ▸ hb) ha
      rw [freeSlot_breaks, if_neg hij]

/-- The breakpoint table refines a pair of address sets: any aligned calls, in
any order, get the replies of the sets, and leave a table that stands for them. -/
theorem table_refines_sets (m : CodeMemory) (cs : List TableCall) (hcs : ∀ c ∈ cs, c.Aligned) :
    ∃ es s a, Run (CallStep applyCall) (empty m) es s ∧ es.map Prod.fst = cs ∧
      Run AddrSets.Step .empty es a ∧ s.Mirrors a ∧ s.Frame := by
  obtain ⟨es, s, hrun, hmap, _⟩ := exists_run applyCall (P := fun _ => True)
    (fun t c _ hc => by
      obtain ⟨t', r, happ⟩ := t.exists_applyCall hc
      exact ⟨t', r, happ, trivial⟩) cs hcs (s := empty m) trivial
  obtain ⟨a, hspec, hrep⟩ := table_simulation.run hrun (empty_represents m)
  exact ⟨es, s, a, hrun, hmap, hspec, hrep.mirrors, hrep.table.frame⟩

/-- A user and an internal registration of one address, with a pause between them. -/
theorem table_refines_sets_shared :
    ∃ es s a, Run (CallStep applyCall) (empty ⟨fun _ => 0, fun _ => 0⟩) es s ∧
      es.map Prod.fst = [.register 0x03800000 true false, .setIgnored true,
        .register 0x03800000 true true, .remove 0x03800000 false] ∧
      Run AddrSets.Step .empty es a ∧ s.Mirrors a ∧ s.Frame :=
  table_refines_sets _ _ (by
    intro c hc
    simp only [List.mem_cons, List.not_mem_nil, or_false] at hc
    rcases hc with rfl | rfl | rfl | rfl
    · show Instruction.AlignedFor true 0x03800000
      decide
    · trivial
    · show Instruction.AlignedFor true 0x03800000
      decide
    · trivial)

end SwState
end V5gdb
