import V5gdb.SoftwareBreakpoints

/-!
What the operations on the breakpoint table can do.
`TableInv` is the bookkeeping invariant: distinct addresses, no slot without an
owner, and enabled exactly while breakpoints are not paused. Under it a removal
touches one slot at most, although its loop tests every slot. The outcome types
list all results of registration and removal; later proofs split on them and
never unfold the loops.
-/
namespace V5gdb.SwState

open ByteMemory SlotLoops

structure TableInv (s : SwState) : Prop where
  distinct : ∀ i j b c, s.breaks i = some b → s.breaks j = some c →
    b.instrAddr = c.instrAddr → i = j
  wanted : ∀ i b, s.breaks i = some b → b.reason.unwanted = false
  enabled : ∀ i b, s.breaks i = some b → b.enabled = !s.breaksPaused

def Absent (s : SwState) (addr : Addr) : Prop :=
  ∀ i b, s.breaks i = some b → b.instrAddr ≠ addr

theorem empty_tableInv (memory : CodeMemory) : (empty memory).TableInv where
  distinct := by intro i j b c hb; cases hb
  wanted := by intro i b hb; cases hb
  enabled := by intro i b hb; cases hb

/-! Small facts about one slot. -/

@[simp] theorem setSlot_memory (s : SwState) (i : Fin 16) (slot : Option SwBreakpoint) :
    (s.setSlot i slot).memory = s.memory := rfl

@[simp] theorem setSlot_breaksPaused (s : SwState) (i : Fin 16) (slot : Option SwBreakpoint) :
    (s.setSlot i slot).breaksPaused = s.breaksPaused := rfl

theorem setSlot_breaks (s : SwState) (i j : Fin 16) (slot : Option SwBreakpoint) :
    (s.setSlot i slot).breaks j = if j = i then slot else s.breaks j := by
  by_cases h : j = i
  · subst h
    simp [setSlot]
  · simp [setSlot, h]

theorem setSlot_eq_self {s : SwState} {i : Fin 16} {slot : Option SwBreakpoint}
    (h : s.breaks i = slot) : s.setSlot i slot = s := by
  subst h
  simp [setSlot]

theorem probe_eq_some {s : SwState} {addr : Addr} {i : Fin 16} {b : SwBreakpoint} :
    s.probe addr i = some b ↔ s.breaks i = some b ∧ b.instrAddr = addr := by
  simp [probe, Option.filter_eq_some_iff]

theorem probe_eq_none {s : SwState} {addr : Addr} {i : Fin 16} (h : s.probe addr i = none) :
    ∀ b, s.breaks i = some b → b.instrAddr ≠ addr := by
  intro b hb ha
  rw [probe_eq_some.mpr ⟨hb, ha⟩] at h
  cases h

theorem querySwBreakpoint_some {s : SwState} {addr : Addr} {i : Fin 16}
    (h : s.querySwBreakpoint addr = some i) : ∃ b, s.breaks i = some b ∧ b.instrAddr = addr := by
  have hsome := List.find?_some h
  obtain ⟨b, hb⟩ := Option.isSome_iff_exists.mp hsome
  exact ⟨b, probe_eq_some.mp hb⟩

/-! Registration. -/

inductive RegisterOutcome (s : SwState) (addr : Addr) (thumb internal : Bool) :
    SwState → Except BreakpointError Unit → Prop
  | cannotWrite (hlow : addr < 0x03000000) :
      RegisterOutcome s addr thumb internal s (.error .cannotWrite)
  | alreadyExists (i : Fin 16) (b : SwBreakpoint) (hlow : ¬ addr < 0x03000000)
      (hb : s.breaks i = some b) (ha : b.instrAddr = addr) (ho : b.reason.owns internal = true) :
      RegisterOutcome s addr thumb internal s (.error .alreadyExists)
  | claimed (i : Fin 16) (b : SwBreakpoint) (hlow : ¬ addr < 0x03000000)
      (hb : s.breaks i = some b) (ha : b.instrAddr = addr) (ho : b.reason.owns internal = false) :
      RegisterOutcome s addr thumb internal
        (s.setSlot i (some { b with reason := b.reason.set internal true })) (.ok ())
  | noSpace (hlow : ¬ addr < 0x03000000) (habsent : s.Absent addr)
      (hfull : ∀ i, s.breaks i ≠ none) :
      RegisterOutcome s addr thumb internal s (.error .noSpace)
  | installed (i : Fin 16) (b : SwBreakpoint) (hlow : ¬ addr < 0x03000000)
      (habsent : s.Absent addr) (hfree : s.breaks i = none)
      (hnew : SwBreakpoint.new s.memory.data addr thumb internal = .ok b) :
      RegisterOutcome s addr thumb internal (s.install i b) (.ok ())

/-- The scan with its probe and free test, as registration runs it. -/
private theorem scan_absent {s : SwState} {addr : Addr} {r : Option (Fin 16)}
    (h : scan (s.probe addr) (fun i => (s.breaks i).isNone) none (List.finRange 16) = .miss r) :
    s.Absent addr := fun i b hb =>
  probe_eq_none (scan_miss h i (List.mem_finRange i)) b hb

theorem register_outcome {s s' : SwState} {addr : Addr} {thumb internal : Bool}
    {r : Except BreakpointError Unit}
    (h : s.registerSwBreakpoint addr thumb internal = .ok (s', r)) :
    RegisterOutcome s addr thumb internal s' r := by
  unfold registerSwBreakpoint at h
  split_ifs at h with hlow
  · obtain ⟨rfl, rfl⟩ := Prod.mk.inj (Except.ok.inj h)
    exact .cannotWrite hlow
  · split at h
    · next i b hscan =>
      obtain ⟨hb, ha⟩ := probe_eq_some.mp (scan_hit hscan).2
      cases internal with
      | true =>
        cases hown : b.reason.internal with
        | false =>
          simp only [hown, Bool.not_false, Bool.and_true, if_true] at h
          obtain ⟨rfl, rfl⟩ := Prod.mk.inj (Except.ok.inj h)
          exact .claimed i b hlow hb ha hown
        | true =>
          simp only [hown, Bool.not_true, Bool.and_false, Bool.false_and, Bool.false_eq_true,
            if_false] at h
          obtain ⟨rfl, rfl⟩ := Prod.mk.inj (Except.ok.inj h)
          exact .alreadyExists i b hlow hb ha hown
      | false =>
        cases hown : b.reason.user with
        | false =>
          simp only [hown, Bool.false_and, Bool.false_eq_true, if_false, Bool.not_false,
            Bool.and_true, if_true] at h
          obtain ⟨rfl, rfl⟩ := Prod.mk.inj (Except.ok.inj h)
          exact .claimed i b hlow hb ha hown
        | true =>
          simp only [hown, Bool.false_and, Bool.false_eq_true, if_false, Bool.not_true,
            Bool.and_false] at h
          obtain ⟨rfl, rfl⟩ := Prod.mk.inj (Except.ok.inj h)
          exact .alreadyExists i b hlow hb ha hown
    · next hscan =>
      obtain ⟨rfl, rfl⟩ := Prod.mk.inj (Except.ok.inj h)
      refine .noSpace hlow (scan_absent hscan) ?_
      intro i hi
      have hfree := (scan_miss_none hscan).2 i (List.mem_finRange i)
      simp [hi] at hfree
    · next i hscan =>
      have hfree : s.breaks i = none := by
        rcases scan_miss_some hscan with hnext | ⟨_, hfree⟩
        · cases hnext
        · simpa using hfree
      cases hnew : SwBreakpoint.new s.memory.data addr thumb internal with
      | error e => rw [hnew] at h; cases h
      | ok b =>
        rw [hnew] at h
        obtain ⟨rfl, rfl⟩ := Prod.mk.inj (Except.ok.inj h)
        exact .installed i b hlow (scan_absent hscan) hfree hnew

/-- At an address without a breakpoint, and with a free slot. -/
theorem new_of_register {s s' : SwState} {addr : Addr} {thumb internal : Bool}
    {r : Except BreakpointError Unit} {k : Fin 16} (hlow : ¬addr < 0x03000000)
    (habsent : s.Absent addr) (hfree : s.breaks k = none)
    (h : s.registerSwBreakpoint addr thumb internal = .ok (s', r)) :
    ∃ b, SwBreakpoint.new s.memory.data addr thumb internal = .ok b ∧ r = .ok () := by
  cases register_outcome h with
  | cannotWrite hbelow => exact absurd hbelow hlow
  | alreadyExists i b _ hb ha => exact absurd ha (habsent i b hb)
  | claimed i b _ hb ha => exact absurd ha (habsent i b hb)
  | noSpace _ _ hfull => exact absurd hfree (hfull k)
  | installed i b _ _ _ hnew => exact ⟨b, hnew, rfl⟩

/-- With an aligned address registration returns. -/
theorem exists_register (s : SwState) {addr : Addr} {thumb : Bool} (internal : Bool)
    (h : Instruction.AlignedFor thumb addr) :
    ∃ s' r, s.registerSwBreakpoint addr thumb internal = .ok (s', r) := by
  unfold registerSwBreakpoint
  split_ifs with hlow
  · exact ⟨_, _, rfl⟩
  · split
    · split_ifs
      · exact ⟨_, _, rfl⟩
      · exact ⟨_, _, rfl⟩
      · exact ⟨_, _, rfl⟩
    · exact ⟨_, _, rfl⟩
    · obtain ⟨b, hb⟩ := SwBreakpoint.exists_new s.memory.data internal h
      rw [hb]
      exact ⟨_, _, rfl⟩

/-- Registration only fails on the instruction it has to back up. -/
theorem register_error {s : SwState} {addr : Addr} {thumb internal : Bool} {e : Panic}
    (h : s.registerSwBreakpoint addr thumb internal = .error e) : e = .unalignedInstruction := by
  unfold registerSwBreakpoint at h
  split_ifs at h with hlow
  split at h
  · split_ifs at h
  · cases h
  · cases hread : Instruction.read s.memory.data addr thumb with
    | error e' =>
      rw [SwBreakpoint.new, hread] at h
      obtain rfl := Except.error.inj h
      exact Instruction.read_error hread
    | ok instr =>
      rw [SwBreakpoint.new, hread] at h
      cases h

/-- The slot of a new breakpoint, whether or not it is armed at once. -/
theorem install_breaks (s : SwState) (i j : Fin 16) (b : SwBreakpoint) (hb : b.enabled = false) :
    (s.install i b).breaks j =
      if j = i then some { b with enabled := !s.breaksPaused } else s.breaks j := by
  cases hp : s.breaksPaused with
  | true => simp [install, hp, setSlot_breaks, ← hb]
  | false => simp [install, hp, ← setSlot_breaks, setSlot]

@[simp] theorem install_breaksPaused (s : SwState) (i : Fin 16) (b : SwBreakpoint) :
    (s.install i b).breaksPaused = s.breaksPaused := by
  cases hp : s.breaksPaused <;> simp [install, hp]

theorem install_memory_of_paused {s : SwState} (i : Fin 16) (b : SwBreakpoint)
    (hp : s.breaksPaused = true) : (s.install i b).memory = s.memory := by
  simp [install, hp]

theorem install_data_of_unpaused {s : SwState} (i : Fin 16) {b : SwBreakpoint}
    (hp : s.breaksPaused = false) (hb : b.enabled = false) :
    (s.install i b).memory.data = write s.memory.data b.instrAddr b.bkptInstr.bytes := by
  simp [install, hp, SwBreakpoint.enable_data _ hb]

theorem register_breaksPaused {s s' : SwState} {addr : Addr} {thumb internal : Bool}
    {r : Except BreakpointError Unit}
    (h : s.registerSwBreakpoint addr thumb internal = .ok (s', r)) :
    s'.breaksPaused = s.breaksPaused := by
  cases register_outcome h with
  | installed => exact install_breaksPaused ..
  | _ => rfl

/-- Replacing one slot keeps the invariant if the newcomer fits in. -/
theorem TableInv.replace {s s' : SwState} (hs : s.TableInv) {i : Fin 16}
    {slot : Option SwBreakpoint}
    (hbreaks : ∀ j, s'.breaks j = if j = i then slot else s.breaks j)
    (hpaused : s'.breaksPaused = s.breaksPaused)
    (hnew : ∀ c, slot = some c →
      ∀ j d, j ≠ i → s.breaks j = some d → d.instrAddr ≠ c.instrAddr)
    (hwanted : ∀ c, slot = some c → c.reason.unwanted = false)
    (henabled : ∀ c, slot = some c → c.enabled = !s.breaksPaused) : s'.TableInv where
  distinct := by
    intro j k c d hc hd hcd
    rw [hbreaks] at hc hd
    split_ifs at hc hd with hj hk hk
    · rw [hj, hk]
    · exact absurd hcd.symm (hnew c hc k d hk hd)
    · exact absurd hcd (hnew d hd j c hj hc)
    · exact hs.distinct j k c d hc hd hcd
  wanted := by
    intro j c hc
    rw [hbreaks] at hc
    split_ifs at hc with hj
    · exact hwanted c hc
    · exact hs.wanted j c hc
  enabled := by
    intro j c hc
    rw [hbreaks] at hc
    rw [hpaused]
    split_ifs at hc with hj
    · exact henabled c hc
    · exact hs.enabled j c hc

/-- The other slots are at other addresses. -/
theorem TableInv.others {s : SwState} (hs : s.TableInv) {i : Fin 16} {b : SwBreakpoint}
    (hb : s.breaks i = some b) (j : Fin 16) (d : SwBreakpoint) (hj : j ≠ i)
    (hd : s.breaks j = some d) : d.instrAddr ≠ b.instrAddr :=
  fun hdb => hj (hs.distinct j i d b hd hb hdb)

theorem register_tableInv {s s' : SwState} {addr : Addr} {thumb internal : Bool}
    {r : Except BreakpointError Unit} (hs : s.TableInv)
    (h : s.registerSwBreakpoint addr thumb internal = .ok (s', r)) : s'.TableInv := by
  cases register_outcome h with
  | cannotWrite => exact hs
  | alreadyExists => exact hs
  | noSpace => exact hs
  | claimed i b hlow hb ha ho =>
    refine hs.replace (fun j => setSlot_breaks ..) rfl ?_ ?_ ?_
    · rintro c hc
      obtain rfl := Option.some.inj hc
      exact fun j d hj hd => hs.others hb j d hj hd
    · rintro c hc
      obtain rfl := Option.some.inj hc
      exact b.reason.unwanted_set_true internal
    · rintro c hc
      obtain rfl := Option.some.inj hc
      exact hs.enabled i b hb
  | installed i b hlow habsent hfree hnew =>
    obtain ⟨hb, ha, hr, _⟩ := SwBreakpoint.new_spec hnew
    refine hs.replace (fun j => install_breaks s i j b hb) (install_breaksPaused ..) ?_ ?_ ?_
    · rintro c hc j d _ hd
      obtain rfl := Option.some.inj hc
      exact fun hdb => habsent j d hd (hdb.trans ha)
    · rintro c hc
      obtain rfl := Option.some.inj hc
      simp [hr]
    · rintro c hc
      obtain rfl := Option.some.inj hc
      rfl

/-! Removal. -/

def freeSlot (s : SwState) (i : Fin 16) (b : SwBreakpoint) : SwState :=
  { s.setSlot i none with
    memory := (b.setEnabled false s.memory).2.syncInstruction (.address b.instrAddr) }

inductive RemoveOutcome (s : SwState) (addr : Addr) (internal : Bool) : SwState → Bool → Prop
  | absent (habsent : s.Absent addr) : RemoveOutcome s addr internal s false
  | kept (i : Fin 16) (b : SwBreakpoint) (hb : s.breaks i = some b) (ha : b.instrAddr = addr)
      (ho : b.reason.owns (!internal) = true) :
      RemoveOutcome s addr internal
        (s.setSlot i (some { b with reason := b.reason.set internal false })) false
  | freed (i : Fin 16) (b : SwBreakpoint) (hb : s.breaks i = some b) (ha : b.instrAddr = addr)
      (ho : b.reason.owns (!internal) = false) :
      RemoveOutcome s addr internal (s.freeSlot i b) true

/-- The loop passes over a slot that is empty, or wanted and at another address. -/
theorem removeSlot_idle {addr : Addr} {internal : Bool} {acc : SwState × Bool} {j : Fin 16}
    (h : ∀ b, acc.1.breaks j = some b → b.instrAddr ≠ addr ∧ b.reason.unwanted = false) :
    removeSlot addr internal acc j = acc := by
  cases hb : acc.1.breaks j with
  | none => simp [removeSlot, hb]
  | some b =>
    obtain ⟨ha, hw⟩ := h b hb
    simp [removeSlot, hb, ha, hw, setSlot_eq_self hb]

theorem removeSlot_at {s : SwState} {addr : Addr} {i : Fin 16} {b : SwBreakpoint}
    (internal : Bool) (hb : s.breaks i = some b) (ha : b.instrAddr = addr) :
    removeSlot addr internal (s, false) i =
      if b.reason.owns (!internal) then
        (s.setSlot i (some { b with reason := b.reason.set internal false }), false)
      else ({ s.setSlot i none with memory := (b.setEnabled false s.memory).2 }, true) := by
  subst ha
  cases ho : b.reason.owns (!internal) with
  | true => simp [removeSlot, hb, BreakpointReason.unwanted_set_false, ho]
  | false =>
    simp [removeSlot, hb, BreakpointReason.unwanted_set_false, ho,
      SwBreakpoint.setEnabled_snd_reason]

theorem remove_outcome {s s' : SwState} (hs : s.TableInv) {addr : Addr} {internal r : Bool}
    (h : s.removeSwBreakpoint addr internal = (s', r)) :
    RemoveOutcome s addr internal s' r := by
  by_cases hex : ∃ i b, s.breaks i = some b ∧ b.instrAddr = addr
  · obtain ⟨i, b, hb, ha⟩ := hex
    -- no other slot has any work to do, before or after slot `i` has been visited
    have hbefore : ∀ j, j ≠ i → removeSlot addr internal (s, false) j = (s, false) := by
      intro j hj
      refine removeSlot_idle fun d hd => ⟨?_, hs.wanted j d hd⟩
      rw [← ha]
      exact hs.others hb j d hj hd
    have hat := removeSlot_at internal hb ha
    have hafter : ∀ j, j ≠ i →
        removeSlot addr internal (removeSlot addr internal (s, false) i) j =
          removeSlot addr internal (s, false) i := by
      intro j hj
      refine removeSlot_idle fun d hd => ?_
      have hd' : s.breaks j = some d := by
        rw [hat] at hd
        split_ifs at hd <;> simpa [setSlot, hj] using hd
      rw [← ha]
      exact ⟨hs.others hb j d hj hd', hs.wanted j d hd'⟩
    unfold removeSwBreakpoint at h
    rw [sweep_single i hbefore hafter, hat] at h
    cases ho : b.reason.owns (!internal) with
    | true =>
      rw [ho] at h
      obtain ⟨rfl, rfl⟩ := Prod.mk.inj h
      exact .kept i b hb ha ho
    | false =>
      rw [ho] at h
      obtain ⟨rfl, rfl⟩ := Prod.mk.inj h
      subst ha
      exact .freed i b hb rfl ho
  · have habsent : s.Absent addr := fun i b hb ha => hex ⟨i, b, hb, ha⟩
    have hidle : ∀ j, removeSlot addr internal (s, false) j = (s, false) := fun j =>
      removeSlot_idle fun d hd => ⟨habsent j d hd, hs.wanted j d hd⟩
    unfold removeSwBreakpoint at h
    rw [sweep_idle hidle] at h
    obtain ⟨rfl, rfl⟩ := Prod.mk.inj h
    exact .absent habsent

@[simp] theorem freeSlot_breaksPaused (s : SwState) (i : Fin 16) (b : SwBreakpoint) :
    (s.freeSlot i b).breaksPaused = s.breaksPaused := rfl

theorem freeSlot_breaks (s : SwState) (i j : Fin 16) (b : SwBreakpoint) :
    (s.freeSlot i b).breaks j = if j = i then none else s.breaks j := setSlot_breaks ..

/-- Giving up a breakpoint that is not armed writes nothing. -/
theorem freeSlot_data_of_disabled (s : SwState) (i : Fin 16) {b : SwBreakpoint}
    (hb : b.enabled = false) : (s.freeSlot i b).memory.data = s.memory.data := by
  simp [freeSlot, SwBreakpoint.setEnabled_noop _ hb]

theorem remove_breaksPaused {s s' : SwState} (hs : s.TableInv) {addr : Addr} {internal r : Bool}
    (h : s.removeSwBreakpoint addr internal = (s', r)) : s'.breaksPaused = s.breaksPaused := by
  cases remove_outcome hs h <;> rfl

theorem remove_tableInv {s s' : SwState} (hs : s.TableInv) {addr : Addr} {internal r : Bool}
    (h : s.removeSwBreakpoint addr internal = (s', r)) : s'.TableInv := by
  cases remove_outcome hs h with
  | absent => exact hs
  | kept i b hb ha ho =>
    refine hs.replace (fun j => setSlot_breaks ..) rfl ?_ ?_ ?_
    · rintro c hc
      obtain rfl := Option.some.inj hc
      exact fun j d hj hd => hs.others hb j d hj hd
    · rintro c hc
      obtain rfl := Option.some.inj hc
      simp [BreakpointReason.unwanted_set_false, ho]
    · rintro c hc
      obtain rfl := Option.some.inj hc
      exact hs.enabled i b hb
  | freed i b hb ha ho =>
    exact hs.replace (fun j => freeSlot_breaks ..) rfl nofun nofun nofun

/-! Pausing and unpausing. -/

@[simp] theorem setBreakpointsIgnored_breaksPaused (s : SwState) (ignored : Bool) :
    (s.setBreakpointsIgnored ignored).breaksPaused = ignored := by
  refine sweep_induction (fun _ (t : SwState) => t.breaksPaused = ignored) rfl ?_
  intro i t ht
  unfold ignoreSlot
  split <;> simpa using ht

theorem ignoreSlot_breaks (ignored : Bool) (s : SwState) (i j : Fin 16) :
    (ignoreSlot ignored s i).breaks j =
      if j = i then (s.breaks i).map fun b => { b with enabled := !ignored } else s.breaks j := by
  cases hb : s.breaks i with
  | none =>
    by_cases hj : j = i
    · simp [ignoreSlot, hb, hj]
    · simp [ignoreSlot, hb, hj]
  | some b => simp [ignoreSlot, hb, setSlot, Function.update_apply]

/-- Slots already visited have been switched, the rest are as they were. -/
private theorem ignore_sweep (s : SwState) (ignored : Bool) (Q : ℕ → CodeMemory → Prop)
    (h0 : Q 0 s.memory)
    (hnone : ∀ (i : Fin 16) m, s.breaks i = none → Q i.val m → Q (i.val + 1) m)
    (hsome : ∀ (i : Fin 16) b m, s.breaks i = some b → Q i.val m →
      Q (i.val + 1) ((b.setEnabled (!ignored) m).2.syncInstruction b.cacheTarget)) :
    (∀ j, (s.setBreakpointsIgnored ignored).breaks j =
      (s.breaks j).map fun b => { b with enabled := !ignored }) ∧
    Q 16 (s.setBreakpointsIgnored ignored).memory := by
  have h := sweep_induction (f := ignoreSlot ignored) (s := { s with breaksPaused := ignored })
    (fun k t => (∀ j : Fin 16, t.breaks j =
        if j.val < k then (s.breaks j).map fun b => { b with enabled := !ignored }
        else s.breaks j) ∧ Q k t.memory) ⟨by simp, h0⟩ (by
      rintro i t ⟨hbreaks, hQ⟩
      have hi : t.breaks i = s.breaks i := by simpa using hbreaks i
      refine ⟨?_, ?_⟩
      · intro j
        rw [ignoreSlot_breaks, hbreaks j, hi]
        by_cases hj : j = i
        · subst hj
          simp
        · have hne : j.val ≠ i.val := fun hv => hj (Fin.ext hv)
          have hiff : j.val < i.val + 1 ↔ j.val < i.val := by omega
          simp [hj, hiff]
      · cases hb : s.breaks i with
        | none => simpa [ignoreSlot, hi, hb] using hnone i _ hb hQ
        | some b => simpa [ignoreSlot, hi, hb, SwBreakpoint.cacheTarget] using hsome i b _ hb hQ)
  refine ⟨fun j => ?_, h.2⟩
  simpa [setBreakpointsIgnored] using h.1 j

theorem setBreakpointsIgnored_breaks (s : SwState) (ignored : Bool) (j : Fin 16) :
    (s.setBreakpointsIgnored ignored).breaks j =
      (s.breaks j).map fun b => { b with enabled := !ignored } :=
  (ignore_sweep s ignored (fun _ _ => True) trivial (fun _ _ _ _ => trivial)
    (fun _ _ _ _ _ => trivial)).1 j

theorem setBreakpointsIgnored_of_some {s : SwState} {j : Fin 16} {b : SwBreakpoint}
    (ignored : Bool) (h : s.breaks j = some b) :
    (s.setBreakpointsIgnored ignored).breaks j = some { b with enabled := !ignored } := by
  rw [setBreakpointsIgnored_breaks, h]
  rfl

theorem setBreakpointsIgnored_of_none {s : SwState} {j : Fin 16} (ignored : Bool)
    (h : s.breaks j = none) : (s.setBreakpointsIgnored ignored).breaks j = none := by
  rw [setBreakpointsIgnored_breaks, h]
  rfl

/-- Loop rule for the memory: `Q k` holds once the first `k` slots were switched. -/
theorem setBreakpointsIgnored_memory (s : SwState) (ignored : Bool) (Q : ℕ → CodeMemory → Prop)
    (h0 : Q 0 s.memory)
    (hnone : ∀ (i : Fin 16) m, s.breaks i = none → Q i.val m → Q (i.val + 1) m)
    (hsome : ∀ (i : Fin 16) b m, s.breaks i = some b → Q i.val m →
      Q (i.val + 1) ((b.setEnabled (!ignored) m).2.syncInstruction b.cacheTarget)) :
    Q 16 (s.setBreakpointsIgnored ignored).memory :=
  (ignore_sweep s ignored Q h0 hnone hsome).2

/-- A slot after the switch, seen from before it. -/
theorem setBreakpointsIgnored_some {s : SwState} {ignored : Bool} {j : Fin 16}
    {c : SwBreakpoint} (h : (s.setBreakpointsIgnored ignored).breaks j = some c) :
    ∃ b, s.breaks j = some b ∧ c = { b with enabled := !ignored } := by
  rw [setBreakpointsIgnored_breaks, Option.map_eq_some_iff] at h
  obtain ⟨b, hb, rfl⟩ := h
  exact ⟨b, hb, rfl⟩

theorem setBreakpointsIgnored_tableInv {s : SwState} (hs : s.TableInv) (ignored : Bool) :
    (s.setBreakpointsIgnored ignored).TableInv where
  distinct := by
    intro i j b c hb hc hbc
    obtain ⟨b', hb', rfl⟩ := setBreakpointsIgnored_some hb
    obtain ⟨c', hc', rfl⟩ := setBreakpointsIgnored_some hc
    exact hs.distinct i j b' c' hb' hc' hbc
  wanted := by
    intro i b hb
    obtain ⟨b', hb', rfl⟩ := setBreakpointsIgnored_some hb
    exact hs.wanted i b' hb'
  enabled := by
    intro i b hb
    obtain ⟨b', hb', rfl⟩ := setBreakpointsIgnored_some hb
    simp

end V5gdb.SwState
