import V5gdb.BreakpointTable

/-!
How patched memory relates to the memory underneath.
`BackedOn R M` says that on the region `R` the backups agree with the reference
memory `M`, and that memory differs from `M` only under armed breakpoints.
Pausing therefore brings `M` back on `R`, in whatever order the slots are
visited and however their ranges overlap. The region is everything for runs in
which nobody else writes, and the written range after a write by the host.
-/
namespace V5gdb.SwState

open ByteMemory

structure BackedOn (R : Addr → Prop) (M : Mem 32) (s : SwState) : Prop where
  backup : ∀ i b, s.breaks i = some b → ∀ x, R x →
    write M b.instrAddr b.instrBackup.bytes x = M x
  patched : ∀ x, R x → s.memory.data x ≠ M x →
    ∃ i b, s.breaks i = some b ∧ b.enabled = true ∧ Within b.instrAddr b.bkptInstr.size x

def DisjointRanges (s : SwState) : Prop :=
  ∀ i j b c, i ≠ j → s.breaks i = some b → s.breaks j = some c →
    Disjoint b.instrAddr b.instrBackup.size c.instrAddr c.instrBackup.size

def Planted (s : SwState) : Prop :=
  ∀ i b, s.breaks i = some b →
    read s.memory.data b.instrAddr b.bkptInstr.size = b.bkptInstr.bytes

variable {R : Addr → Prop} {M : Mem 32} {s : SwState}

/-- While paused nothing is armed, so the region shows the reference memory. -/
theorem BackedOn.data_of_paused (hb : s.BackedOn R M) (hs : s.TableInv)
    (hp : s.breaksPaused = true) {x : Addr} (hx : R x) : s.memory.data x = M x := by
  by_contra hne
  obtain ⟨i, b, hi, he, _⟩ := hb.patched x hx hne
  have hdis := hs.enabled i b hi
  simp [hp, he] at hdis

theorem backedOn_of_disabled
    (hbackup : ∀ i b, s.breaks i = some b → ∀ x, R x →
      write M b.instrAddr b.instrBackup.bytes x = M x)
    (hdata : ∀ x, R x → s.memory.data x = M x) : s.BackedOn R M where
  backup := hbackup
  patched := fun x hx hne => absurd (hdata x hx) hne

/-- A backup taken where memory shows `M` agrees with `M`. -/
theorem backup_of_read {m : Mem 32} {addr : Addr} {thumb internal : Bool} {b : SwBreakpoint}
    (h : SwBreakpoint.new m addr thumb internal = .ok b) (hm : ∀ x, R x → m x = M x)
    {x : Addr} (hx : R x) : write M b.instrAddr b.instrBackup.bytes x = M x := by
  obtain ⟨_, rfl, _, hread⟩ := SwBreakpoint.new_spec h
  rw [(Instruction.read_spec hread).2.2]
  by_cases hin : Within b.instrAddr b.instrBackup.size x
  · rw [write_read_of_within M m hin, hm x hx]
  · exact write_read_of_not_within M m hin

/-- Slots that are still to be visited, from `k` on, and are armed at `x`. -/
def Pending (s : SwState) (k : ℕ) (x : Addr) : Prop :=
  ∃ i b, k ≤ i.val ∧ s.breaks i = some b ∧ b.enabled = true ∧
    Within b.instrAddr b.bkptInstr.size x

theorem Pending.next {x : Addr} {i : Fin 16} (h : s.Pending i.val x)
    (hi : ∀ b, s.breaks i = some b → b.enabled = true → ¬Within b.instrAddr b.bkptInstr.size x) :
    s.Pending (i.val + 1) x := by
  obtain ⟨j, b, hij, hb, he, hin⟩ := h
  have hval : j.val ≠ i.val := by
    intro hv
    obtain rfl : j = i := Fin.ext hv
    exact hi b hb he hin
  exact ⟨j, b, by omega, hb, he, hin⟩

/-- Pausing restores the region: each visit undoes the patch of its slot, and
writes nothing else than `M` there. -/
theorem pause_backedOn (hb : s.BackedOn R M) : (s.setBreakpointsIgnored true).BackedOn R M := by
  apply backedOn_of_disabled
  · intro i c hc
    obtain ⟨b, hi, rfl⟩ := setBreakpointsIgnored_some hc
    exact hb.backup i b hi
  · -- what still differs lies under an armed slot that is yet to be visited
    have hloop := setBreakpointsIgnored_memory s true
      (fun k m => ∀ x, R x → m.data x ≠ M x → s.Pending k x)
      (by
        intro x hx hne
        obtain ⟨i, b, hi, he, hin⟩ := hb.patched x hx hne
        exact ⟨i, b, Nat.zero_le _, hi, he, hin⟩)
      (by
        intro i m hi hQ x hx hne
        refine (hQ x hx hne).next ?_
        intro b hb
        rw [hi] at hb
        cases hb)
      (by
        intro i b m hi hQ x hx hne
        rw [CodeMemory.syncInstruction_data] at hne
        cases he : b.enabled with
        | false =>
          rw [Bool.not_true, SwBreakpoint.setEnabled_noop m he] at hne
          refine (hQ x hx hne).next ?_
          intro c hc hec
          obtain rfl := Option.some.inj (hi.symm.trans hc)
          rw [he] at hec
          cases hec
        | true =>
          rw [Bool.not_true, SwBreakpoint.disable_data m he] at hne
          have hout : ¬ Within b.instrAddr b.instrBackup.bytes.length x := by
            intro hin
            apply hne
            rw [write_congr_within m.data M hin]
            exact hb.backup i b hi x hx
          rw [write_of_not_within m.data hout] at hne
          refine (hQ x hx hne).next ?_
          intro c hc _ hin
          obtain rfl := Option.some.inj (hi.symm.trans hc)
          rw [Instruction.length_bytes] at hout
          exact hout (hin.mono b.bkptInstr_size_le))
    intro x hx
    by_contra hne
    obtain ⟨i, b, hi, _⟩ := hloop x hx hne
    have := i.isLt
    omega

/-- Unpausing patches nothing beyond the `bkpt` encodings of the tracked slots. -/
theorem unpause_backedOn (hb : s.BackedOn R M) :
    (s.setBreakpointsIgnored false).BackedOn R M where
  backup := by
    intro i c hc
    obtain ⟨b, hi, rfl⟩ := setBreakpointsIgnored_some hc
    exact hb.backup i b hi
  patched := by
    have hloop := setBreakpointsIgnored_memory s false
      (fun _ m => ∀ x, R x → m.data x ≠ M x → ∃ i b, s.breaks i = some b ∧
        Within b.instrAddr b.bkptInstr.size x)
      (by
        intro x hx hne
        obtain ⟨i, b, hi, _, hin⟩ := hb.patched x hx hne
        exact ⟨i, b, hi, hin⟩)
      (fun _ _ _ hQ => hQ)
      (by
        intro i b m hi hQ x hx hne
        rw [CodeMemory.syncInstruction_data] at hne
        cases he : b.enabled with
        | true =>
          rw [Bool.not_false, SwBreakpoint.setEnabled_noop m he] at hne
          exact hQ x hx hne
        | false =>
          rw [Bool.not_false, SwBreakpoint.enable_data m he] at hne
          by_cases hin : Within b.instrAddr b.bkptInstr.bytes.length x
          · exact ⟨i, b, hi, by simpa using hin⟩
          · rw [write_of_not_within m.data hin] at hne
            exact hQ x hx hne)
    intro x hx hne
    obtain ⟨i, b, hi, hin⟩ := hloop x hx hne
    exact ⟨i, { b with enabled := true }, setBreakpointsIgnored_of_some false hi, rfl, hin⟩

theorem setBreakpointsIgnored_backedOn (hb : s.BackedOn R M) (ignored : Bool) :
    (s.setBreakpointsIgnored ignored).BackedOn R M := by
  cases ignored with
  | true => exact pause_backedOn hb
  | false => exact unpause_backedOn hb

theorem register_backedOn_of_paused {s' : SwState} {addr : Addr} {thumb internal : Bool}
    {r : Except BreakpointError Unit} (hs : s.TableInv) (hp : s.breaksPaused = true)
    (hb : s.BackedOn R M) (h : s.registerSwBreakpoint addr thumb internal = .ok (s', r)) :
    s'.BackedOn R M := by
  have hdata : ∀ x, R x → s.memory.data x = M x := fun x hx => hb.data_of_paused hs hp hx
  cases register_outcome h with
  | cannotWrite => exact hb
  | alreadyExists => exact hb
  | noSpace => exact hb
  | claimed i b hlow hi ha ho =>
    refine backedOn_of_disabled ?_ hdata
    intro j c hc
    rw [setSlot_breaks] at hc
    split_ifs at hc with hj
    · obtain rfl := Option.some.inj hc
      exact hb.backup i b hi
    · exact hb.backup j c hc
  | installed i b hlow habsent hfree hnew =>
    refine backedOn_of_disabled ?_ ?_
    · intro j c hc x hx
      rw [install_breaks _ _ _ _ (SwBreakpoint.new_spec hnew).1] at hc
      split_ifs at hc with hj
      · obtain rfl := Option.some.inj hc
        exact backup_of_read hnew hdata hx
      · exact hb.backup j c hc x hx
    · intro x hx
      rw [install_memory_of_paused i b hp]
      exact hdata x hx

/-- Registering into an empty table while breakpoints are live. -/
theorem register_backedOn_of_empty {m : CodeMemory} {s' : SwState} {addr : Addr}
    {thumb internal : Bool} {r : Except BreakpointError Unit}
    (h : (empty m).registerSwBreakpoint addr thumb internal = .ok (s', r)) :
    s'.BackedOn R m.data := by
  have hstart : (empty m).BackedOn R m.data :=
    backedOn_of_disabled (fun i b hb => by cases hb) (fun _ _ => rfl)
  cases register_outcome h with
  | cannotWrite => exact hstart
  | alreadyExists => exact hstart
  | noSpace => exact hstart
  | claimed i b hlow hi => cases hi
  | installed i b hlow habsent hfree hnew =>
    have hdis := (SwBreakpoint.new_spec hnew).1
    have hslot : ((empty m).install i b).breaks i = some { b with enabled := true } := by
      rw [install_breaks _ _ _ _ hdis, if_pos rfl]
      rfl
    constructor
    · intro j c hc x hx
      rw [install_breaks _ _ _ _ hdis] at hc
      split_ifs at hc with hj
      · obtain rfl := Option.some.inj hc
        exact backup_of_read hnew (fun _ _ => rfl) hx
      · cases hc
    · intro x _ hne
      rw [install_data_of_unpaused i rfl hdis] at hne
      refine ⟨i, _, hslot, rfl, ?_⟩
      by_contra hout
      refine hne (write_of_not_within _ ?_)
      rw [Instruction.length_bytes]
      exact hout

theorem remove_backedOn_of_paused {s' : SwState} {addr : Addr} {internal r : Bool}
    (hs : s.TableInv) (hp : s.breaksPaused = true) (hb : s.BackedOn R M)
    (h : s.removeSwBreakpoint addr internal = (s', r)) : s'.BackedOn R M := by
  have hdata : ∀ x, R x → s.memory.data x = M x := fun x hx => hb.data_of_paused hs hp hx
  cases remove_outcome hs h with
  | absent => exact hb
  | kept i b hi ha ho =>
    refine backedOn_of_disabled ?_ hdata
    intro j c hc
    rw [setSlot_breaks] at hc
    split_ifs at hc with hj
    · obtain rfl := Option.some.inj hc
      exact hb.backup i b hi
    · exact hb.backup j c hc
  | freed i b hi ha ho =>
    have hdis : b.enabled = false := by simpa [hp] using hs.enabled i b hi
    refine backedOn_of_disabled ?_ ?_
    · intro j c hc
      rw [freeSlot_breaks] at hc
      split_ifs at hc with hj
      exact hb.backup j c hc
    · intro x hx
      rw [freeSlot_data_of_disabled s i hdis]
      exact hdata x hx

/-! Planting. -/

theorem DisjointRanges.bkpt (h : s.DisjointRanges) {i j : Fin 16} {b c : SwBreakpoint}
    (hij : i ≠ j) (hb : s.breaks i = some b) (hc : s.breaks j = some c) :
    Disjoint b.instrAddr b.bkptInstr.size c.instrAddr c.bkptInstr.size := fun x hx hx' =>
  h i j b c hij hb hc x (hx.mono b.bkptInstr_size_le) (hx'.mono c.bkptInstr_size_le)

theorem disjointRanges_setBreakpointsIgnored (ignored : Bool)
    (h : (s.setBreakpointsIgnored ignored).DisjointRanges) : s.DisjointRanges := by
  intro i j b c hij hb hc
  exact h i j { b with enabled := !ignored } { c with enabled := !ignored } hij
    (setBreakpointsIgnored_of_some ignored hb) (setBreakpointsIgnored_of_some ignored hc)

theorem bkptInstr_size_le_four (b : SwBreakpoint) : b.bkptInstr.size ≤ 2 ^ 32 :=
  Nat.le_trans b.bkptInstr.size_le (by decide)

/-- Unpausing plants every `bkpt`; disjoint ranges keep the later ones off the earlier. -/
theorem unpause_planted (hs : s.TableInv) (hp : s.breaksPaused = true)
    (hdisj : s.DisjointRanges) : (s.setBreakpointsIgnored false).Planted := by
  have hloop := setBreakpointsIgnored_memory s false
    (fun k m => ∀ i b, i.val < k → s.breaks i = some b →
      read m.data b.instrAddr b.bkptInstr.size = b.bkptInstr.bytes)
    (by
      intro i b hi
      omega)
    (by
      intro i m hi hQ j b hj hb
      have hji : j ≠ i := by
        rintro rfl
        rw [hi] at hb
        cases hb
      have hval : j.val ≠ i.val := fun hv => hji (Fin.ext hv)
      exact hQ j b (by omega) hb)
    (by
      intro i b m hi hQ j c hj hc
      have hdis : b.enabled = false := by simpa [hp] using hs.enabled i b hi
      rw [CodeMemory.syncInstruction_data, Bool.not_false, SwBreakpoint.enable_data m hdis]
      by_cases hji : j = i
      · subst hji
        rw [hi] at hc
        obtain rfl := Option.some.inj hc
        have hlen : b.bkptInstr.bytes.length ≤ 2 ^ 32 := by
          rw [Instruction.length_bytes]
          exact bkptInstr_size_le_four b
        simpa using read_write_self m.data b.instrAddr hlen
      · have hval : j.val ≠ i.val := fun hv => hji (Fin.ext hv)
        have hbc := hdisj.bkpt hji hc hi
        rw [← b.bkptInstr.length_bytes] at hbc
        rw [read_write_of_disjoint m.data (bkptInstr_size_le_four c) hbc]
        exact hQ j c (by omega) hc)
  intro i c hc
  obtain ⟨b, hb, rfl⟩ := setBreakpointsIgnored_some hc
  exact hloop i b i.isLt hb

end V5gdb.SwState
