import V5gdb.BreakpointRuns
import V5gdb.PlacedBreakpoints

/-!
Instruction fetches see the breakpoints that were patched.
A `bkpt` lies in one cache line, so bringing up to date the line of its address is
enough to arm it. The backup of a long Thumb instruction may reach into the next
line, which is not brought up to date; what it writes there is already there,
unless another armed breakpoint has patched it, and then that one is visited later
and its own line is brought up to date.
-/
namespace V5gdb

open ByteMemory Transitions

theorem sameLine_of_within {a x : Addr} {thumb : Bool} (hal : Instruction.AlignedFor thumb a)
    (h : Within a (if thumb then 2 else 4) x) : SameLine x a := by
  cases thumb with
  | false =>
    simp only [Instruction.AlignedFor, Within, distance, SameLine, Bool.false_eq_true,
      if_false] at *
    bv_omega
  | true =>
    simp only [Instruction.AlignedFor, Within, distance, SameLine, if_true] at *
    bv_omega

/-- A `bkpt` never crosses a cache line. -/
theorem SwBreakpoint.WellPlaced.sameLine {b : SwBreakpoint} (h : b.WellPlaced) {x : Addr}
    (hx : Within b.instrAddr b.bkptInstr.size x) : SameLine x b.instrAddr := by
  apply sameLine_of_within h.aligned
  cases hthumb : b.instrBackup.isThumb <;>
    simpa [bkptInstr, hthumb, thumbInstr, armInstr, Instruction.size] using hx

namespace SwState

def TrackedLine (s : SwState) (x : Addr) : Prop :=
  ∃ i b, s.breaks i = some b ∧ SameLine x b.instrAddr

variable {s s' : SwState} {M : Mem 32} {x : Addr}

theorem setEnabled_fetch (b : SwBreakpoint) (enabled : Bool) (m : CodeMemory) :
    (b.setEnabled enabled m).2.fetch = m.fetch := by
  by_cases he : b.enabled = enabled
  · rw [SwBreakpoint.setEnabled_noop m he]
  · cases enabled <;> simp [SwBreakpoint.setEnabled, he, Instruction.writeTo, CodeMemory.store]

theorem trackedLine_setBreakpointsIgnored (ignored : Bool) :
    (s.setBreakpointsIgnored ignored).TrackedLine x ↔ s.TrackedLine x := by
  constructor
  · rintro ⟨i, c, hc, hline⟩
    obtain ⟨b, hb, rfl⟩ := setBreakpointsIgnored_some hc
    exact ⟨i, b, hb, hline⟩
  · rintro ⟨i, b, hb, hline⟩
    exact ⟨i, { b with enabled := !ignored }, setBreakpointsIgnored_of_some ignored hb, hline⟩

/-- Arming leaves a memory alone but for the line of its breakpoint. -/
theorem arm_of_not_sameLine {b : SwBreakpoint} (hb : b.WellPlaced) (m : CodeMemory)
    (hx : ¬SameLine x b.instrAddr) :
    ((b.setEnabled true m).2.syncInstruction b.cacheTarget).data x = m.data x ∧
      ((b.setEnabled true m).2.syncInstruction b.cacheTarget).fetch x = m.fetch x := by
  rw [SwBreakpoint.cacheTarget, CodeMemory.syncInstruction_data,
    CodeMemory.fetch_sync_of_not_sameLine hx, setEnabled_fetch]
  refine ⟨?_, rfl⟩
  cases he : b.enabled with
  | true => rw [SwBreakpoint.setEnabled_noop m he]
  | false =>
    rw [SwBreakpoint.enable_data m he]
    apply write_of_not_within m.data
    rw [Instruction.length_bytes]
    exact fun hin => hx (hb.sameLine hin)

/-- Disarming writes the backup, and brings the line of the address up to date. -/
theorem disarm_spec {b : SwBreakpoint} (he : b.enabled = true) (m : CodeMemory) (x : Addr) :
    ((b.setEnabled false m).2.syncInstruction b.cacheTarget).data x =
        write m.data b.instrAddr b.instrBackup.bytes x ∧
      (SameLine x b.instrAddr →
        ((b.setEnabled false m).2.syncInstruction b.cacheTarget).FreshAt x) ∧
      (¬SameLine x b.instrAddr →
        ((b.setEnabled false m).2.syncInstruction b.cacheTarget).fetch x = m.fetch x) := by
  refine ⟨?_, CodeMemory.freshAt_sync_of_sameLine, ?_⟩
  · rw [CodeMemory.syncInstruction_data, SwBreakpoint.disable_data m he]
  · intro hline
    rw [SwBreakpoint.cacheTarget, CodeMemory.fetch_sync_of_not_sameLine hline, setEnabled_fetch]

/-- Unpausing brings the lines of the tracked breakpoints up to date, and leaves the
rest of memory as it is. -/
theorem unpause_lines (hplaced : s.AllPlaced) (x : Addr) :
    (s.TrackedLine x → (s.setBreakpointsIgnored false).memory.FreshAt x) ∧
      (¬s.TrackedLine x → (s.setBreakpointsIgnored false).memory.data x = s.memory.data x ∧
        (s.setBreakpointsIgnored false).memory.fetch x = s.memory.fetch x) := by
  have hloop := setBreakpointsIgnored_memory s false
    (fun k m => ((∃ i b, i.val < k ∧ s.breaks i = some b ∧ SameLine x b.instrAddr) →
        m.FreshAt x) ∧
      (¬s.TrackedLine x → m.data x = s.memory.data x ∧ m.fetch x = s.memory.fetch x))
    (by
      refine ⟨?_, fun _ => ⟨rfl, rfl⟩⟩
      rintro ⟨i, _, hi, _⟩
      omega)
    (by
      rintro i m hnone ⟨hfresh, hrest⟩
      refine ⟨?_, hrest⟩
      rintro ⟨j, b, hj, hb, hline⟩
      have hji : j ≠ i := by
        rintro rfl
        rw [hnone] at hb
        cases hb
      have hval : j.val ≠ i.val := fun hv => hji (Fin.ext hv)
      exact hfresh ⟨j, b, by omega, hb, hline⟩)
    (by
      rintro i b m hb ⟨hfresh, hrest⟩
      by_cases hline : SameLine x b.instrAddr
      · refine ⟨fun _ => CodeMemory.freshAt_sync_of_sameLine hline, ?_⟩
        exact fun hout => absurd ⟨i, b, hb, hline⟩ hout
      · obtain ⟨hdata, hfetch⟩ := arm_of_not_sameLine (hplaced i b hb) m hline
        rw [Bool.not_false]
        constructor
        · rintro ⟨j, c, hj, hc, hjline⟩
          have hji : j ≠ i := by
            rintro rfl
            obtain rfl := Option.some.inj (hb.symm.trans hc)
            exact hline hjline
          have hval : j.val ≠ i.val := fun hv => hji (Fin.ext hv)
          have hbefore := hfresh ⟨j, c, by omega, hc, hjline⟩
          exact hfetch.trans (hbefore.trans hdata.symm)
        · intro hout
          rw [hdata, hfetch]
          exact hrest hout)
  refine ⟨?_, hloop.2⟩
  rintro ⟨i, b, hb, hline⟩
  exact hloop.1 ⟨i, b, i.isLt, hb, hline⟩

theorem unpause_coherent (hplaced : s.AllPlaced) (h : s.memory.Coherent) :
    (s.setBreakpointsIgnored false).memory.Coherent := by
  intro x
  obtain ⟨htracked, hrest⟩ := unpause_lines hplaced x
  by_cases hline : s.TrackedLine x
  · exact htracked hline
  · obtain ⟨hdata, hfetch⟩ := hrest hline
    exact hfetch.trans ((h x).trans hdata.symm)

/-- A byte that is not fetched as it is loaded, or not what memory holds without
breakpoints. -/
def Suspect (M : Mem 32) (m : CodeMemory) (x : Addr) : Prop := m.data x ≠ M x ∨ ¬m.FreshAt x

/-- Disarming makes no byte suspect, and those under the `bkpt` are suspect no more. -/
theorem suspect_before_disarm {b : SwBreakpoint} {m : CodeMemory} (hplaced : b.WellPlaced)
    (he : b.enabled = true)
    (hbackup : Within b.instrAddr b.instrBackup.bytes.length x →
      write m.data b.instrAddr b.instrBackup.bytes x = M x)
    (hx : Suspect M ((b.setEnabled false m).2.syncInstruction b.cacheTarget) x) :
    Suspect M m x ∧ ¬Within b.instrAddr b.bkptInstr.size x := by
  obtain ⟨hdata, hfresh, hfetch⟩ := disarm_spec he m x
  rw [Suspect, CodeMemory.FreshAt, hdata] at hx
  by_cases hin : Within b.instrAddr b.instrBackup.bytes.length x
  · -- the backup is what memory holds without breakpoints
    have hM := hbackup hin
    have hstale := hx.resolve_left (not_not.mpr hM)
    have hline : ¬SameLine x b.instrAddr := fun hline => hstale ((hfresh hline).trans hdata)
    rw [hfetch hline, hM] at hstale
    refine ⟨?_, fun hbkpt => hline (hplaced.sameLine hbkpt)⟩
    by_cases hsame : m.data x = M x
    · exact .inr fun hbefore => hstale (hbefore.trans hsame)
    · exact .inl hsame
  · have hkept : write m.data b.instrAddr b.instrBackup.bytes x = m.data x :=
      write_of_not_within m.data hin
    rw [hkept] at hx
    constructor
    · refine hx.imp_right ?_
      intro hstale hbefore
      refine hstale ?_
      by_cases hline : SameLine x b.instrAddr
      · exact (hfresh hline).trans (hdata.trans hkept)
      · exact (hfetch hline).trans hbefore
    · intro hbkpt
      rw [Instruction.length_bytes] at hin
      exact hin (hbkpt.mono b.bkptInstr_size_le)

/-- Pausing: a suspect byte lies under an armed breakpoint whose turn is yet to come. -/
theorem pause_coherent (hplaced : s.AllPlaced) (hbacked : s.BackedOn (fun _ => True) M)
    (h : s.memory.Coherent) : (s.setBreakpointsIgnored true).memory.Coherent := by
  have hloop := setBreakpointsIgnored_memory s true
    (fun k m => ∀ x, Suspect M m x → s.Pending k x)
    (by
      intro x hx
      obtain ⟨i, b, hb, he, hin⟩ :=
        hbacked.patched x trivial (hx.resolve_right (not_not.mpr (h x)))
      exact ⟨i, b, Nat.zero_le _, hb, he, hin⟩)
    (by
      intro i m hnone hQ x hx
      refine (hQ x hx).next ?_
      intro b hb
      rw [hnone] at hb
      cases hb)
    (by
      intro i b m hb hQ x hx
      rw [Bool.not_true] at hx
      cases he : b.enabled with
      | false =>
        rw [SwBreakpoint.setEnabled_noop m he, Suspect, CodeMemory.syncInstruction_data] at hx
        have hbefore : Suspect M m x :=
          hx.imp_right fun hstale hfresh => hstale (hfresh.sync _)
        refine (hQ x hbefore).next ?_
        intro c hc hce
        obtain rfl := Option.some.inj (hb.symm.trans hc)
        rw [he] at hce
        cases hce
      | true =>
        have hbackup : Within b.instrAddr b.instrBackup.bytes.length x →
            write m.data b.instrAddr b.instrBackup.bytes x = M x :=
          fun hin => (write_congr_within m.data M hin).trans (hbacked.backup i b hb x trivial)
        obtain ⟨hbefore, hout⟩ := suspect_before_disarm (hplaced i b hb) he hbackup hx
        refine (hQ x hbefore).next ?_
        intro c hc _
        obtain rfl := Option.some.inj (hb.symm.trans hc)
        exact hout)
  intro x
  by_contra hstale
  obtain ⟨i, _, hi, _⟩ := hloop x (.inr hstale)
  have := i.isLt
  omega

theorem pause_or_unpause_coherent (hplaced : s.AllPlaced)
    (hbacked : s.BackedOn (fun _ => True) M) (h : s.memory.Coherent) (ignored : Bool) :
    (s.setBreakpointsIgnored ignored).memory.Coherent := by
  cases ignored with
  | true => exact pause_coherent hplaced hbacked h
  | false => exact unpause_coherent hplaced h

theorem install_coherent {b : SwBreakpoint} (i : Fin 16) (hb : b.WellPlaced)
    (h : s.memory.Coherent) : (s.install i b).memory.Coherent := by
  cases hp : s.breaksPaused with
  | true =>
    rw [install_memory_of_paused i b hp]
    exact h
  | false =>
    have hmem : (s.install i b).memory =
        (b.setEnabled true s.memory).2.syncInstruction b.cacheTarget := by
      simp [install, hp, SwBreakpoint.cacheTarget]
    rw [hmem]
    intro x
    by_cases hline : SameLine x b.instrAddr
    · exact CodeMemory.freshAt_sync_of_sameLine hline
    · obtain ⟨hdata, hfetch⟩ := arm_of_not_sameLine hb s.memory hline
      exact hfetch.trans ((h x).trans hdata.symm)

/-- A registration arms one breakpoint at most, and brings its line up to date. -/
theorem register_coherent {addr : Addr} {thumb internal : Bool}
    {r : Except BreakpointError Unit} (h : s.memory.Coherent)
    (hreg : s.registerSwBreakpoint addr thumb internal = .ok (s', r)) : s'.memory.Coherent := by
  cases register_outcome hreg with
  | cannotWrite => exact h
  | alreadyExists => exact h
  | noSpace => exact h
  | claimed => exact h
  | installed i b hlow habsent hfree hnew =>
    exact install_coherent i (wellPlaced_of_new hlow hnew) h

theorem remove_coherent_of_paused {addr : Addr} {internal r : Bool} (hs : s.TableInv)
    (hp : s.breaksPaused = true) (h : s.memory.Coherent)
    (hrem : s.removeSwBreakpoint addr internal = (s', r)) : s'.memory.Coherent := by
  cases remove_outcome hs hrem with
  | absent => exact h
  | kept => exact h
  | freed i b hb =>
    have hdis : b.enabled = false := by simpa [hp] using hs.enabled i b hb
    intro x
    rw [freeSlot, SwBreakpoint.setEnabled_noop s.memory hdis]
    exact (h x).sync _

/-- The first breakpoint may be registered while breakpoints are live; else the table
is only changed while they are paused. -/
def PatchesSafely (s : SwState) : TableCall → Prop
  | .register _ _ _ => s.breaksPaused = true ∨ ∀ i, s.breaks i = none
  | .remove _ _ => s.breaksPaused = true
  | .setIgnored _ => True

def PatchStep (s : SwState) (e : TableCall × TableReply) (s' : SwState) : Prop :=
  e.1.Aligned ∧ s.PatchesSafely e.1 ∧ CallStep applyCall s e s'

structure PatchInv (M : Mem 32) (s : SwState) : Prop where
  table : s.TableInv
  placed : s.AllPlaced
  backed : s.BackedOn (fun _ => True) M
  coherent : s.memory.Coherent

theorem empty_patchInv {m : CodeMemory} (h : m.data = m.fetch) : (empty m).PatchInv m.data where
  table := empty_tableInv m
  placed := empty_allPlaced m
  backed := backedOn_of_disabled (fun i b hb => by cases hb) (fun _ _ => rfl)
  coherent := fun x => (congrFun h x).symm

/-- Where nothing is tracked, memory is what it is without breakpoints. -/
theorem BackedOn.data_of_untracked (h : s.BackedOn (fun _ => True) M)
    (hnone : ∀ i, s.breaks i = none) : s.memory.data = M := by
  funext x
  by_contra hne
  obtain ⟨i, b, hb, _⟩ := h.patched x trivial hne
  rw [hnone i] at hb
  cases hb

theorem register_backedOn_of_untracked {addr : Addr} {thumb internal : Bool}
    {r : Except BreakpointError Unit} (hb : s.BackedOn (fun _ => True) M)
    (hp : s.breaksPaused = false) (hnone : ∀ i, s.breaks i = none)
    (hreg : s.registerSwBreakpoint addr thumb internal = .ok (s', r)) :
    s'.BackedOn (fun _ => True) M := by
  have hempty : s = empty s.memory := by
    obtain ⟨memory, breaksPaused, breaks⟩ := s
    obtain rfl : breaksPaused = false := hp
    obtain rfl : breaks = fun _ => none := funext hnone
    rfl
  rw [hempty] at hreg
  rw [← hb.data_of_untracked hnone]
  exact register_backedOn_of_empty hreg

theorem PatchStep.patchInv {e : TableCall × TableReply} (hs : s.PatchInv M)
    (h : PatchStep s e s') : s'.PatchInv M := by
  obtain ⟨c, r⟩ := e
  obtain ⟨hal, hsafe, happ⟩ := h
  have htable : s'.TableInv := applyCall_tableInv hs.table happ
  cases c with
  | register addr thumb internal =>
    obtain ⟨r', hreg, _⟩ := applyCall_register happ
    refine ⟨htable, hs.placed.register hreg, ?_, register_coherent hs.coherent hreg⟩
    by_cases hp : s.breaksPaused = true
    · exact register_backedOn_of_paused hs.table hp hs.backed hreg
    · have hrun : s.breaksPaused = false := by simpa using hp
      exact register_backedOn_of_untracked hs.backed hrun (hsafe.resolve_left hp) hreg
  | remove addr internal =>
    have hp : s.breaksPaused = true := hsafe
    obtain ⟨r', hrem, _⟩ := applyCall_remove happ
    exact ⟨htable, hs.placed.remove hs.table hrem,
      remove_backedOn_of_paused hs.table hp hs.backed hrem,
      remove_coherent_of_paused hs.table hp hs.coherent hrem⟩
  | setIgnored ignored =>
    obtain ⟨rfl, _⟩ := applyCall_setIgnored happ
    exact ⟨htable, hs.placed.pause ignored, setBreakpointsIgnored_backedOn hs.backed ignored,
      pause_or_unpause_coherent hs.placed hs.backed hs.coherent ignored⟩

/-- After every call of such a run, all of memory is fetched as it is loaded. -/
theorem fetches_coherent (m : CodeMemory) (hm : m.data = m.fetch)
    (es : List (TableCall × TableReply)) (s : SwState) (hrun : Run PatchStep (empty m) es s) :
    s.memory.data = s.memory.fetch := by
  have hinv : s.PatchInv m.data :=
    hrun.invariant (P := fun _ t => t.PatchInv m.data) (empty_patchInv hm)
      fun _ _ _ _ ht hstep => hstep.patchInv ht
  exact hinv.coherent.fetch_eq.symm

/-- The first breakpoint is on a long instruction that crosses a line, the second on
its other half. -/
theorem fetches_coherent_across_lines :
    ∃ (s : SwState) (r r' : TableReply),
      Run PatchStep (empty ⟨fun _ => 0xF0, fun _ => 0xF0⟩)
        [(.register 0x0380001E true true, r), (.setIgnored true, .done),
          (.register 0x03800020 true false, r'), (.setIgnored false, .done)] s ∧
      s.memory.data = s.memory.fetch := by
  have hal : Instruction.AlignedFor true 0x0380001E := by decide
  have hal' : Instruction.AlignedFor true 0x03800020 := by decide
  obtain ⟨s₁, r, h₁⟩ := exists_applyCall (empty ⟨fun _ => 0xF0, fun _ => 0xF0⟩)
    (c := .register 0x0380001E true true) hal
  obtain ⟨s₂, r', h₂⟩ := exists_applyCall (s₁.setBreakpointsIgnored true)
    (c := .register 0x03800020 true false) hal'
  have hstep₁ : PatchStep (empty ⟨fun _ => 0xF0, fun _ => 0xF0⟩)
      (.register 0x0380001E true true, r) s₁ := ⟨hal, .inr fun _ => rfl, h₁⟩
  have hpause : PatchStep s₁ (.setIgnored true, .done) (s₁.setBreakpointsIgnored true) :=
    ⟨trivial, trivial, rfl⟩
  have hstep₂ : PatchStep (s₁.setBreakpointsIgnored true)
      (.register 0x03800020 true false, r') s₂ :=
    ⟨hal', .inl (setBreakpointsIgnored_breaksPaused s₁ true), h₂⟩
  have hresume : PatchStep s₂ (.setIgnored false, .done) (s₂.setBreakpointsIgnored false) :=
    ⟨trivial, trivial, rfl⟩
  have hrun := (((Run.single hstep₁).snoc hpause).snoc hstep₂).snoc hresume
  exact ⟨_, r, r', hrun, fetches_coherent _ rfl _ _ hrun⟩

end SwState
end V5gdb
