import V5gdb.CodeCoherence
import V5gdb.MemoryWords
import V5gdb.MemoryWrites

/-!
The instructions of a program under its breakpoints.
A program has its instructions at some addresses and its data elsewhere. As long as breakpoints
are placed on its instructions only, patching leaves its data alone, and what is fetched where an
instruction starts is either this instruction or the `bkpt` of a tracked breakpoint.
-/
namespace V5gdb

open ByteMemory LittleEndian Transitions

namespace Instruction

def isBkpt : Instruction → Bool
  | arm instr => instr &&& 0x0FF000F0 = 0x01200070
  | thumb16 instr => instr &&& 0xFF00 = 0xBE00
  | thumb32 _ _ => false

theorem size_pos (instr : Instruction) : 0 < instr.size := by
  cases instr <;> simp [size]

/-- An instruction is read from the bytes that it takes up. -/
theorem read_of_same {m m' : Mem 32} {addr : Addr} {thumb : Bool} {instr : Instruction}
    (h : read m addr thumb = .ok instr)
    (hsame : ∀ x, Within addr instr.size x → m' x = m x) : read m' addr thumb = .ok instr := by
  cases thumb with
  | false =>
    simp only [read, Bool.false_eq_true, if_false] at h ⊢
    split_ifs at h ⊢
    obtain rfl := Except.ok.inj h
    have hbytes : ByteMemory.read m' addr 4 = ByteMemory.read m addr 4 :=
      ByteMemory.read_congr (by omega) hsame
    rw [hbytes]
  | true =>
    have hfirst : ∀ hw : instr.size ≥ 2, ByteMemory.read m' addr 2 = ByteMemory.read m addr 2 :=
      fun hw => ByteMemory.read_congr (by omega) fun x hx => hsame x (hx.mono hw)
    simp only [read, if_true] at h ⊢
    split_ifs at h with haligned hlong
    · obtain rfl := Except.ok.inj h
      have hsecond : ByteMemory.read m' (addr + 2) 2 = ByteMemory.read m (addr + 2) 2 :=
        ByteMemory.read_congr (by omega) fun x hx =>
          hsame x (@Within.of_add 32 addr x 2 2 4 (by omega) (by omega) hx)
      rw [hfirst (by simp [size]), hsecond, if_pos haligned, if_pos hlong]
    · obtain rfl := Except.ok.inj h
      rw [hfirst (by simp [size]), if_pos haligned, if_neg hlong]

end Instruction

/-- Where the bytes of a `bkpt` lie, it is read. -/
theorem SwBreakpoint.read_bkptInstr (b : SwBreakpoint) {m : Mem 32}
    (haligned : Instruction.AlignedFor b.instrBackup.isThumb b.instrAddr)
    (hbytes : read m b.instrAddr b.bkptInstr.size = b.bkptInstr.bytes) :
    Instruction.read m b.instrAddr b.instrBackup.isThumb = .ok b.bkptInstr := by
  cases hthumb : b.instrBackup.isThumb with
  | false =>
    rw [hthumb] at haligned
    have hmod : b.instrAddr.toNat % 4 = 0 := haligned
    simp only [bkptInstr, hthumb, Bool.false_eq_true, if_false, armInstr, Instruction.size,
      Instruction.bytes] at hbytes ⊢
    simp only [Instruction.read, Bool.false_eq_true, if_false, if_pos hmod, hbytes]
    rfl
  | true =>
    rw [hthumb] at haligned
    have hmod : b.instrAddr.toNat % 2 = 0 := haligned
    simp only [bkptInstr, hthumb, if_true, thumbInstr, Instruction.size,
      Instruction.bytes] at hbytes ⊢
    simp only [Instruction.read, if_true, if_pos hmod, hbytes]
    rfl

theorem SwBreakpoint.isBkpt_bkptInstr (b : SwBreakpoint) : b.bkptInstr.isBkpt = true := by
  cases hthumb : b.instrBackup.isThumb <;> simp only [bkptInstr, hthumb] <;> decide

/-- A switch of a breakpoint writes to its instruction. -/
theorem SwBreakpoint.setEnabled_data (b : SwBreakpoint) (enabled : Bool) (m : CodeMemory)
    {x : Addr} (hx : ¬Within b.instrAddr b.instrBackup.size x) :
    (b.setEnabled enabled m).2.data x = m.data x := by
  by_cases hsame : b.enabled = enabled
  · rw [setEnabled_noop m hsame]
  · cases enabled with
    | true =>
      rw [enable_data m (Bool.eq_false_of_not_eq_true hsame)]
      apply write_of_not_within m.data
      rw [Instruction.length_bytes]
      exact fun hin => hx (hin.mono b.bkptInstr_size_le)
    | false =>
      rw [disable_data m (Bool.eq_true_of_not_eq_false hsame)]
      apply write_of_not_within m.data
      rwa [Instruction.length_bytes]

/-- A program in memory: where instructions of it start, for which instruction set, and what
bytes it loads and stores. Its instructions do not overlap. -/
structure ProgramText (M : Mem 32) where
  Starts : Addr → Bool → Prop
  Data : Addr → Prop
  aligned : ∀ {a t}, Starts a t → Instruction.AlignedFor t a
  apart : ∀ {a b t u i j}, Starts a t → Starts b u → (a, t) ≠ (b, u) →
    Instruction.read M a t = .ok i → Instruction.read M b u = .ok j → Disjoint a i.size b j.size
  code : ∀ {a t i}, Starts a t → Instruction.read M a t = .ok i → ∀ x, Within a i.size x → ¬Data x

namespace ProgramText

variable {M : Mem 32} (T : ProgramText M)

/-- The text as it is stored and fetched: patched by the breakpoints that are tracked on it, and
up to date outside the data. -/
structure Patched (s : SwState) : Prop where
  table : s.TableInv
  placed : s.AllPlaced
  backed : s.BackedOn (fun x => ¬T.Data x) M
  fresh : ∀ x, ¬T.Data x → s.memory.FreshAt x
  tracked : ∀ i b, s.breaks i = some b → T.Starts b.instrAddr b.instrBackup.isThumb ∧
    Instruction.read M b.instrAddr b.instrBackup.isThumb = .ok b.instrBackup
  planted : s.breaksPaused = false → s.Planted

variable {T} {s s' : SwState} {addr : Addr} {thumb : Bool}

theorem Patched.code (h : T.Patched s) {i : Fin 16} {b : SwBreakpoint}
    (hb : s.breaks i = some b) {x : Addr} (hx : Within b.instrAddr b.instrBackup.size x) :
    ¬T.Data x :=
  T.code (h.tracked i b hb).1 (h.tracked i b hb).2 x hx

theorem Patched.disjointRanges (h : T.Patched s) : s.DisjointRanges := by
  intro i j b c hij hb hc
  apply T.apart (h.tracked i b hb).1 (h.tracked j c hc).1 _ (h.tracked i b hb).2
    (h.tracked j c hc).2
  intro heq
  exact hij (h.table.distinct i j b c hb hc (Prod.mk.inj heq).1)

/-- No data is patched. -/
theorem Patched.data_setBreakpointsIgnored (h : T.Patched s) (ignored : Bool) {x : Addr}
    (hx : T.Data x) : (s.setBreakpointsIgnored ignored).memory.data x = s.memory.data x := by
  apply SwState.setBreakpointsIgnored_memory s ignored (fun _ m => m.data x = s.memory.data x) rfl
  · exact fun _ _ _ hkept => hkept
  · intro i b m hb hkept
    rw [CodeMemory.syncInstruction_data, ← hkept]
    exact b.setEnabled_data _ m fun hin => h.code hb hin hx

/-- A byte outside the data that is suspect lies under a breakpoint that is still to be
disarmed. -/
theorem Patched.fresh_pause (h : T.Patched s) {x : Addr} (hx : ¬T.Data x) :
    (s.setBreakpointsIgnored true).memory.FreshAt x := by
  have hloop := SwState.setBreakpointsIgnored_memory s true
    (fun k m => SwState.Suspect M m x → s.Pending k x)
    (by
      intro hsuspect
      obtain ⟨i, b, hb, he, hin⟩ :=
        h.backed.patched x hx (hsuspect.resolve_right (not_not.mpr (h.fresh x hx)))
      exact ⟨i, b, Nat.zero_le _, hb, he, hin⟩)
    (by
      intro i m hnone hpending hsuspect
      apply (hpending hsuspect).next
      intro b hb
      rw [hnone] at hb
      cases hb)
    (by
      intro i b m hb hpending hsuspect
      rw [Bool.not_true] at hsuspect
      cases he : b.enabled with
      | false =>
        rw [SwBreakpoint.setEnabled_noop m he, SwState.Suspect,
          CodeMemory.syncInstruction_data] at hsuspect
        apply (hpending (hsuspect.imp_right fun hstale hfresh => hstale (hfresh.sync _))).next
        intro c hc hce
        obtain rfl := Option.some.inj (hb.symm.trans hc)
        rw [he] at hce
        cases hce
      | true =>
        have hbackup : Within b.instrAddr b.instrBackup.bytes.length x →
            write m.data b.instrAddr b.instrBackup.bytes x = M x :=
          fun hin => (write_congr_within m.data M hin).trans (h.backed.backup i b hb x hx)
        obtain ⟨hbefore, hout⟩ :=
          SwState.suspect_before_disarm (h.placed i b hb) he hbackup hsuspect
        apply (hpending hbefore).next
        intro c hc _
        obtain rfl := Option.some.inj (hb.symm.trans hc)
        exact hout)
  by_contra hstale
  obtain ⟨i, _, hi, _⟩ := hloop (.inr hstale)
  have := i.isLt
  omega

theorem Patched.fresh_unpause (h : T.Patched s) {x : Addr} (hx : ¬T.Data x) :
    (s.setBreakpointsIgnored false).memory.FreshAt x := by
  obtain ⟨htracked, hrest⟩ := SwState.unpause_lines h.placed x
  by_cases hline : s.TrackedLine x
  · exact htracked hline
  · obtain ⟨hdata, hfetch⟩ := hrest hline
    exact hfetch.trans ((h.fresh x hx).trans hdata.symm)

/-- A stop pauses the breakpoints that were live, and makes them live again. -/
theorem Patched.setBreakpointsIgnored (h : T.Patched s) {ignored : Bool}
    (hpaused : s.breaksPaused = !ignored) : T.Patched (s.setBreakpointsIgnored ignored) where
  table := SwState.setBreakpointsIgnored_tableInv h.table ignored
  placed := h.placed.pause ignored
  backed := SwState.setBreakpointsIgnored_backedOn h.backed ignored
  fresh := by
    intro x hx
    cases ignored with
    | true => exact h.fresh_pause hx
    | false => exact h.fresh_unpause hx
  tracked := by
    intro i c hc
    obtain ⟨b, hb, rfl⟩ := SwState.setBreakpointsIgnored_some hc
    exact h.tracked i b hb
  planted := by
    intro hlive
    rw [SwState.setBreakpointsIgnored_breaksPaused] at hlive
    subst hlive
    exact SwState.unpause_planted h.table hpaused h.disjointRanges

/-- Outside the data, memory is as it was without breakpoints while they are paused. -/
theorem Patched.data_of_paused (h : T.Patched s) (hpaused : s.breaksPaused = true) {x : Addr}
    (hx : ¬T.Data x) : s.memory.data x = M x := h.backed.data_of_paused h.table hpaused hx

/-- The calls of a stop that do not write memory. -/
theorem Patched.of_paused (h : T.Patched s) (hpaused : s'.breaksPaused = true)
    (htable : s'.TableInv) (hplaced : s'.AllPlaced)
    (hbacked : s'.BackedOn (fun x => ¬T.Data x) M) (hdata : s'.memory.data = s.memory.data)
    (hfetch : ∀ x, s.memory.FreshAt x → s'.memory.FreshAt x)
    (htracked : ∀ i b, s'.breaks i = some b → T.Starts b.instrAddr b.instrBackup.isThumb ∧
      Instruction.read M b.instrAddr b.instrBackup.isThumb = .ok b.instrBackup) :
    T.Patched s' ∧ s'.memory.data = s.memory.data := by
  refine ⟨⟨htable, hplaced, hbacked, fun x hx => hfetch x (h.fresh x hx), htracked, ?_⟩, hdata⟩
  intro hlive
  rw [hpaused] at hlive
  cases hlive

theorem Patched.tracked_setReason (h : T.Patched s) {i j : Fin 16} {b c : SwBreakpoint}
    (hb : s.breaks i = some b) {r : BreakpointReason}
    (hc : (s.setSlot i (some { b with reason := r })).breaks j = some c) :
    T.Starts c.instrAddr c.instrBackup.isThumb ∧
      Instruction.read M c.instrAddr c.instrBackup.isThumb = .ok c.instrBackup := by
  rw [SwState.setSlot_breaks] at hc
  split_ifs at hc with hji
  · obtain rfl := Option.some.inj hc
    exact h.tracked i b hb
  · exact h.tracked j c hc

theorem Patched.register (h : T.Patched s) (hpaused : s.breaksPaused = true)
    (hstarts : T.Starts addr thumb) {internal : Bool} {r : Except BreakpointError Unit}
    (hreg : s.registerSwBreakpoint addr thumb internal = .ok (s', r)) :
    T.Patched s' ∧ s'.memory.data = s.memory.data := by
  have hpaused' := (SwState.register_breaksPaused hreg).trans hpaused
  have htable := SwState.register_tableInv h.table hreg
  have hplaced := h.placed.register hreg
  have hbacked := SwState.register_backedOn_of_paused h.table hpaused h.backed hreg
  cases SwState.register_outcome hreg with
  | cannotWrite => exact ⟨h, rfl⟩
  | alreadyExists => exact ⟨h, rfl⟩
  | noSpace => exact ⟨h, rfl⟩
  | claimed i b _ hb =>
    exact h.of_paused hpaused' htable hplaced hbacked rfl (fun _ hfresh => hfresh)
      fun j c hc => h.tracked_setReason hb hc
  | installed i b _ _ hfree hnew =>
    have hmemory := SwState.install_memory_of_paused i b hpaused
    obtain ⟨hdisabled, rfl, _, hread⟩ := SwBreakpoint.new_spec hnew
    obtain ⟨_, hthumb, _⟩ := Instruction.read_spec hread
    subst hthumb
    obtain ⟨instr, htext⟩ := Instruction.exists_read M (T.aligned hstarts)
    have hcopy := Instruction.read_of_same htext fun x hx =>
      h.data_of_paused hpaused (T.code hstarts htext x hx)
    rw [← Except.ok.inj (hread.symm.trans hcopy)] at htext
    apply h.of_paused hpaused' htable hplaced hbacked (by rw [hmemory])
    · intro x hfresh
      rwa [hmemory]
    · intro j c hc
      rw [SwState.install_breaks _ _ _ _ hdisabled] at hc
      split_ifs at hc
      · obtain rfl := Option.some.inj hc
        exact ⟨hstarts, htext⟩
      · exact h.tracked j c hc

theorem Patched.remove (h : T.Patched s) (hpaused : s.breaksPaused = true) {internal r : Bool}
    (hrem : s.removeSwBreakpoint addr internal = (s', r)) :
    T.Patched s' ∧ s'.memory.data = s.memory.data := by
  have hpaused' := (SwState.remove_breaksPaused h.table hrem).trans hpaused
  have htable := SwState.remove_tableInv h.table hrem
  have hplaced := h.placed.remove h.table hrem
  have hbacked := SwState.remove_backedOn_of_paused h.table hpaused h.backed hrem
  cases SwState.remove_outcome h.table hrem with
  | absent => exact ⟨h, rfl⟩
  | kept i b hb =>
    exact h.of_paused hpaused' htable hplaced hbacked rfl (fun _ hfresh => hfresh)
      fun j c hc => h.tracked_setReason hb hc
  | freed i b hb =>
    have hdisabled : b.enabled = false := by simpa [hpaused] using h.table.enabled i b hb
    apply h.of_paused hpaused' htable hplaced hbacked
    · exact SwState.freeSlot_data_of_disabled s i hdisabled
    · intro x hfresh
      rw [SwState.freeSlot, SwBreakpoint.setEnabled_noop s.memory hdisabled]
      exact hfresh.sync _
    · intro j c hc
      rw [SwState.freeSlot_breaks] at hc
      split_ifs at hc
      exact h.tracked j c hc

/-- The first breakpoint is registered while nothing is tracked yet, and is live at once. -/
theorem patched_of_boot {memory : CodeMemory} {T : ProgramText memory.data}
    (hfresh : ∀ x, ¬T.Data x → memory.FreshAt x) (hstarts : T.Starts addr thumb)
    {internal : Bool} {r : Except BreakpointError Unit}
    (hreg : (SwState.empty memory).registerSwBreakpoint addr thumb internal = .ok (s, r)) :
    T.Patched s := by
  obtain ⟨htable, hbacked, hplanted⟩ := SwState.boot_stopInv hreg
  have hplaced := (SwState.empty_allPlaced memory).register hreg
  have hregion : s.BackedOn (fun x => ¬T.Data x) memory.data :=
    ⟨fun i b hb x _ => hbacked.backup i b hb x trivial, fun x _ => hbacked.patched x trivial⟩
  have hstart : T.Patched (SwState.empty memory) :=
    ⟨SwState.empty_tableInv memory, SwState.empty_allPlaced memory,
      SwState.backedOn_of_disabled (fun i b hb => by cases hb) (fun _ _ => rfl), hfresh,
      (fun i b hb => by cases hb), (fun _ i b hb => by cases hb)⟩
  cases SwState.register_outcome hreg with
  | cannotWrite => exact hstart
  | alreadyExists => exact hstart
  | noSpace => exact hstart
  | claimed i b _ hb => cases hb
  | installed i b hlow _ _ hnew =>
    obtain ⟨hdisabled, rfl, _, hread⟩ := SwBreakpoint.new_spec hnew
    obtain ⟨_, hthumb, _⟩ := Instruction.read_spec hread
    subst hthumb
    have htracked : ∀ j c, ((SwState.empty memory).install i b).breaks j = some c →
        T.Starts c.instrAddr c.instrBackup.isThumb ∧
          Instruction.read memory.data c.instrAddr c.instrBackup.isThumb = .ok c.instrBackup := by
      intro j c hc
      rw [SwState.install_breaks _ _ _ _ hdisabled] at hc
      split_ifs at hc
      · obtain rfl := Option.some.inj hc
        exact ⟨hstarts, hread⟩
      · cases hc
    refine ⟨htable, hplaced, hregion, ?_, htracked, fun hlive => hplanted hlive ?_⟩
    · intro x hx
      have hmemory : ((SwState.empty memory).install i b).memory =
          (b.setEnabled true memory).2.syncInstruction b.cacheTarget := by
        simp [SwState.install, SwState.empty, SwBreakpoint.cacheTarget]
      rw [hmemory]
      by_cases hline : SameLine x b.instrAddr
      · exact CodeMemory.freshAt_sync_of_sameLine hline
      · obtain ⟨hdata, hfetch⟩ :=
          SwState.arm_of_not_sameLine (SwState.wellPlaced_of_new hlow hnew) memory hline
        exact hfetch.trans ((hfresh x hx).trans hdata.symm)
    · intro j k c d hjk hc hd
      rw [SwState.install_breaks _ _ _ _ hdisabled] at hc hd
      split_ifs at hc hd with hj hk
      · exact absurd (hj.trans hk.symm) hjk
      · cases hd
      · cases hc
      · cases hc

/-- What the program stores to its data is not text, and lines of the instruction cache that are
filled anew show what is stored. -/
theorem Patched.store (h : T.Patched s) {data fetch : Mem 32}
    (hcode : ∀ x, ¬T.Data x → data x = s.memory.data x)
    (hcache : ∀ x, fetch x = s.memory.fetch x ∨ fetch x = data x) :
    T.Patched { s with memory := ⟨data, fetch⟩ } where
  table := h.table.setMemory _
  placed := h.placed
  backed := h.backed.setMemory hcode
  fresh := by
    intro x hx
    rcases hcache x with hkept | hfilled
    · exact hkept.trans ((h.fresh x hx).trans (hcode x hx).symm)
    · exact hfilled
  tracked := h.tracked
  planted := by
    intro hlive i b hb
    rw [← h.planted hlive i b hb]
    apply read_congr (SwState.bkptInstr_size_le_four b)
    exact fun x hx => hcode x (h.code hb (hx.mono b.bkptInstr_size_le))

/-- A breakpoint of another instruction does not reach here. -/
theorem Patched.not_within (h : T.Patched s) (hstarts : T.Starts addr thumb) {instr : Instruction}
    (htext : Instruction.read M addr thumb = .ok instr) {i : Fin 16} {b : SwBreakpoint}
    (hb : s.breaks i = some b) (hne : (addr, thumb) ≠ (b.instrAddr, b.instrBackup.isThumb))
    {x : Addr} (hx : Within addr instr.size x) : ¬Within b.instrAddr b.instrBackup.size x :=
  T.apart hstarts (h.tracked i b hb).1 hne htext (h.tracked i b hb).2 x hx

/-- Where nothing is tracked, the instruction itself is fetched. -/
theorem Patched.fetch_of_absent (h : T.Patched s) (hstarts : T.Starts addr thumb)
    (habsent : s.Absent addr) {instr : Instruction}
    (htext : Instruction.read M addr thumb = .ok instr) :
    Instruction.read s.memory.fetch addr thumb = .ok instr := by
  apply Instruction.read_of_same htext
  intro x hx
  have hcode := T.code hstarts htext x hx
  rw [h.fresh x hcode]
  by_contra hne
  obtain ⟨i, b, hb, _, hin⟩ := h.backed.patched x hcode hne
  apply h.not_within hstarts htext hb _ hx (hin.mono b.bkptInstr_size_le)
  intro heq
  exact habsent i b hb (Prod.mk.inj heq).1.symm

/-- Where a breakpoint is tracked, its `bkpt` is fetched as long as breakpoints are live. -/
theorem Patched.fetch_of_tracked (h : T.Patched s) (hlive : s.breaksPaused = false)
    (hstarts : T.Starts addr thumb) {i : Fin 16} {b : SwBreakpoint} (hb : s.breaks i = some b)
    (haddr : b.instrAddr = addr) :
    Instruction.read s.memory.fetch addr thumb = .ok b.bkptInstr := by
  obtain ⟨instr, htext⟩ := Instruction.exists_read M (T.aligned hstarts)
  -- both instruction sets would start there, but instructions do not overlap
  have hthumb : b.instrBackup.isThumb = thumb := by
    by_contra hother
    apply h.not_within hstarts htext hb _ (within_self addr instr.size_pos)
    · rw [haddr]
      exact within_self addr b.instrBackup.size_pos
    · intro heq
      exact hother (Prod.mk.inj heq).2.symm
  subst haddr hthumb
  apply b.read_bkptInstr (T.aligned hstarts)
  rw [← h.planted hlive i b hb]
  apply read_congr (SwState.bkptInstr_size_le_four b)
  exact fun x hx => h.fresh x (h.code hb (hx.mono b.bkptInstr_size_le))

end ProgramText
end V5gdb
