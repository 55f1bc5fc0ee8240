import V5gdb.RefusedAddresses

/-!
What the registration of a breakpoint touches in memory.
It reads the instruction at the address, a halfword at a time in Thumb code, and
writes the `bkpt` over it unless breakpoints are paused. The one thing that keeps
it from doing so at an address is a lower bound, which knows nothing of the
translation table.
-/
namespace V5gdb

open ByteMemory LittleEndian SlotLoops Transitions

structure Access where
  start : Addr
  size : ℕ
  isWrite : Bool
  deriving DecidableEq, Repr

def Access.Covers (a : Access) (x : Addr) : Prop := Within a.start a.size x

namespace Instruction

def reads (m : Mem 32) (addr : Addr) (thumb : Bool) : List Access :=
  if thumb then
    if isThumb32 (fromLe 16 (ByteMemory.read m addr 2)) then
      [⟨addr, 2, false⟩, ⟨addr + 2, 2, false⟩]
    else [⟨addr, 2, false⟩]
  else [⟨addr, 4, false⟩]

variable {m m' : Mem 32} {addr x : Addr} {thumb : Bool} {instr : Instruction}

theorem within_halves : Within addr 4 x ↔ Within addr 2 x ∨ Within (addr + 2) 2 x := by
  simp only [Within, distance]
  constructor
  · intro h
    bv_omega
  · intro h
    bv_omega

/-- The bytes that are loaded are those of the instruction. -/
theorem covered_by_reads_iff (h : read m addr thumb = .ok instr) (x : Addr) :
    (∃ a ∈ reads m addr thumb, a.Covers x) ↔ Within addr instr.size x := by
  cases thumb with
  | false =>
    simp only [read, Bool.false_eq_true, if_false] at h
    split_ifs at h with haddr
    obtain rfl := Except.ok.inj h
    simp [reads, Access.Covers, size]
  | true =>
    simp only [read, if_true] at h
    split_ifs at h with haddr hlong
    · obtain rfl := Except.ok.inj h
      simp [reads, Access.Covers, size, hlong, within_halves]
    · obtain rfl := Except.ok.inj h
      simp [reads, Access.Covers, size, hlong]

theorem isWrite_of_mem_reads {a : Access} (h : a ∈ reads m addr thumb) : a.isWrite = false := by
  unfold reads at h
  split_ifs at h
  · rcases List.mem_pair.mp h with rfl | rfl <;> rfl
  · rw [List.mem_singleton.mp h]
  · rw [List.mem_singleton.mp h]

/-- Nothing but the loaded bytes matters. -/
theorem read_congr_of_reads (h : ∀ a ∈ reads m addr thumb, ∀ x, a.Covers x → m' x = m x) :
    read m' addr thumb = read m addr thumb := by
  cases thumb with
  | false =>
    have hword : ByteMemory.read m' addr 4 = ByteMemory.read m addr 4 := by
      apply read_congr (by decide)
      exact h ⟨addr, 4, false⟩ (by simp [reads])
    simp only [read, Bool.false_eq_true, if_false, hword]
  | true =>
    have hfirst : ByteMemory.read m' addr 2 = ByteMemory.read m addr 2 := by
      apply read_congr (by decide)
      refine h ⟨addr, 2, false⟩ ?_
      simp only [reads, if_true]
      split_ifs <;> simp
    by_cases hlong : isThumb32 (fromLe 16 (ByteMemory.read m addr 2))
    · have hsecond : ByteMemory.read m' (addr + 2) 2 = ByteMemory.read m (addr + 2) 2 := by
        apply read_congr (by decide)
        exact h ⟨addr + 2, 2, false⟩ (by simp [reads, hlong])
      simp only [read, if_true, hfirst, hsecond]
    · simp only [read, if_true, hfirst, hlong, Bool.false_eq_true, if_false]

end Instruction

namespace SwState

def registerAccesses (s : SwState) (addr : Addr) (thumb internal : Bool) : List Access :=
  if addr < 0x03000000 then []
  else
    match scan (s.probe addr) (fun i => (s.breaks i).isNone) none (List.finRange 16) with
    | .hit _ _ => []
    | .miss none => []
    | .miss (some _) =>
      match SwBreakpoint.new s.memory.data addr thumb internal with
      | .error _ => []
      | .ok b =>
        Instruction.reads s.memory.data addr thumb ++
          if s.breaksPaused then [] else [⟨addr, b.bkptInstr.size, true⟩]

variable {s s' : SwState} {addr : Addr} {thumb internal : Bool} {r : Except BreakpointError Unit}

/-- Memory is touched to install a breakpoint, and then it is the instruction that is. -/
theorem registerAccesses_cases (h : s.registerSwBreakpoint addr thumb internal = .ok (s', r)) :
    (s.registerAccesses addr thumb internal = [] ∧ s'.memory = s.memory) ∨
      ∃ i b, ¬addr < 0x03000000 ∧ SwBreakpoint.new s.memory.data addr thumb internal = .ok b ∧
        s' = s.install i b ∧ r = .ok () ∧
        s.registerAccesses addr thumb internal = Instruction.reads s.memory.data addr thumb ++
          if s.breaksPaused then [] else [⟨addr, b.bkptInstr.size, true⟩] := by
  unfold registerSwBreakpoint at h
  unfold registerAccesses
  split_ifs at h with hlow
  · obtain ⟨rfl, rfl⟩ := Prod.mk.inj (Except.ok.inj h)
    exact .inl ⟨if_pos hlow, rfl⟩
  · rw [if_neg hlow]
    cases hscan : scan (s.probe addr) (fun i => (s.breaks i).isNone) none (List.finRange 16) with
    | hit i b =>
      simp only [hscan] at h ⊢
      split_ifs at h <;>
        obtain ⟨rfl, rfl⟩ := Prod.mk.inj (Except.ok.inj h) <;> exact .inl ⟨trivial, rfl⟩
    | miss next =>
      cases next with
      | none =>
        simp only [hscan] at h ⊢
        obtain ⟨rfl, rfl⟩ := Prod.mk.inj (Except.ok.inj h)
        exact .inl ⟨trivial, rfl⟩
      | some i =>
        simp only [hscan] at h ⊢
        obtain ⟨b, hnew, h⟩ := Exec.bind_ok.mp h
        obtain ⟨rfl, rfl⟩ := Prod.mk.inj (Except.ok.inj h)
        refine .inr ⟨i, b, hlow, hnew, rfl, rfl, ?_⟩
        simp only [hnew]

/-- Where there is room for a new breakpoint, it is installed. -/
theorem registerAccesses_of_absent {b : SwBreakpoint} {i : Fin 16} (hlow : ¬addr < 0x03000000)
    (habsent : s.Absent addr) (hfree : s.breaks i = none)
    (hnew : SwBreakpoint.new s.memory.data addr thumb internal = .ok b) :
    s.registerAccesses addr thumb internal = Instruction.reads s.memory.data addr thumb ++
      if s.breaksPaused then [] else [⟨addr, b.bkptInstr.size, true⟩] := by
  unfold registerAccesses
  rw [if_neg hlow]
  split
  · next j c hscan =>
    obtain ⟨hc, ha⟩ := probe_eq_some.mp (scan_hit hscan).2
    exact absurd ha (habsent j c hc)
  · next hscan =>
    have hfull := (scan_miss_none hscan).2 i (List.mem_finRange i)
    simp [hfree] at hfull
  · simp only [hnew]

/-- What is not stored to is as it was. -/
theorem register_stores (h : s.registerSwBreakpoint addr thumb internal = .ok (s', r)) {x : Addr}
    (hx : ∀ a ∈ s.registerAccesses addr thumb internal, a.isWrite = true → ¬a.Covers x) :
    s'.memory.data x = s.memory.data x := by
  rcases registerAccesses_cases h with ⟨_, hmem⟩ | ⟨i, b, _, hnew, rfl, _, hacc⟩
  · rw [hmem]
  · obtain ⟨hdis, haddr, _⟩ := SwBreakpoint.new_spec hnew
    cases hp : s.breaksPaused with
    | true => rw [install_memory_of_paused i b hp]
    | false =>
      rw [install_data_of_unpaused i hp hdis]
      apply write_of_not_within
      rw [Instruction.length_bytes, haddr]
      refine hx ⟨addr, b.bkptInstr.size, true⟩ ?_ rfl
      rw [hacc, hp]
      simp

/-- What is not loaded does not matter to the answer and to the table. -/
theorem register_loads (h : s.registerSwBreakpoint addr thumb internal = .ok (s', r))
    (m : CodeMemory)
    (hm : ∀ a ∈ s.registerAccesses addr thumb internal, a.isWrite = false →
      ∀ x, a.Covers x → m.data x = s.memory.data x) :
    ∃ s'', ({ s with memory := m } : SwState).registerSwBreakpoint addr thumb internal =
      .ok (s'', r) ∧ s''.breaks = s'.breaks := by
  have hprobe : ({ s with memory := m } : SwState).probe addr = s.probe addr := rfl
  unfold registerAccesses at hm
  unfold registerSwBreakpoint at h ⊢
  simp only [hprobe]
  by_cases hlow : addr < 0x03000000
  · rw [if_pos hlow] at h ⊢
    obtain ⟨rfl, rfl⟩ := Prod.mk.inj (Except.ok.inj h)
    exact ⟨_, rfl, rfl⟩
  · rw [if_neg hlow] at h hm ⊢
    cases hscan : scan (s.probe addr) (fun i => (s.breaks i).isNone) none (List.finRange 16) with
    | hit i b =>
      simp only [hscan] at h ⊢
      split_ifs at h ⊢ <;>
        obtain ⟨rfl, rfl⟩ := Prod.mk.inj (Except.ok.inj h) <;> exact ⟨_, rfl, rfl⟩
    | miss next =>
      cases next with
      | none =>
        simp only [hscan] at h ⊢
        obtain ⟨rfl, rfl⟩ := Prod.mk.inj (Except.ok.inj h)
        exact ⟨_, rfl, rfl⟩
      | some i =>
        simp only [hscan] at h hm ⊢
        obtain ⟨b, hnew, h⟩ := Exec.bind_ok.mp h
        obtain ⟨rfl, rfl⟩ := Prod.mk.inj (Except.ok.inj h)
        have hdis := (SwBreakpoint.new_spec hnew).1
        have hread : Instruction.read m.data addr thumb =
            Instruction.read s.memory.data addr thumb := by
          apply Instruction.read_congr_of_reads
          intro a ha x hx
          refine hm a ?_ (Instruction.isWrite_of_mem_reads ha) x hx
          simp only [hnew]
          exact List.mem_append_left _ ha
        have hsame : SwBreakpoint.new m.data addr thumb internal = .ok b := by
          rw [← hnew, SwBreakpoint.new, SwBreakpoint.new, hread]
        refine ⟨({ s with memory := m } : SwState).install i b, ?_, ?_⟩
        · rw [hsame]
          rfl
        · funext j
          rw [install_breaks _ i j b hdis, install_breaks _ i j b hdis]

end SwState

def TranslationTable.AllowsBreakpoint (table : TranslationTable) (m : Mem 32) (addr : Addr)
    (thumb : Bool) : Prop :=
  ∀ instr, Instruction.read m addr thumb = .ok instr →
    ∀ x, Within addr instr.size x → table.canAccess x true = true

namespace SwState

variable {s s' : SwState} {addr : Addr} {thumb internal : Bool} {table : TranslationTable}

/-- A registration stays within what the table allows, and refuses everything else. -/
structure StaysAllowed (table : TranslationTable) (s : SwState) (addr : Addr)
    (thumb internal : Bool) : Prop where
  allowed : ∀ a ∈ s.registerAccesses addr thumb internal, ∀ x, a.Covers x →
    table.canAccess x false = true ∧ table.canAccess x true = true
  refused : ¬table.AllowsBreakpoint s.memory.data addr thumb →
    s.registerSwBreakpoint addr thumb internal = .ok (s, .error .cannotWrite)

theorem covered_of_new {b : SwBreakpoint} {x : Addr} {a : Access}
    (hnew : SwBreakpoint.new s.memory.data addr thumb internal = .ok b)
    (ha : a ∈ Instruction.reads s.memory.data addr thumb ++
      if s.breaksPaused then [] else [⟨addr, b.bkptInstr.size, true⟩]) (hx : a.Covers x) :
    Within addr b.instrBackup.size x := by
  obtain ⟨_, _, _, hread⟩ := SwBreakpoint.new_spec hnew
  rcases List.mem_append.mp ha with hload | hstore
  · exact (Instruction.covered_by_reads_iff hread x).mp ⟨a, hload, hx⟩
  · split_ifs at hstore with hp
    · cases hstore
    · obtain rfl := List.mem_singleton.mp hstore
      exact Within.mono hx b.bkptInstr_size_le

/-- A registration stays within what the table allows if and only if the address is
reserved, or the table allows a breakpoint there. -/
theorem stays_allowed_iff (table : TranslationTable) (s : SwState) (addr : Addr)
    (thumb internal : Bool) (hal : Instruction.AlignedFor thumb addr) :
    s.StaysAllowed table addr thumb internal ↔
      addr < 0x03000000 ∨ table.AllowsBreakpoint s.memory.data addr thumb := by
  obtain ⟨s', r, hreg⟩ := s.exists_register internal hal
  constructor
  · intro h
    by_contra hnot
    push Not at hnot
    have hr : r = .error .cannotWrite :=
      (Prod.mk.inj (Except.ok.inj (hreg.symm.trans (h.refused hnot.2)))).2
    cases register_outcome hreg with
    | cannotWrite hlow => exact hnot.1 hlow
    | alreadyExists => cases hr
    | claimed => cases hr
    | noSpace => cases hr
    | installed => cases hr
  · rintro (hlow | hallows)
    · refine ⟨?_, fun _ => register_cannotWrite s thumb internal hlow⟩
      intro a ha
      rw [registerAccesses, if_pos hlow] at ha
      cases ha
    · refine ⟨?_, fun hnot => absurd hallows hnot⟩
      intro a ha x hx
      have hwrite : table.canAccess x true = true := by
        rcases registerAccesses_cases hreg with ⟨hnone, _⟩ | ⟨i, b, _, hnew, _, _, hacc⟩
        · rw [hnone] at ha
          cases ha
        · rw [hacc] at ha
          exact hallows b.instrBackup (SwBreakpoint.new_spec hnew).2.2.2 x
            (covered_of_new hnew ha hx)
      exact ⟨table.canRead_of_canWrite hwrite, hwrite⟩

/-- All memory is accessible: the instruction is loaded, and its replacement is stored. -/
theorem stays_allowed_at_open :
    (empty ⟨fun _ => 0, fun _ => 0⟩).registerAccesses 0x03900000 false false =
        [⟨0x03900000, 4, false⟩, ⟨0x03900000, 4, true⟩] ∧
      (empty ⟨fun _ => 0, fun _ => 0⟩).StaysAllowed Sys.openTable 0x03900000 false false :=
  ⟨by decide, (stays_allowed_iff Sys.openTable _ 0x03900000 false false (by decide)).mpr
    (.inr fun _ _ x _ => Sys.openTable_access x true)⟩

end SwState

def holeTable : TranslationTable := ⟨fun i => if i = 0x900 then ⟨0⟩ else ⟨0xC02⟩⟩

/-- GDB asks for a breakpoint in an unmapped section. The request is accepted, after a
load from there. -/
theorem unmapped_breakpoint_accepted :
    ∃ (session : DebugSession) (es : List SysEvent) (s : Sys) (sw : SwState),
      DebugSession.boot 0 DebugSession.clearedLogic ⟨fun _ => 0, fun _ => 0⟩ 0x03800000 false =
        .ok session ∧
      Run (Sys.Step holeTable) (Sys.start session) es s ∧ s.inMonitor = true ∧
      holeTable.canAccess 0x90000000 false = false ∧
      s.session.target.toSwState.registerSwBreakpoint 0x90000000 false false = .ok (sw, .ok ()) ∧
      (⟨0x90000000, 4, false⟩ : Access) ∈
        s.session.target.toSwState.registerAccesses 0x90000000 false false ∧
      ¬s.session.target.toSwState.StaysAllowed holeTable 0x90000000 false false := by
  obtain ⟨session, es, s, i, hboot, hrun, hphase, _, _, hnone, haddr⟩ :=
    Sys.exists_stopped_one_slot holeTable
  have hal : Instruction.AlignedFor false 0x90000000 := by decide
  obtain ⟨sw, r, hreg⟩ := s.session.target.toSwState.exists_register false hal
  have htracked : ∀ {j b}, s.session.target.breaks j = some b → b.instrAddr ≠ 0x90000000 := by
    intro j b hb
    rw [haddr j b hb]
    decide
  have hroom : ∀ i : Fin 16, ∃ j, j ≠ i := by decide
  obtain ⟨k, hk⟩ := hroom i
  obtain ⟨b, hnew, rfl⟩ :=
    SwState.new_of_register (by decide) (fun _ _ => htracked) (hnone k hk) hreg
  have hload : (⟨0x90000000, 4, false⟩ : Access) ∈
      s.session.target.toSwState.registerAccesses 0x90000000 false false := by
    rw [SwState.registerAccesses_of_absent (by decide) (fun j b hb => htracked hb) (hnone k hk)
      hnew]
    exact List.mem_append_left _ (List.mem_singleton_self _)
  have hhole : holeTable.canAccess 0x90000000 false = false := by decide
  refine ⟨session, es, s, sw, hboot, hrun, by rw [Sys.inMonitor, hphase], hhole, hreg, hload, ?_⟩
  intro hstays
  have hcover : Within (0x90000000 : Addr) 4 0x90000000 := by decide
  have hread := (hstays.allowed _ hload 0x90000000 hcover).1
  rw [hhole] at hread
  cases hread

end V5gdb
