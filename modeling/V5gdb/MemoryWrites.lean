import V5gdb.PatchedMemory
import V5gdb.UnattendedResume

/-!
What becomes of the bytes that GDB writes.
The backups of the tracked breakpoints are a second copy of the same bytes, and
the next entry writes them back. A write survives if the backups agree with it.
-/
namespace V5gdb

open ByteMemory RecordLayouts Transitions

namespace SwState

variable {R : Addr → Prop} {M : Mem 32} {s : SwState}

/-- Only the region matters. -/
theorem BackedOn.setMemory (hb : s.BackedOn R M) {memory : CodeMemory}
    (hsame : ∀ x, R x → memory.data x = s.memory.data x) :
    ({ s with memory } : SwState).BackedOn R M where
  backup := hb.backup
  patched := fun x hx hne => hb.patched x hx (by rwa [← hsame x hx])

/-- Where the data and a backup cover the same byte, they have the same value for it. -/
def AgreesWith (s : SwState) (addr : Addr) (data : Bytes) : Prop :=
  ∀ i b, s.breaks i = some b → ∀ x, Within addr data.length x →
    Within b.instrAddr b.instrBackup.size x →
      b.instrBackup.bytes[distance b.instrAddr x]? = data[distance addr x]?

/-- After a write that agrees with the backups they are backups of what was written. -/
theorem AgreesWith.backedOn {addr : Addr} {data : Bytes} (h : s.AgreesWith addr data)
    {memory : CodeMemory} (hstore : memory = s.memory.store addr data) :
    ({ s with memory } : SwState).BackedOn (Within addr data.length) memory.data := by
  refine backedOn_of_disabled ?_ fun _ _ => rfl
  intro i b hb x hx
  by_cases hin : Within b.instrAddr b.instrBackup.bytes.length x
  · have hbackup := getElem?_of_within memory.data hin
    have hdata := getElem?_of_within s.memory.data hx
    have hagree := h i b hb x hx (by rwa [Instruction.length_bytes] at hin)
    rw [hbackup, hdata] at hagree
    rw [Option.some.inj hagree, hstore]
    rfl
  · exact write_of_not_within _ hin

/-- Pausing writes the backup of an armed breakpoint back, whatever has been written
over it; the disjoint ranges of the others do not interfere. -/
theorem pause_restores {i : Fin 16} {b : SwBreakpoint} (hi : s.breaks i = some b)
    (he : b.enabled = true) (hdisj : s.DisjointRanges) (M : Mem 32) {x : Addr}
    (hx : Within b.instrAddr b.instrBackup.size x) :
    (s.setBreakpointsIgnored true).memory.data x = write M b.instrAddr b.instrBackup.bytes x := by
  refine setBreakpointsIgnored_memory s true
    (fun k m => i.val < k → m.data x = write M b.instrAddr b.instrBackup.bytes x) ?_ ?_ ?_ i.isLt
  · intro hlt
    omega
  · intro j m hj hQ hlt
    have hji : j ≠ i := by
      rintro rfl
      rw [hi] at hj
      cases hj
    have hval : j.val ≠ i.val := fun hv => hji (Fin.ext hv)
    exact hQ (by omega)
  · intro j c m hj hQ hlt
    rw [CodeMemory.syncInstruction_data]
    by_cases hji : j = i
    · subst hji
      obtain rfl := Option.some.inj (hi.symm.trans hj)
      rw [Bool.not_true, SwBreakpoint.disable_data m he]
      exact write_congr_within m.data M (by rwa [Instruction.length_bytes])
    · have hval : j.val ≠ i.val := fun hv => hji (Fin.ext hv)
      have hbefore := hQ (by omega)
      cases hec : c.enabled with
      | false => rwa [Bool.not_true, SwBreakpoint.setEnabled_noop m hec]
      | true =>
        rw [Bool.not_true, SwBreakpoint.disable_data m hec, write_of_not_within]
        · exact hbefore
        · rw [Instruction.length_bytes]
          exact fun hin => hdisj j i c b hji hj hi x hin hx

/-- One leave and entry put the backup of a breakpoint back. -/
theorem restored_by_next_stop {i : Fin 16} {b : SwBreakpoint} (hi : s.breaks i = some b)
    (hdisj : s.DisjointRanges) (M : Mem 32) {x : Addr}
    (hx : Within b.instrAddr b.instrBackup.size x) :
    ((s.setBreakpointsIgnored false).setBreakpointsIgnored true).memory.data x =
      write M b.instrAddr b.instrBackup.bytes x := by
  have hi' : (s.setBreakpointsIgnored false).breaks i = some { b with enabled := true } :=
    setBreakpointsIgnored_of_some false hi
  refine pause_restores hi' rfl ?_ M hx
  intro j k c d hjk hc hd
  obtain ⟨c', hc', rfl⟩ := setBreakpointsIgnored_some hc
  obtain ⟨d', hd', rfl⟩ := setBreakpointsIgnored_some hd
  exact hdisj j k c' d' hjk hc' hd'

end SwState

def Spares (R : Addr → Prop) : TargetCall × TargetReply → Prop
  | (.writeAddrs addr data, .written (.ok ())) => ∀ x, R x → ¬ Within addr data.length x
  | _ => True

def SparedBy (R : Addr → Prop) (s : SwState) (memory : CodeMemory) : Prop :=
  ∀ x, R x → memory.data x = s.memory.data x

theorem backedOn_kept (table : TranslationTable) (R : Addr → Prop) (M : Mem 32) :
    KeptByStops table (Spares R) (SparedBy R) (SwState.BackedOn R M) where
  pause := fun _ ignored _ h => SwState.setBreakpointsIgnored_backedOn h ignored
  remove := fun _ _ _ _ _ h hrem =>
    SwState.remove_backedOn_of_paused h.table h.paused h.holds hrem
  register := fun _ _ _ _ _ h hreg =>
    SwState.register_backedOn_of_paused h.table h.paused h.holds hreg
  write := by
    intro s addr data memory hwrite hok h
    obtain ⟨rfl, _⟩ := writeMemory_ok hwrite
    exact h.holds.setMemory fun x hx => write_of_not_within s.memory.data (hok x hx)
  run := fun _ _ hforeign h => h.holds.setMemory hforeign

theorem V5Target.applyCall_written {table : TranslationTable} {t t' : V5Target} {addr : Addr}
    {data : Bytes} (h : t.applyCall table (.writeAddrs addr data) = .ok (t', .written (.ok ()))) :
    ∃ memory, writeMemory table t.memory addr data = (memory, true) ∧
      t' = { t with memory := memory } := by
  cases hwrite : writeMemory table t.memory addr data with
  | mk memory written =>
    simp only [applyCall, writeAddrs, hwrite] at h
    obtain ⟨rfl, hreply⟩ := Prod.mk.inj (Except.ok.inj h)
    cases written with
    | true => exact ⟨memory, rfl, rfl⟩
    | false => cases hreply

namespace Sys

variable {s s₁ s' : Sys} {table : TranslationTable} {addr : Addr} {data : Bytes}

/-- A step in which neither GDB nor the program writes to the region. -/
def QuietStep (table : TranslationTable) (R : Addr → Prop) (s : Sys) (e : SysEvent) (s' : Sys) :
    Prop := Step table s e s' ∧ Admits (Spares R) (SparedBy R) s e

/-- A write that agrees with the backups is backed up from then on. -/
theorem backedOn_of_write {exitAddr : Addr} {input : GdbInput} (hexit : s.ExitInv exitAddr)
    (hstep : Step table s (.tick input [(.writeAddrs addr data, .written (.ok ()))]) s₁)
    (hagree : s.session.target.AgreesWith addr data) :
    ∃ M, read M addr data.length = data ∧
      data.length ≤ testAccess table addr (saturatingAdd addr data.length) true ∧
      s₁.session.target.toSwState.Keeps (SwState.BackedOn (Within addr data.length) M)
        s₁.inMonitor := by
  have hwritten : ∀ {gdb gdb' : GdbState} {t : V5Target}, s.phase = .monitor gdb →
      DebugSession.tickStateMachine table gdb s.session.target input =
        .ok (gdb', t, [(.writeAddrs addr data, .written (.ok ()))]) →
      ∃ M, read M addr data.length = data ∧
        data.length ≤ testAccess table addr (saturatingAdd addr data.length) true ∧
        t.toSwState.Keeps (SwState.BackedOn (Within addr data.length) M) true := by
    intro gdb gdb' t hphase htick
    have hkeeps := hexit.keeps
    rw [inMonitor, hphase] at hkeeps
    generalize hrs :
      [(TargetCall.writeAddrs addr data, TargetReply.written (.ok ()))] = rs at htick
    cases DebugSession.tick_outcome htick with
    | packet calls next t rs hrun =>
      subst hrs
      obtain rfl := V5Target.runCalls_labels hrun
      obtain ⟨t₁, r, rs, happ, hrest, hreplies⟩ := V5Target.runCalls_cons hrun
      obtain ⟨hreply, rfl⟩ := List.cons.inj hreplies
      obtain ⟨_, rfl⟩ := Prod.mk.inj hreply
      obtain ⟨rfl, _⟩ := Prod.mk.inj (Except.ok.inj hrest)
      obtain ⟨memory, hwrite, rfl⟩ := V5Target.applyCall_written happ
      obtain ⟨rfl, haccess⟩ := writeMemory_ok hwrite
      have hlen : data.length ≤ 2 ^ 32 := by
        have hlt := add_lt_of_writable haccess
        omega
      exact ⟨_, read_write_self _ addr hlen, haccess, hkeeps.table.setMemory _, hkeeps.paused,
        hagree.backedOn rfl⟩
    | _ => cases hrs
  cases hstep with
  | tick hphase htick => exact hwritten hphase htick
  | lastTick hphase htick =>
    obtain ⟨M, hM, haccess, hkeeps⟩ := hwritten hphase htick
    exact ⟨M, hM, haccess, (backedOn_kept table _ M).keeps_pause hkeeps false⟩

/-- What GDB has written, and the backups agree with, is read back in every later
stop, as long as the written range is not written again. -/
theorem writes_survive (table : TranslationTable) (debugId : BitVec 32) (mmio : DebugLogic)
    (memory : CodeMemory) (exitFunc : Addr) (stopMotorsOnBreak : Bool) (session : DebugSession)
    (hboot : DebugSession.boot debugId mmio memory exitFunc stopMotorsOnBreak = .ok session)
    (es : List SysEvent) (s : Sys) (hrun : Run (Step table) (start session) es s) (addr : Addr)
    (data : Bytes) (input : GdbInput) (s₁ : Sys)
    (hwrite : Step table s (.tick input [(.writeAddrs addr data, .written (.ok ()))]) s₁)
    (hne : data ≠ []) (hagree : s.session.target.AgreesWith addr data) (fs : List SysEvent)
    (s' : Sys) (hquiet : Run (QuietStep table (Within addr data.length)) s₁ fs s')
    (hmon : s'.inMonitor = true) (buf : Bytes) (hbuf : buf.length = data.length) :
    s'.session.target.readAddrs table addr buf = .ok (data, data.length) := by
  obtain ⟨M, hM, haccess, hkeeps⟩ :=
    backedOn_of_write (exitInv_of_run hboot hrun) hwrite hagree
  have hhold := (holding_of_run hboot hrun).step hwrite
  have hinv := hquiet.invariant
    (P := fun _ t => (∃ keys, t.Holding (HardwareCapabilities.ofDebugId debugId).numBreakpoints
      keys true) ∧ t.session.target.toSwState.Keeps
        (SwState.BackedOn (Within addr data.length) M) t.inMonitor)
    ⟨⟨_, hhold⟩, hkeeps⟩ (by
      rintro _ t e t' ⟨⟨keys, ht⟩, hbacked⟩ ⟨hstep, hadmits⟩
      exact ⟨⟨_, ht.step hstep⟩, (backedOn_kept table _ M).step ht hbacked hstep hadmits⟩)
  obtain ⟨_, htable, hpaused, hbacked⟩ := hinv
  rw [hmon] at hpaused
  have hread : read s'.session.target.memory.data addr data.length = data := by
    refine Eq.trans (read_congr ?_ ?_) hM
    · have hlt := add_lt_of_writable haccess
      omega
    · exact fun x hx => hbacked.data_of_paused htable hpaused hx
  have hlen : data.length ≠ 0 := by simpa using hne
  simp only [V5Target.readAddrs, readMemory_of_writable haccess _ hbuf]
  rw [if_neg hlen, hread]

/-- From any boot on, GDB can write in one stop and look at the result in the next. -/
theorem exists_write_and_stop {debugId : BitVec 32} {mmio : DebugLogic} {memory : CodeMemory}
    {exitFunc : Addr} {stopMotorsOnBreak : Bool} {session : DebugSession}
    (hboot : DebugSession.boot debugId mmio memory exitFunc stopMotorsOnBreak = .ok session)
    (ctx : DebugEventContext)
    (haccess : data.length ≤ testAccess table addr (saturatingAdd addr data.length) true) :
    ∃ es s s₁ fs s', Run (Step table) (start session) es s ∧
      s.session.target.toSwState = session.target.toSwState.setBreakpointsIgnored true ∧
      Step table s (.tick (.packet [.writeAddrs addr data] .idle)
        [(.writeAddrs addr data, .written (.ok ()))]) s₁ ∧
      Run (QuietStep table (Within addr data.length)) s₁ fs s' ∧ s'.inMonitor = true ∧
      s'.session.target.toSwState = (({ s.session.target.toSwState with
        memory := s.session.target.memory.store addr data } :
          SwState).setBreakpointsIgnored false).setBreakpointsIgnored true := by
  have hbooted := DebugSession.booted_of_boot hboot
  have h₀ := holding_start hbooted
  have hstage : session.stage = .uninitialized := hbooted.stage
  obtain ⟨s, gdb, hstop, hphase, _, hsw, hgdb⟩ := h₀.exists_stop rfl
    (by simp [start, hstage]) table ctx ⟨0⟩ (by decide) (by decide)
  obtain rfl := hgdb hstage
  have hrun := Run.single hstop
  have hstatus : s.session.target.monitorStatus = .active := by
    rcases (exitInv_of_run hboot hrun).status _ hphase with hactive | ⟨_, hrunning, _⟩
    · exact hactive
    · cases hrunning
  have hcalls : V5Target.runCalls table [.writeAddrs addr data] s.session.target =
      .ok ({ s.session.target with memory := s.session.target.memory.store addr data },
        [(.writeAddrs addr data, .written (.ok ()))]) := by
    simp only [V5Target.runCalls, V5Target.applyCall, V5Target.writeAddrs,
      writeMemory_of_access haccess, bind, Except.bind, pure, Except.pure, if_true]
  obtain ⟨s₁, hwrite, hphase₁, htarget₁⟩ := exists_tick hphase hcalls (by simp [hstatus])
  have hresume : V5Target.runCalls table [.resume] s₁.session.target =
      .ok ({ s₁.session.target with monitorStatus := .resumingProgram }, [(.resume, .done)]) :=
    rfl
  obtain ⟨s₂, unpause, hgo, hphase₂, hrunning, hsw₂⟩ := exists_lastTick hphase₁ hresume rfl
  have hreturn : Step table _ .return _ := .return hphase₂
  have hhold := holding_of_run hboot
    (hrun.trans (.cons hwrite (.cons hgo (.single hreturn))))
  obtain ⟨s', gdb, hnext, hphase', _, hsw', _⟩ := hhold.exists_stop rfl
    (by simp [hrunning]) table ctx ⟨0⟩ (by decide) (by decide)
  refine ⟨_, s, s₁, _, s', hrun, hsw, hwrite, .cons ⟨hgo, ?_⟩ (.cons ⟨hreturn, trivial⟩
    (.single ⟨hnext, trivial⟩)), by rw [inMonitor, hphase'], ?_⟩
  · simp [Admits, Spares]
  · rw [hsw']
    show s₂.session.target.toSwState.setBreakpointsIgnored true = _
    rw [hsw₂, htarget₁]

/-- Whatever is written over the instruction of the exit function, the next stop
brings back the byte that was there at the boot. -/
theorem restored_in_next_stop {memory : CodeMemory} {exitAddr : Addr} {thumb : Bool}
    {sw : SwState} (hreg : (SwState.empty memory).registerSwBreakpoint exitAddr thumb true =
      .ok (sw, .ok ())) (m : CodeMemory) :
    ((({ sw.setBreakpointsIgnored true with memory := m } :
      SwState).setBreakpointsIgnored false).setBreakpointsIgnored true).memory.data exitAddr =
        memory.data exitAddr := by
  obtain ⟨_, i, b, hb, rfl, _, halone, hbackup⟩ := SwState.exists_internal_of_register hreg
  have hpaused : (sw.setBreakpointsIgnored true).breaks i = some { b with enabled := false } :=
    SwState.setBreakpointsIgnored_of_some true hb
  have hnone : ∀ j, j ≠ i → (sw.setBreakpointsIgnored true).breaks j = none :=
    fun j hj => SwState.setBreakpointsIgnored_of_none true (halone j hj)
  have hdisj : (sw.setBreakpointsIgnored true).DisjointRanges := by
    intro j k c d hjk hc hd
    by_cases hj : j = i
    · rw [hnone k (fun hk => hjk (hj.trans hk.symm))] at hd
      cases hd
    · rw [hnone j hj] at hc
      cases hc
  have hin : Within b.instrAddr b.instrBackup.size b.instrAddr :=
    within_self _ (Nat.lt_of_lt_of_le b.bkptInstr_size_pos b.bkptInstr_size_le)
  refine (SwState.restored_by_next_stop (s := { sw.setBreakpointsIgnored true with
    memory := m }) hpaused hdisj memory.data hin).trans ?_
  show write memory.data b.instrAddr b.instrBackup.bytes b.instrAddr = _
  rw [hbackup]
  exact write_read_of_within _ _ hin

def openTable : TranslationTable := ⟨fun _ => ⟨0xC02⟩⟩

theorem openTable_access (addr : Addr) (isWrite : Bool) :
    openTable.canAccess addr isWrite = true := by
  have hperms : (L1Descriptor.mk 0xC02).asSection.bind SectionDescriptor.accessPermissions =
      some .allAccess := by decide
  simp only [TranslationTable.canAccess, TranslationTable.lookupL1, openTable, hperms]
  cases isWrite <;> rfl

/-- A write that no breakpoint reaches is there in the next stop. -/
theorem writes_survive_elsewhere :
    ∃ (session : DebugSession) (s' : Sys),
      DebugSession.boot 0 DebugSession.clearedLogic ⟨fun _ => 0, fun _ => 0⟩ 0x03800000 false =
        .ok session ∧ s'.inMonitor = true ∧
      s'.session.target.readAddrs openTable 0x03900000 [0] = .ok ([1], 1) := by
  obtain ⟨session, hboot⟩ := DebugSession.exists_boot_one_slot
  have haccess : [(1 : BitVec 8)].length ≤
      testAccess openTable 0x03900000 (saturatingAdd 0x03900000 [(1 : BitVec 8)].length) true :=
    Nat.le_of_eq (testAccess_of_access (openTable_access · true) (by decide)).symm
  obtain ⟨es, s, s₁, fs, s', hrun, hsw, hwrite, hquiet, hmon, _⟩ :=
    exists_write_and_stop hboot ⟨⟨0⟩, 0, 0, 0, fun _ => 0, fun _ => 0, 0x03900000⟩ haccess
  have hreg := (DebugSession.booted_of_boot hboot).registered
  have hagree : s.session.target.AgreesWith 0x03900000 [1] := by
    intro j c hc x hx hin
    rw [hsw] at hc
    obtain ⟨d, hd, rfl⟩ := SwState.setBreakpointsIgnored_some hc
    rw [Within, SwState.instrAddr_of_register hreg hd] at hin
    have hfar : distance (0x03800000 &&& ~~~1 : Addr) x = 0x100000 := by
      rw [within_one.mp hx]
      decide
    have hsize := d.instrBackup.size_le
    rw [hfar] at hin
    change 0x100000 < d.instrBackup.size at hin
    omega
  exact ⟨session, s', hboot, hmon, writes_survive _ _ _ _ _ _ _ hboot es s hrun _ _ _ s₁ hwrite
    (by decide) hagree fs s' hquiet hmon [0] rfl⟩

/-- GDB changes the byte at the exit function, resumes the program, and finds the
old byte in the next stop. -/
theorem write_undone_by_next_stop :
    ∃ (session : DebugSession) (es fs : List SysEvent) (s s₁ s' : Sys),
      DebugSession.boot 0 DebugSession.clearedLogic ⟨fun _ => 0, fun _ => 0⟩ 0x03800000 false =
        .ok session ∧
      Run (Step openTable) (start session) es s ∧
      Step openTable s (.tick (.packet [.writeAddrs 0x03800000 [1]] .idle)
        [(.writeAddrs 0x03800000 [1], .written (.ok ()))]) s₁ ∧
      Run (QuietStep openTable (Within 0x03800000 1)) s₁ fs s' ∧ s'.inMonitor = true ∧
      s'.session.target.readAddrs openTable 0x03800000 [0] = .ok ([0], 1) := by
  obtain ⟨session, hboot⟩ := DebugSession.exists_boot_one_slot
  have haccess : [(1 : BitVec 8)].length ≤
      testAccess openTable 0x03800000 (saturatingAdd 0x03800000 [(1 : BitVec 8)].length) true :=
    Nat.le_of_eq (testAccess_of_access (openTable_access · true) (by decide)).symm
  obtain ⟨es, s, s₁, fs, s', hrun, hsw, hwrite, hquiet, hmon, hsw'⟩ :=
    exists_write_and_stop hboot ⟨⟨0⟩, 0, 0, 0, fun _ => 0, fun _ => 0, 0x03900000⟩ haccess
  refine ⟨session, es, fs, s, s₁, s', hboot, hrun, hwrite, hquiet, hmon, ?_⟩
  have hreg := (DebugSession.booted_of_boot hboot).registered
  have hbyte : s'.session.target.memory.data 0x03800000 = 0 := by
    rw [hsw', hsw]
    exact restored_in_next_stop hreg _
  have hlen : [(0 : BitVec 8)].length = [(1 : BitVec 8)].length := rfl
  simp only [V5Target.readAddrs, readMemory_of_writable haccess _ hlen]
  simpa [ByteMemory.read] using hbyte

end Sys
end V5gdb
