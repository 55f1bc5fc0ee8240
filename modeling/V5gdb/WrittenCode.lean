import V5gdb.CodeCoherence
import V5gdb.RefusedAddresses

/-!
What the program executes of the code that GDB writes.
A write of GDB stores to data memory and does nothing for the instruction cache.
The lines that come up to date before the program goes on are those of breakpoints:
of one that is given up, at once, and of those that are tracked, when the stop ends.
Every other byte is fetched as it was before the write.
-/
namespace V5gdb

open ByteMemory RecordLayouts Transitions

structure Edits where
  written : Set Addr
  /-- Written, and not fetched as written so far. -/
  exposed : Set Addr

namespace Edits

def none : Edits := ⟨∅, ∅⟩

/-- A write exposes the bytes that are fetched otherwise. A breakpoint that is given up
brings its line up to date. -/
def afterCall (s : SwState) (w : Edits) : TargetCall × TargetReply → Edits
  | (.writeAddrs addr data, .written (.ok ())) =>
    { written := {x | Within addr data.length x ∨ x ∈ w.written}
      exposed := {x | if Within addr data.length x
        then data[distance addr x]? ≠ some (s.memory.fetch x) else x ∈ w.exposed} }
  | (.removeSwBreakpoint addr _, .accepted true) =>
    { w with exposed := {x | x ∈ w.exposed ∧ ¬SameLine x addr} }
  | _ => w

def afterCalls (table : TranslationTable) :
    V5Target → List (TargetCall × TargetReply) → Edits → Edits
  | _, [], w => w
  | t, p :: ps, w =>
    match t.applyCall table p.1 with
    | .ok (t', _) => afterCalls table t' ps (w.afterCall t.toSwState p)
    | .error _ => w

def afterEvent (table : TranslationTable) (s : Sys) (e : SysEvent) (w : Edits) : Edits :=
  match e with
  | .stop _ _ => none
  | .tick _ replies => w.afterCalls table s.session.target replies
  | _ => w

def Exact (w : Edits) (m : CodeMemory) : Prop :=
  ∀ x, x ∈ w.exposed ↔ x ∈ w.written ∧ ¬m.FreshAt x

theorem none_exact (m : CodeMemory) : none.Exact m := by
  intro x
  simp [none]

variable {w : Edits} {s s' : SwState} {addr : Addr} {table : TranslationTable}

theorem mem_written_of_write {data : Bytes} {x : Addr} :
    x ∈ (w.afterCall s (.writeAddrs addr data, .written (.ok ()))).written ↔
      Within addr data.length x ∨ x ∈ w.written := Iff.rfl

theorem mem_exposed_of_write {data : Bytes} {x : Addr} :
    x ∈ (w.afterCall s (.writeAddrs addr data, .written (.ok ()))).exposed ↔
      if Within addr data.length x then data[distance addr x]? ≠ some (s.memory.fetch x)
      else x ∈ w.exposed := Iff.rfl

theorem Exact.write (h : w.Exact s.memory) {data : Bytes} {memory : CodeMemory}
    (hwrite : writeMemory table s.memory addr data = (memory, true)) :
    (w.afterCall s (.writeAddrs addr data, .written (.ok ()))).Exact memory := by
  obtain ⟨rfl, _⟩ := writeMemory_ok hwrite
  intro x
  rw [mem_exposed_of_write, mem_written_of_write, CodeMemory.FreshAt, CodeMemory.store_data]
  by_cases hin : Within addr data.length x
  · rw [if_pos hin, getElem?_of_within s.memory.data hin, ne_eq, Option.some.injEq, eq_comm]
    exact ⟨fun hne => ⟨.inl hin, hne⟩, And.right⟩
  · rw [if_neg hin, write_of_not_within s.memory.data hin, h x]
    simp only [hin, false_or]
    rfl

theorem Exact.remove (hs : s.TableInv) (hp : s.breaksPaused = true) (h : w.Exact s.memory)
    {kind : ArmBreakpointKind} {r : Bool}
    (hrem : s.removeSwBreakpoint addr false = (s', r)) :
    (w.afterCall s (.removeSwBreakpoint addr kind, .accepted r)).Exact s'.memory := by
  cases SwState.remove_outcome hs hrem with
  | absent => exact h
  | kept => exact h
  | freed i b hb ha =>
    have hdis : b.enabled = false := by simpa [hp] using hs.enabled i b hb
    intro x
    rw [SwState.freeSlot, SwBreakpoint.setEnabled_noop s.memory hdis, ha]
    simp only [afterCall, Set.mem_ofPred_eq]
    by_cases hline : SameLine x addr
    · have hfresh := CodeMemory.freshAt_sync_of_sameLine (m := s.memory) hline
      simp [hline, hfresh]
    · rw [h x, CodeMemory.FreshAt, CodeMemory.FreshAt, CodeMemory.syncInstruction_data,
        CodeMemory.fetch_sync_of_not_sameLine hline]
      simp [hline]

theorem register_memory_of_paused {thumb internal : Bool} {r : Except BreakpointError Unit}
    (hp : s.breaksPaused = true)
    (hreg : s.registerSwBreakpoint addr thumb internal = .ok (s', r)) :
    s'.memory = s.memory := by
  cases SwState.register_outcome hreg with
  | installed i b => exact SwState.install_memory_of_paused i b hp
  | _ => rfl

theorem Exact.call {t t' : V5Target} {c : TargetCall} {r : TargetReply} {P : SwState → Prop}
    (hkeeps : t.toSwState.Keeps P true) (h : w.Exact t.memory)
    (happ : t.applyCall table c = .ok (t', r)) :
    (w.afterCall t.toSwState (c, r)).Exact t'.memory := by
  cases c with
  | writeAddrs addr data =>
    obtain ⟨⟨memory, b⟩, hwrite⟩ : ∃ p, writeMemory table t.memory addr data = p := ⟨_, rfl⟩
    simp only [V5Target.applyCall, V5Target.writeAddrs, hwrite] at happ
    obtain ⟨rfl, rfl⟩ := Prod.mk.inj (Except.ok.inj happ)
    cases b with
    | true => exact h.write hwrite
    | false =>
      obtain rfl := writeMemory_refused hwrite
      exact h
  | removeSwBreakpoint addr kind =>
    obtain ⟨⟨sw, b⟩, hrem⟩ : ∃ p, t.toSwState.removeSwBreakpoint addr false = p := ⟨_, rfl⟩
    rw [V5Target.applyCall, V5Target.removeSwBreakpoint, hrem] at happ
    obtain ⟨rfl, rfl⟩ := Prod.mk.inj (Except.ok.inj happ)
    exact h.remove hkeeps.table hkeeps.paused hrem
  | addSwBreakpoint addr kind =>
    cases V5Target.applyCall_effect happ with
    | register _ _ sw r' hreg =>
      show w.Exact sw.memory
      rw [register_memory_of_paused hkeeps.paused hreg]
      exact h
    | _ => exact h
  | _ => cases V5Target.applyCall_effect happ <;> exact h

theorem Exact.calls {P : SwState → Prop} {Foreign : SwState → CodeMemory → Prop}
    (hP : KeptByStops table (fun _ => True) Foreign P)
    {t t' : V5Target} {calls : List TargetCall} {replies : List (TargetCall × TargetReply)}
    (hkeeps : t.toSwState.Keeps P true) (h : w.Exact t.memory)
    (hrun : V5Target.runCalls table calls t = .ok (t', replies)) :
    (w.afterCalls table t replies).Exact t'.memory := by
  induction calls generalizing t w replies with
  | nil =>
    obtain ⟨rfl, rfl⟩ := Prod.mk.inj (Except.ok.inj hrun)
    exact h
  | cons c cs ih =>
    obtain ⟨t₁, r, rs, happ, hrest, rfl⟩ := V5Target.runCalls_cons hrun
    rw [afterCalls, happ]
    exact ih (hP.applyCall hkeeps happ trivial) (h.call hkeeps happ) hrest

theorem Exact.tick {P : SwState → Prop} {Foreign : SwState → CodeMemory → Prop}
    (hP : KeptByStops table (fun _ => True) Foreign P) {t t' : V5Target} {gdb gdb' : GdbState}
    {input : GdbInput} {replies : List (TargetCall × TargetReply)}
    (hkeeps : t.toSwState.Keeps P true) (h : w.Exact t.memory)
    (htick : DebugSession.tickStateMachine table gdb t input = .ok (gdb', t', replies)) :
    (w.afterCalls table t replies).Exact t'.memory := by
  cases DebugSession.tick_outcome htick with
  | packet calls next t' replies hrun => exact h.calls hP hkeeps hrun
  | _ => exact h

/-- Leaving the stop: the lines of the tracked breakpoints come up to date. -/
theorem Exact.unpause (hplaced : s.AllPlaced) (h : w.Exact s.memory) :
    (∀ x ∈ w.written, (s.setBreakpointsIgnored false).memory.FreshAt x) ↔
      ∀ x ∈ w.exposed, (s.setBreakpointsIgnored false).TrackedLine x := by
  have hkept : ∀ x, ¬s.TrackedLine x →
      ((s.setBreakpointsIgnored false).memory.FreshAt x ↔ s.memory.FreshAt x) := by
    intro x hx
    obtain ⟨hdata, hfetch⟩ := (SwState.unpause_lines hplaced x).2 hx
    rw [CodeMemory.FreshAt, hdata, hfetch]
    rfl
  constructor
  · intro hfresh x hx
    obtain ⟨hwritten, hstale⟩ := (h x).mp hx
    by_contra hline
    rw [SwState.trackedLine_setBreakpointsIgnored] at hline
    exact hstale ((hkept x hline).mp (hfresh x hwritten))
  · intro hlines x hx
    by_cases hline : s.TrackedLine x
    · exact (SwState.unpause_lines hplaced x).1 hline
    · rw [hkept x hline]
      by_contra hstale
      have htracked := hlines x ((h x).mpr ⟨hx, hstale⟩)
      rw [SwState.trackedLine_setBreakpointsIgnored] at htracked
      exact hline htracked

structure Kept (s : Sys) (w : Edits) : Prop where
  stopped : s.inMonitor = true → w.Exact s.session.target.memory
  returning : ∀ unpause, s.phase = .returning unpause →
    ((∀ x ∈ w.written, s.session.target.memory.FreshAt x) ↔
      ∀ x ∈ w.exposed, s.session.target.toSwState.TrackedLine x)

theorem Kept.of_monitor {s : Sys} {gdb : GdbState} (hphase : s.phase = .monitor gdb)
    (h : w.Exact s.session.target.memory) : Kept s w := by
  refine ⟨fun _ => h, ?_⟩
  intro unpause hreturning
  rw [hphase] at hreturning
  cases hreturning

theorem Kept.of_returning {s : Sys} {unpause : Bool} (hphase : s.phase = .returning unpause)
    (h : (∀ x ∈ w.written, s.session.target.memory.FreshAt x) ↔
      ∀ x ∈ w.exposed, s.session.target.toSwState.TrackedLine x) : Kept s w := by
  refine ⟨?_, fun _ _ => h⟩
  intro hmon
  rw [Sys.inMonitor, hphase] at hmon
  cases hmon

theorem Kept.of_program {s : Sys} (hphase : s.phase = .program) : Kept s w := by
  constructor
  · intro hmon
    rw [Sys.inMonitor, hphase] at hmon
    cases hmon
  · intro unpause hreturning
    rw [hphase] at hreturning
    cases hreturning

theorem Kept.step {s s' : Sys} {e : SysEvent}
    (hkeeps : s.session.target.toSwState.Keeps SwState.AllPlaced s.inMonitor) (h : Kept s w)
    (hstep : Sys.Step table s e s') : Kept s' (w.afterEvent table s e) := by
  have hP := SwState.allPlaced_kept table
  cases hstep with
  | unattended =>
    refine .of_returning rfl (iff_of_true ?_ ?_)
    · intro x hx
      cases hx
    · intro x hx
      cases hx
  | attended => exact .of_monitor rfl (none_exact _)
  | tick hphase htick =>
    have hmon : s.inMonitor = true := by rw [Sys.inMonitor, hphase]
    rw [hmon] at hkeeps
    exact .of_monitor rfl ((h.stopped hmon).tick hP hkeeps htick)
  | lastTick hphase htick =>
    have hmon : s.inMonitor = true := by rw [Sys.inMonitor, hphase]
    rw [hmon] at hkeeps
    have hplaced := (hP.tick hkeeps htick fun _ _ => trivial).holds
    exact .of_returning rfl (((h.stopped hmon).tick hP hkeeps htick).unpause hplaced)
  | «return» => exact .of_program rfl
  | poll hphase hpoll =>
    obtain ⟨hw, interruptPending, rfl⟩ := DebugSession.poll_frame hpoll
    exact ⟨h.stopped, h.returning⟩
  | pollBusy => exact h
  | run hphase => exact .of_program hphase

theorem kept_of_run {debugId : BitVec 32} {mmio : DebugLogic} {memory : CodeMemory}
    {exitFunc : Addr} {stopMotorsOnBreak : Bool} {session : DebugSession}
    (hboot : DebugSession.boot debugId mmio memory exitFunc stopMotorsOnBreak = .ok session)
    {es : List SysEvent} {s : Sys}
    (hrun : Run (Ghost (Sys.Step table) (afterEvent table)) (Sys.start session, none) es (s, w)) :
    Kept s w := by
  have hinv := hrun.invariant
    (P := fun (es : List SysEvent) (p : Sys × Edits) =>
      Run (Ghost (Sys.Step table) (afterEvent table)) (Sys.start session, none) es p ∧
        Kept p.1 p.2)
    ⟨.nil _, .of_program rfl⟩ (by
      rintro es ⟨t, v⟩ e ⟨t', v'⟩ ⟨hbefore, hkept⟩ ⟨hstep, rfl⟩
      exact ⟨hbefore.snoc ⟨hstep, rfl⟩,
        hkept.step (Sys.allPlaced_of_run hboot hbefore.forget) hstep⟩)
  exact hinv.2

/-- There are books for every run. -/
theorem exists_kept {debugId : BitVec 32} {mmio : DebugLogic} {memory : CodeMemory}
    {exitFunc : Addr} {stopMotorsOnBreak : Bool} {session : DebugSession}
    (hboot : DebugSession.boot debugId mmio memory exitFunc stopMotorsOnBreak = .ok session)
    {es : List SysEvent} {s : Sys} (hrun : Run (Sys.Step table) (Sys.start session) es s) :
    ∃ w, Run (Ghost (Sys.Step table) (afterEvent table)) (Sys.start session, none) es (s, w) ∧
      Kept s w := by
  obtain ⟨w, hghost⟩ := hrun.exists_ghost (afterEvent table) none
  exact ⟨w, hghost, kept_of_run hboot hghost⟩

end Edits

namespace Sys

/-- Whenever a stop is over, the program executes all that GDB has written in it, if and
only if every byte that was exposed by then lies in the line of a tracked breakpoint. -/
theorem written_code_executed_iff (table : TranslationTable) (debugId : BitVec 32)
    (mmio : DebugLogic) (memory : CodeMemory) (exitFunc : Addr) (stopMotorsOnBreak : Bool)
    (session : DebugSession)
    (hboot : DebugSession.boot debugId mmio memory exitFunc stopMotorsOnBreak = .ok session)
    (es : List SysEvent) (s : Sys) (w : Edits)
    (hrun : Run (Ghost (Step table) (Edits.afterEvent table)) (start session, .none) es (s, w))
    (unpauseScheduler : Bool) (hphase : s.phase = .returning unpauseScheduler) :
    (∀ x ∈ w.written, s.session.target.memory.fetch x = s.session.target.memory.data x) ↔
      ∀ x ∈ w.exposed, s.session.target.toSwState.TrackedLine x :=
  (Edits.kept_of_run hboot hrun).returning unpauseScheduler hphase

/-- GDB writes a byte in the first stop and lets the program go on. -/
theorem exists_write_and_resume (addr : Addr) (hfits : addr.toNat + 1 < 2 ^ 32) :
    ∃ (session : DebugSession) (es : List SysEvent) (s : Sys) (sw : SwState) (w : Edits)
      (unpause : Bool),
      DebugSession.boot 0 DebugSession.clearedLogic ⟨fun _ => 0, fun _ => 0⟩ 0x03800000 false =
        .ok session ∧
      Run (Ghost (Step openTable) (Edits.afterEvent openTable)) (start session, .none) es (s, w) ∧
      s.phase = .returning unpause ∧
      (SwState.empty ⟨fun _ => 0, fun _ => 0⟩).registerSwBreakpoint 0x03800000 false true =
        .ok (sw, .ok ()) ∧
      (∀ x, s.session.target.toSwState.TrackedLine x ↔ SameLine x 0x03800000) ∧
      w = Edits.none.afterCall (sw.setBreakpointsIgnored true)
        (.writeAddrs addr [1], .written (.ok ())) := by
  obtain ⟨session, ctx, s, sw, hboot, hstop, hphase, _, _, hreg, hsw⟩ :=
    exists_first_stop openTable
  have haccess : [(1 : BitVec 8)].length ≤
      testAccess openTable addr (saturatingAdd addr [(1 : BitVec 8)].length) true :=
    Nat.le_of_eq (testAccess_of_access (openTable_access · true) hfits).symm
  have hcalls : V5Target.runCalls openTable [.writeAddrs addr [1], .resume] s.session.target =
      .ok ({ s.session.target with
          memory := s.session.target.memory.store addr [1], monitorStatus := .resumingProgram },
        [(.writeAddrs addr [1], .written (.ok ())), (.resume, .done)]) := by
    simp only [V5Target.runCalls, V5Target.applyCall, V5Target.writeAddrs,
      writeMemory_of_access haccess, bind, Except.bind, pure, Except.pure, if_true]
  obtain ⟨s', unpause, hgo, hphase', _, hsw'⟩ := exists_lastTick hphase hcalls rfl
  have hlines : ∀ x, s'.session.target.toSwState.TrackedLine x ↔ SameLine x 0x03800000 := by
    intro x
    rw [hsw', SwState.trackedLine_setBreakpointsIgnored]
    show s.session.target.toSwState.TrackedLine x ↔ _
    rw [hsw, SwState.trackedLine_setBreakpointsIgnored]
    obtain ⟨_, i, b, hb, haddr, _⟩ := SwState.exists_internal_of_register hreg
    constructor
    · rintro ⟨j, c, hc, hline⟩
      rwa [SwState.instrAddr_of_register hreg hc] at hline
    · intro hline
      exact ⟨i, b, hb, by rwa [haddr]⟩
  have hfirst : Ghost (Step openTable) (Edits.afterEvent openTable) (start session, .none)
      (.stop ctx ⟨0⟩) (s, .none) := ⟨hstop, rfl⟩
  have hlast : Ghost (Step openTable) (Edits.afterEvent openTable) (s, .none)
      (.tick (.packet [.writeAddrs addr [1], .resume] .idle)
        [(.writeAddrs addr [1], .written (.ok ())), (.resume, .done)])
      (s', Edits.none.afterCall (sw.setBreakpointsIgnored true)
        (.writeAddrs addr [1], .written (.ok ()))) := by
    refine ⟨hgo, ?_⟩
    simp only [Edits.afterEvent, Edits.afterCalls, V5Target.applyCall, V5Target.writeAddrs,
      writeMemory_of_access haccess, if_true, hsw]
    rfl
  exact ⟨session, _, s', sw, _, unpause, hboot, (Run.single hfirst).snoc hlast, hphase', hreg,
    hlines, rfl⟩

/-- A byte in the line of the debugger's own breakpoint. -/
theorem written_code_executed_in_tracked_line :
    ∃ (s : Sys) (w : Edits), (0x03800010 : Addr) ∈ w.written ∧
      ∀ x ∈ w.written, s.session.target.memory.fetch x = s.session.target.memory.data x := by
  obtain ⟨session, es, s, sw, w, unpause, hboot, hrun, hphase, _, hlines, rfl⟩ :=
    exists_write_and_resume 0x03800010 (by decide)
  refine ⟨s, _, Edits.mem_written_of_write.mpr (.inl (by decide)), (written_code_executed_iff
    openTable _ _ _ _ _ session hboot es s _ hrun unpause hphase).mpr ?_⟩
  intro x hx
  rw [hlines]
  rw [Edits.mem_exposed_of_write] at hx
  by_cases hin : Within 0x03800010 1 x
  · rw [within_one.mp hin]
    decide
  · rw [List.length_singleton, if_neg hin] at hx
    cases hx

/-- GDB changes a byte of code far from any breakpoint: the program goes on with the old one. -/
theorem written_code_not_executed :
    ∃ (session : DebugSession) (es : List SysEvent) (s : Sys) (w : Edits) (unpause : Bool),
      DebugSession.boot 0 DebugSession.clearedLogic ⟨fun _ => 0, fun _ => 0⟩ 0x03800000 false =
        .ok session ∧
      Run (Ghost (Step openTable) (Edits.afterEvent openTable)) (start session, .none) es (s, w) ∧
      s.phase = .returning unpause ∧ (0x03900000 : Addr) ∈ w.written ∧
      s.session.target.memory.fetch 0x03900000 ≠ s.session.target.memory.data 0x03900000 := by
  obtain ⟨session, es, s, sw, w, unpause, hboot, hrun, hphase, hreg, hlines, rfl⟩ :=
    exists_write_and_resume 0x03900000 (by decide)
  have hal : Instruction.AlignedFor false 0x03800000 := by decide
  have hcall : SwState.PatchStep (.empty ⟨fun _ => 0, fun _ => 0⟩)
      (.register 0x03800000 false true, .registered (.ok ())) sw := by
    refine ⟨hal, .inr fun _ => rfl, ?_⟩
    rw [CallStep, SwState.applyCall, hreg]
    rfl
  have hpause : SwState.PatchStep sw (.setIgnored true, .done) (sw.setBreakpointsIgnored true) :=
    ⟨trivial, trivial, rfl⟩
  have hinv := hpause.patchInv (hcall.patchInv (SwState.empty_patchInv rfl))
  have hdata := hinv.backed.data_of_paused hinv.table
    (SwState.setBreakpointsIgnored_breaksPaused sw true) (x := 0x03900000) trivial
  have hfetch : (sw.setBreakpointsIgnored true).memory.fetch 0x03900000 = 0 :=
    (hinv.coherent 0x03900000).trans hdata
  refine ⟨session, es, s, _, unpause, hboot, hrun, hphase,
    Edits.mem_written_of_write.mpr (.inl (by decide)), ?_⟩
  intro hsame
  have hall := ((Edits.kept_of_run hboot hrun).returning unpause hphase).mp (by
    intro x hx
    rcases Edits.mem_written_of_write.mp hx with hin | hin
    · rw [within_one.mp hin]
      exact hsame
    · cases hin)
  have hexposed := hall 0x03900000 (by
    rw [Edits.mem_exposed_of_write, if_pos (by decide), hfetch]
    decide)
  rw [hlines] at hexposed
  exact absurd hexposed (by decide)

end Sys
end V5gdb
