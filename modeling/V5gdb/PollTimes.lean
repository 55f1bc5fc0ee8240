import V5gdb.InterruptReports
import V5gdb.RateLimits

/-!
When the interrupt handler polls.
It goes by a millisecond clock of 32 bits. As long as interrupts keep coming, polls are
spaced and never late, and a Ctrl-C that waits while the program runs is found within the
interval.
-/
namespace V5gdb

open RecordLayouts Transitions RateLimits

def HookedEvent.irqTime? : HookedEvent → Option (BitVec 32)
  | irq now _ => some now
  | _ => none

namespace HookedSys

variable {table : TranslationTable} {s s' : HookedSys} {e : HookedEvent}

instance (s : HookedSys) (now : BitVec 32) : Decidable (s.pollIsDue now) :=
  inferInstanceAs (Decidable (_ ≤ _))

def notePoll (s : HookedSys) (e : HookedEvent) (polls : List (BitVec 32)) : List (BitVec 32) :=
  match e with
  | .irq now _ => if s.pollIsDue now then polls ++ [now] else polls
  | _ => polls

theorem lastPoll_of_step (hstep : Step table s e s') :
    s'.lastPollTimeMs = (served IRQ_POLL_INTERVAL_MS s.lastPollTimeMs e.irqTime?.toList).getLastD
      s.lastPollTimeMs ∧
    ∀ polls, notePoll s e polls =
      polls ++ served IRQ_POLL_INTERVAL_MS s.lastPollTimeMs e.irqTime?.toList := by
  cases hstep with
  | sys | cpsid | finish => exact ⟨rfl, fun polls => (List.append_nil polls).symm⟩
  | skip _ hsoon =>
    have hnot : ¬IsDue IRQ_POLL_INTERVAL_MS s.lastPollTimeMs _ := hsoon
    simp [HookedEvent.irqTime?, served, hnot, notePoll, hsoon]
  | poll _ hdue =>
    have hpassed : IsDue IRQ_POLL_INTERVAL_MS s.lastPollTimeMs _ := hdue
    simp [HookedEvent.irqTime?, served, hpassed, notePoll, hdue]

theorem polls_of_run {es : List HookedEvent} {polls : List (BitVec 32)}
    (hrun : Run (Ghost (Step table) notePoll) (s, []) es (s', polls)) :
    polls = served IRQ_POLL_INTERVAL_MS s.lastPollTimeMs (es.filterMap HookedEvent.irqTime?) ∧
      s'.lastPollTimeMs = polls.getLastD s.lastPollTimeMs := by
  refine hrun.invariant (P := fun es q => q.2 = served IRQ_POLL_INTERVAL_MS s.lastPollTimeMs
    (es.filterMap HookedEvent.irqTime?) ∧ q.1.lastPollTimeMs = q.2.getLastD s.lastPollTimeMs)
    ⟨rfl, rfl⟩ ?_
  rintro es ⟨t, polls⟩ e ⟨t', polls'⟩ ⟨hpolls, hlast⟩ ⟨hstep, hnote⟩
  obtain ⟨hlast', hnoted⟩ := lastPoll_of_step hstep
  have hpolls' : polls' =
      polls ++ served IRQ_POLL_INTERVAL_MS t.lastPollTimeMs e.irqTime?.toList :=
    hnote.trans (hnoted polls)
  have htimes : (es ++ [e]).filterMap HookedEvent.irqTime? =
      es.filterMap HookedEvent.irqTime? ++ e.irqTime?.toList := by
    rw [List.filterMap_append]
    cases hnow : e.irqTime? <;> simp [hnow]
  have hlatest : t.lastPollTimeMs = polls.getLastD s.lastPollTimeMs := hlast
  have hso : polls = served IRQ_POLL_INTERVAL_MS s.lastPollTimeMs
      (es.filterMap HookedEvent.irqTime?) := hpolls
  constructor
  · rw [htimes, served_append, ← hso, ← hlatest]
    exact hpolls'
  · have hmore : t'.lastPollTimeMs = polls'.getLastD s.lastPollTimeMs := by
      rw [hpolls', getLastD_append, ← hlatest]
      exact hlast'
    exact hmore

/-- While interrupts are never more than `gap` milliseconds apart, polls are at least ten
milliseconds apart and at most `gap` later than that, and at every interrupt the latest poll
is less than ten milliseconds old, however often the clock has wrapped around. -/
theorem polls_paced (table : TranslationTable) (s s' : HookedSys) (es : List HookedEvent)
    (polls : List (BitVec 32)) (hrun : Run (Ghost (Step table) notePoll) (s, []) es (s', polls))
    (last : ℕ) (hlast : s.lastPollTimeMs = BitVec.ofNat 32 last) (times : List ℕ)
    (htimes : es.filterMap HookedEvent.irqTime? = times.map (BitVec.ofNat 32)) (gap : ℕ)
    (hgap : IRQ_POLL_INTERVAL_MS + gap ≤ 2 ^ 32) (hsteady : Steady gap (last :: times)) :
    ∃ pollTimes : List ℕ, polls = pollTimes.map (BitVec.ofNat 32) ∧ pollTimes.Sublist times ∧
      Spaced IRQ_POLL_INTERVAL_MS gap (last :: pollTimes) ∧
      times.getLastD last < pollTimes.getLastD last + IRQ_POLL_INTERVAL_MS := by
  obtain ⟨hpolls, _⟩ := polls_of_run hrun
  have hpos : last < last + IRQ_POLL_INTERVAL_MS := Nat.lt_add_of_pos_right (by decide)
  obtain ⟨pollTimes, hserved, hspaced, hsub, _, hfresh⟩ :=
    exists_served hgap (le_refl last) hpos hsteady
  refine ⟨pollTimes, ?_, hsub, hspaced, hfresh⟩
  rw [hpolls, htimes, hlast, hserved]

/-- An interrupt 4 ms after the last poll is passed over, and the next one polls. -/
theorem polls_paced_start :
    ∃ (s s' : HookedSys) (polls : List (BitVec 32)) (pollTimes : List ℕ),
      Run (Ghost (Step ⟨fun _ => ⟨0⟩⟩) notePoll) (s, []) [.irq 4 [], .irq 12 []] (s', polls) ∧
      polls = pollTimes.map (BitVec.ofNat 32) ∧
      Spaced IRQ_POLL_INTERVAL_MS 8 (0 :: pollTimes) ∧ 2 < pollTimes.getLastD 0 := by
  obtain ⟨session, hboot⟩ := DebugSession.exists_boot_one_slot
  have hstage := (DebugSession.booted_of_boot hboot).stage
  have hquiet : session.poll [] = .ok session := by
    rw [DebugSession.poll, if_neg (by rw [hstage]; exact SessionStage.noConfusion)]
  have hskip : Step ⟨fun _ => ⟨0⟩⟩ (start session) (.irq 4 []) (start session) := by
    refine .skip rfl ?_
    show ¬IRQ_POLL_INTERVAL_MS ≤ ((4 : BitVec 32) - 0).toNat
    decide
  have hpoll : Step ⟨fun _ => ⟨0⟩⟩ (start session) (.irq 12 [])
      { start session with lastPollTimeMs := 12 } := by
    refine .poll rfl ?_ (.poll rfl hquiet)
    show IRQ_POLL_INTERVAL_MS ≤ ((12 : BitVec 32) - 0).toNat
    decide
  obtain ⟨polls, hrun⟩ := ((Run.single hskip).snoc hpoll).exists_ghost notePoll []
  obtain ⟨pollTimes, hpolls, _, hspaced, hfresh⟩ := polls_paced ⟨fun _ => ⟨0⟩⟩ _ _ _ polls hrun
    0 rfl [4, 12] rfl 8 (by decide) (by simp [Steady])
  refine ⟨_, _, polls, pollTimes, hrun, hpolls, hspaced, ?_⟩
  have hlate : 12 < pollTimes.getLastD 0 + 10 := hfresh
  omega

end HookedSys

namespace Linked

variable {π : Type*} {table : TranslationTable} {P : SerialPort π} {s s' : Linked π}
  {e : LinkEvent} {es : List LinkEvent}

theorem lastPoll_of_step (hstep : Step table P s e s') : s'.hooked.lastPollTimeMs =
    (served IRQ_POLL_INTERVAL_MS s.hooked.lastPollTimeMs e.irqTime?.toList).getLastD
      s.hooked.lastPollTimeMs := by
  cases hstep with
  | arrive | directRead | directPeek | readChar | peekChar => rfl
  | fed _ _ hstep => exact (HookedSys.lastPoll_of_step hstep).1
  | poll _ _ hstep | irq _ hstep => exact (HookedSys.lastPoll_of_step hstep).1
  | @silent he _ hsilent hstep =>
    cases he with
    | irq => exact hsilent.elim
    | _ => exact (HookedSys.lastPoll_of_step hstep).1

theorem lastPoll_of_run (hrun : Run (Step table P) s es s') : s'.hooked.lastPollTimeMs =
    (served IRQ_POLL_INTERVAL_MS s.hooked.lastPollTimeMs
      (es.filterMap LinkEvent.irqTime?)).getLastD s.hooked.lastPollTimeMs := by
  refine hrun.invariant (P := fun es t => t.hooked.lastPollTimeMs =
    (served IRQ_POLL_INTERVAL_MS s.hooked.lastPollTimeMs
      (es.filterMap LinkEvent.irqTime?)).getLastD s.hooked.lastPollTimeMs) rfl ?_
  intro es t e t' ht hstep
  have htimes : (es ++ [e]).filterMap LinkEvent.irqTime? =
      es.filterMap LinkEvent.irqTime? ++ e.irqTime?.toList := by
    rw [List.filterMap_append]
    cases hnow : e.irqTime? <;> simp [hnow]
  rw [htimes, served_append, getLastD_append, ← ht]
  exact lastPoll_of_step hstep

/-- Between stops the program runs, and a Ctrl-C that waits is found by the first poll
that is due. -/
structure Searched (last : BitVec 32) (P : SerialPort π) (es : List LinkEvent) (s : Linked π) :
    Prop where
  out : s.hooked.sys.inMonitor = false
  stage : s.hooked.sys.session.stage = .active .running
  found : (∃ e ∈ es, e.SeesCtrlC) ∨
    (DebugSession.CTRL_C ∈ P.waiting s.port .USER ∧ s.hooked.lastPollTimeMs = last ∧
      ∀ now ∈ es.filterMap LinkEvent.irqTime?, ¬IsDue IRQ_POLL_INTERVAL_MS last now)

theorem Searched.irq {last : BitVec 32} (h : s.Searched last P es) {now : BitVec 32}
    {bytes : Bytes} {hooked : HookedSys}
    (hstep : HookedSys.Step table s.hooked (.irq now bytes) hooked) :
    hooked.sys.inMonitor = false ∧ hooked.sys.session.stage = .active .running := by
  cases hstep with
  | skip => exact ⟨h.out, h.stage⟩
  | poll _ _ hstep =>
    cases hstep with
    | pollBusy => exact ⟨h.out, h.stage⟩
    | poll _ hpoll =>
      obtain ⟨_, _, rfl⟩ := DebugSession.poll_frame hpoll
      exact ⟨h.out, h.stage⟩

theorem Searched.kept {last : BitVec 32} (h : s.Searched last P es)
    (hout : s'.hooked.sys.inMonitor = false)
    (hstage : s'.hooked.sys.session.stage = .active .running)
    (hpoll : s'.hooked.lastPollTimeMs = s.hooked.lastPollTimeMs)
    (hwait : DebugSession.CTRL_C ∈ P.waiting s.port .USER →
      DebugSession.CTRL_C ∈ P.waiting s'.port .USER)
    (hirq : ∀ now, e.irqTime? = some now →
      ¬IsDue IRQ_POLL_INTERVAL_MS s.hooked.lastPollTimeMs now) :
    s'.Searched last P (es ++ [e]) where
  out := hout
  stage := hstage
  found := by
    rcases h.found with ⟨seen, hmem, hsees⟩ | ⟨hwaits, hlast, hnone⟩
    · exact .inl ⟨seen, List.mem_append_left _ hmem, hsees⟩
    · refine .inr ⟨hwait hwaits, hpoll.trans hlast, ?_⟩
      rw [List.filterMap_append, List.forall_mem_append]
      refine ⟨hnone, ?_⟩
      intro now hnow
      rw [← hlast]
      refine hirq now ?_
      obtain ⟨f, hf, hfnow⟩ := List.mem_filterMap.mp hnow
      rwa [List.mem_singleton.mp hf] at hfnow

theorem Searched.step {last : BitVec 32} (h : s.Searched last P es)
    (hstep : Step table P s e s') (hstop : e.isStop = false) :
    s'.Searched last P (es ++ [e]) := by
  have hstarted : s.redirected := by
    rw [redirected, h.stage]
    exact SessionStage.noConfusion
  have hnot : ∀ gdb, s.hooked.sys.phase ≠ .monitor gdb := by
    intro gdb hphase
    have hout := h.out
    rw [Sys.inMonitor, hphase] at hout
    cases hout
  cases hstep with
  | arrive channel byte hport =>
    refine h.kept h.out h.stage rfl ?_ (fun _ hnow => by cases hnow)
    intro hwait
    rw [hport]
    by_cases huser : channel = .USER
    · subst huser
      rw [Function.update_self]
      exact List.mem_append_left _ hwait
    · rwa [Function.update_of_ne (Ne.symm huser)]
  | directRead _ _ hdirect | directPeek _ _ hdirect => exact absurd hstarted hdirect
  | readChar channel =>
    refine h.kept h.out h.stage rfl ?_ (fun _ hnow => by cases hnow)
    intro hwait
    have hrest := P.userReadChar_waiting s.port channel
    exact hrest.symm ▸ hwait
  | peekChar => exact h.kept h.out h.stage rfl id (fun _ hnow => by cases hnow)
  | fed hphase => exact absurd hphase (hnot _)
  | @silent he hooked hsilent hstep =>
    cases hstep with
    | sys _ hhooked hstep =>
      cases hstep with
      | unattended | attended => cases hstop
      | tick hphase | lastTick hphase => exact absurd hphase (hnot _)
      | «return» | poll | pollBusy => cases hhooked
      | run => exact h.kept h.out h.stage rfl id (fun _ hnow => by cases hnow)
    | skip | poll => exact hsilent.elim
    | cpsid => exact h.kept h.out h.stage rfl id (fun _ hnow => by cases hnow)
    | finish _ hstep =>
      cases hstep
      exact h.kept rfl h.stage rfl id (fun _ hnow => by cases hnow)
  | @poll _ bytes _ _ hpolls hdrain hstep =>
    have hbytes : bytes = SerialPort.seen (P.waiting s.port .USER) := by
      rw [← (P.drain_spec (Nat.lt_succ_self (P.waiting s.port .USER).length)).1, hdrain]
    obtain ⟨hout', hstage'⟩ := h.irq hstep
    refine ⟨hout', hstage', .inl ?_⟩
    rcases h.found with ⟨seen, hmem, hsees⟩ | ⟨hwait, _⟩
    · exact ⟨seen, List.mem_append_left _ hmem, hsees⟩
    · refine ⟨_, List.mem_append_right _ (List.mem_singleton_self _), ?_⟩
      rw [seesCtrlC_irq, hbytes, SerialPort.mem_seen_iff]
      exact hwait
  | irq hnotDue hstep =>
    have hsoon : ¬s.hooked.pollIsDue _ := fun hdue => hnotDue ⟨hdue, h.out, h.stage⟩
    cases hstep with
    | poll _ hdue => exact absurd hdue hsoon
    | skip =>
      refine h.kept h.out h.stage rfl id ?_
      intro now hnow
      obtain rfl := Option.some.inj hnow
      exact hsoon

/-- A Ctrl-C that waits while the program runs leads to a halt within the interval, as long
as interrupts keep coming: however many bytes are in front of it, whatever the program reads,
and wherever the clock wraps around. -/
theorem ctrlC_answered (table : TranslationTable) (P : SerialPort π) (debugId : BitVec 32)
    (mmio : DebugLogic) (memory : CodeMemory) (exitFunc : Addr) (stopMotorsOnBreak : Bool)
    (session : DebugSession) (p : π)
    (hboot : DebugSession.boot debugId mmio memory exitFunc stopMotorsOnBreak = .ok session)
    (es es' : List LinkEvent) (s s' : Linked π)
    (hrun : Run (Step table P) (start session p) es s) (hout : s.hooked.sys.inMonitor = false)
    (hstage : s.hooked.sys.session.stage = .active .running)
    (hwait : DebugSession.CTRL_C ∈ P.waiting s.port .USER)
    (hrun' : Run (Step table P) s es' s') (hstop : ∀ e ∈ es', e.isStop = false)
    (gap : ℕ) (hgap : IRQ_POLL_INTERVAL_MS + gap ≤ 2 ^ 32) (times times' : List ℕ)
    (htimes : es.filterMap LinkEvent.irqTime? = times.map (BitVec.ofNat 32))
    (htimes' : es'.filterMap LinkEvent.irqTime? = times'.map (BitVec.ofNat 32))
    (hsteady : Steady gap (0 :: times)) (hsteady' : Steady gap (times.getLastD 0 :: times'))
    (hlong : times.getLastD 0 + IRQ_POLL_INTERVAL_MS ≤ times'.getLastD (times.getLastD 0)) :
    s'.hooked.sys.session.target.interruptPending = true := by
  have hsearched := hrun'.invariant
    (P := fun es t => (∀ e ∈ es, e.isStop = false) →
      t.Searched s.hooked.lastPollTimeMs P es)
    (fun _ => ⟨hout, hstage, .inr ⟨hwait, rfl, List.forall_mem_nil _⟩⟩) (by
      intro es t e t' ht hstep hnone
      rw [List.forall_mem_append, List.forall_mem_singleton] at hnone
      exact (ht hnone.1).step hstep hnone.2) hstop
  rw [(tracks_of_run hboot (hrun.trans hrun')).pending]
  rcases hsearched.found with ⟨e, hmem, hsees⟩ | ⟨_, _, hnone⟩
  · obtain ⟨before, after, rfl⟩ := List.append_of_mem hmem
    refine ⟨es ++ before, e, after, (List.append_assoc _ _ _).symm, hsees, ?_⟩
    intro f hf
    have hquiet := hstop f (List.mem_append_right _ (List.mem_cons_of_mem _ hf))
    exact Bool.eq_false_iff.mp hquiet
  · -- no poll was due in all this time
    exfalso
    have hpos : 0 < 0 + IRQ_POLL_INTERVAL_MS := by decide
    obtain ⟨before, hserved, _, _, hold, hfresh⟩ :=
      exists_served hgap (le_refl 0) hpos hsteady
    have hlast := lastPoll_of_run hrun
    have hzero : (start session p).hooked.lastPollTimeMs = BitVec.ofNat 32 0 := rfl
    rw [htimes, hzero, hserved, List.getLastD_map] at hlast
    obtain ⟨after, hserved', _, _, _, hfresh'⟩ := exists_served hgap hold hfresh hsteady'
    rw [hlast, htimes', ← served_eq_nil_iff, hserved', List.map_eq_nil_iff] at hnone
    rw [hnone, List.getLastD_nil] at hfresh'
    omega

/-- A Ctrl-C comes after the first console, and an interrupt after ten milliseconds. -/
theorem ctrlC_answered_first_console :
    ∃ s s' : Linked (Channel → Bytes), s.port .USER = [DebugSession.CTRL_C] ∧
      Run (Step ⟨fun _ => ⟨0⟩⟩ queuePort) s [.irq 10 [DebugSession.CTRL_C]] s' ∧
      s'.hooked.sys.session.target.interruptPending = true := by
  obtain ⟨session, s₁, s, hboot, hrun₁, _, _, _, _, _, hrun₂, hstage, hlast, hopen,
    ⟨unpause, hphase⟩, hport, _⟩ := exists_first_console ⟨fun _ => ⟨0⟩⟩
  have hrun := hrun₁.trans hrun₂
  have hout : s.hooked.sys.inMonitor = false := by rw [Sys.inMonitor, hphase]
  have hdue : s.hooked.pollIsDue 10 := by
    rw [HookedSys.pollIsDue, hlast]
    decide
  obtain ⟨s', hirq, _⟩ := (tracks_of_run hboot hrun).exists_seen ⟨fun _ => ⟨0⟩⟩
    ⟨hdue, hout, hstage⟩ hopen hport
  have hwait : DebugSession.CTRL_C ∈ queuePort.waiting s.port .USER := by
    rw [show queuePort.waiting s.port .USER = _ from hport]
    exact List.mem_singleton_self _
  refine ⟨s, s', hport, Run.single hirq, ?_⟩
  exact ctrlC_answered ⟨fun _ => ⟨0⟩⟩ queuePort 0 _ _ _ _ session _ hboot _ _ s s' hrun hout
    hstage hwait (Run.single hirq) (by simp [LinkEvent.isStop]) 10 (by decide) [] [10] rfl rfl
    (by simp [Steady]) (by simp [Steady]) (by decide)

end Linked
end V5gdb
