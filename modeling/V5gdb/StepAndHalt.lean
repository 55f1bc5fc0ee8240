import V5gdb.Startup
import V5gdb.TargetHardware

/-!
Single steps and asynchronous halts over whole runs of the system.
The account of the hardware breakpoints is kept by every step: outside the
monitor the only mismatching breakpoint is the trap, an entry takes it away, and
one slot is always there for it.
-/
namespace V5gdb

open RecordLayouts Transitions

def noteEvent (user : Finset HwKey) : SysEvent → Finset HwKey
  | .tick _ replies => replies.foldl noteReply user
  | _ => user

/-- The hardware breakpoints that GDB added and has not removed. -/
def userKeys (es : List SysEvent) : Finset HwKey := es.foldl noteEvent ∅

theorem userKeys_append (es : List SysEvent) (e : SysEvent) :
    userKeys (es ++ [e]) = noteEvent (userKeys es) e := by
  simp [userKeys]

namespace V5Target

variable {n : ℕ} {user : Finset HwKey} {lock : Bool} {t t' : V5Target} {table : TranslationTable}

theorem applyCall_ready {c : TargetCall} {r : TargetReply} (h : t.Ready n user lock)
    (happ : t.applyCall table c = .ok (t', r)) : t'.Ready n (noteReply user (c, r)) lock := by
  rcases applyCall_cases table h c with ⟨e, herr, _⟩ | ⟨t'', r', hok, ht''⟩
  · rw [herr] at happ
    cases happ
  · rw [hok] at happ
    obtain ⟨rfl, rfl⟩ := Prod.mk.inj (Except.ok.inj happ)
    exact ht''

theorem runCalls_cons {c : TargetCall} {cs : List TargetCall}
    {replies : List (TargetCall × TargetReply)}
    (h : runCalls table (c :: cs) t = .ok (t', replies)) :
    ∃ t₁ r rs, t.applyCall table c = .ok (t₁, r) ∧ runCalls table cs t₁ = .ok (t', rs) ∧
      replies = (c, r) :: rs := by
  rw [runCalls] at h
  obtain ⟨⟨t₁, r⟩, happ, h⟩ := Exec.bind_ok.mp h
  obtain ⟨⟨t₂, rs⟩, hrest, h⟩ := Exec.bind_ok.mp h
  obtain ⟨rfl, rfl⟩ := Prod.mk.inj (Except.ok.inj h)
  exact ⟨t₁, r, rs, happ, hrest, rfl⟩

theorem runCalls_append {cs ds : List TargetCall} {t₁ : V5Target}
    {rs ss : List (TargetCall × TargetReply)} (hfirst : runCalls table cs t = .ok (t₁, rs))
    (hrest : runCalls table ds t₁ = .ok (t', ss)) :
    runCalls table (cs ++ ds) t = .ok (t', rs ++ ss) := by
  induction cs generalizing t rs with
  | nil =>
    obtain ⟨rfl, rfl⟩ := Prod.mk.inj (Except.ok.inj hfirst)
    exact hrest
  | cons c cs ih =>
    obtain ⟨t₂, r, rs, happ, hrun, rfl⟩ := runCalls_cons hfirst
    simp only [List.cons_append, runCalls, happ, ih hrun, bind, Except.bind, pure, Except.pure]

theorem runCalls_ready {calls : List TargetCall} {replies : List (TargetCall × TargetReply)}
    (h : t.Ready n user lock) (hrun : runCalls table calls t = .ok (t', replies)) :
    t'.Ready n (replies.foldl noteReply user) lock := by
  induction calls generalizing t user replies with
  | nil =>
    obtain ⟨rfl, rfl⟩ := Prod.mk.inj (Except.ok.inj hrun)
    exact h
  | cons c cs ih =>
    obtain ⟨t₁, r, rs, happ, hrest, rfl⟩ := runCalls_cons hrun
    have hlater := ih (applyCall_ready h happ) hrest
    exact hlater

/-- A packet that panics does so in one of its callbacks, which is not refused the
hardware it needs. -/
theorem runCalls_error {calls : List TargetCall} {e : Panic} (h : t.Ready n user lock)
    (hrun : runCalls table calls t = .error e) :
    ∃ before c after t' replies, calls = before ++ c :: after ∧
      runCalls table before t = .ok (t', replies) ∧ t'.applyCall table c = .error e ∧
      t'.CallPanic e := by
  induction calls generalizing t user with
  | nil => cases hrun
  | cons c cs ih =>
    rcases applyCall_cases table h c with ⟨e', herr, hpanic⟩ | ⟨t₁, r, hok, ht₁⟩
    · rw [runCalls, herr] at hrun
      obtain rfl := Except.error.inj hrun
      exact ⟨[], c, cs, t, [], rfl, rfl, herr, hpanic⟩
    · rw [runCalls, hok] at hrun
      simp only [bind, Except.bind] at hrun
      split at hrun
      · next e' hrest =>
        obtain rfl := Except.error.inj hrun
        obtain ⟨before, c', after, t', replies, rfl, hbefore, happ, hpanic⟩ := ih ht₁ hrest
        refine ⟨c :: before, c', after, t', (c, r) :: replies, rfl, ?_, happ, hpanic⟩
        rw [runCalls, hok]
        simp only [bind, Except.bind]
        rw [hbefore]
        rfl
      · cases hrun

end V5Target

namespace DebugSession

variable {n : ℕ} {user : Finset HwKey} {lock : Bool} {s s' : DebugSession}
  {table : TranslationTable}

theorem tick_ready {gdb gdb' : GdbState} {t t' : V5Target} {input : GdbInput}
    {replies : List (TargetCall × TargetReply)} (h : t.Ready n user lock)
    (htick : tickStateMachine table gdb t input = .ok (gdb', t', replies)) :
    t'.Ready n (replies.foldl noteReply user) lock := by
  cases tick_outcome htick with
  | silent => exact h
  | packet calls next t' replies hrun => exact V5Target.runCalls_ready h hrun
  | reportExit => exact h.congr ⟨rfl, rfl, rfl, rfl⟩
  | report => exact h
  | ctrlC => exact h
  | disconnectExit => exact h.congr ⟨rfl, rfl, rfl, rfl⟩
  | disconnect => exact h

theorem handleInternalBreakpoint_sameHw (s : DebugSession) :
    s.target.SameHw s.handleInternalBreakpoint.1.target := by
  unfold handleInternalBreakpoint
  split
  · exact ⟨rfl, rfl, rfl, rfl⟩
  · next addr _ =>
    dsimp only
    split_ifs <;> exact ⟨rfl, rfl, rfl, rfl⟩

/-- Deciding what to do about a stop leaves the hardware breakpoints alone. -/
theorem handleStop_sameHw {reason : StopReason} {action : StopAction}
    (h : s.handleStop reason = .ok (s', action)) : s.target.SameHw s'.target := by
  unfold handleStop at h
  split at h
  · next id =>
    split at h
    · cases h
    · next b hb =>
      by_cases hint : b.reason.internal = true
      · rw [if_pos hint] at h
        obtain ⟨rfl, _⟩ := Prod.mk.inj (Except.ok.inj h)
        exact s.handleInternalBreakpoint_sameHw
      · rw [if_neg hint] at h
        obtain ⟨rfl, _⟩ := Prod.mk.inj (Except.ok.inj h)
        exact ⟨rfl, rfl, rfl, rfl⟩
  · obtain ⟨rfl, _⟩ := Prod.mk.inj (Except.ok.inj h)
    exact ⟨rfl, rfl, rfl, rfl⟩

theorem openConsole_target {gdb : GdbState} (h : s.openConsole = .ok (gdb, s')) :
    s'.target = s.target := by
  unfold openConsole at h
  split at h
  · obtain ⟨_, rfl⟩ := Prod.mk.inj (Except.ok.inj h)
    rfl
  · obtain ⟨_, rfl⟩ := Prod.mk.inj (Except.ok.inj h)
    rfl
  · cases h

/-- What the first half of a debug event consists of. -/
theorem beginEvent_ok {ctx : DebugEventContext} {suspends : Bool} {gdb? : Option GdbState}
    (h : s.beginEvent ctx = .ok (s', suspends, gdb?)) :
    ∃ t s₁ action, s.target.enterBreakpoint ctx = .ok (t, suspends) ∧
      ({ s with target := t } : DebugSession).handleStop t.stopReason = .ok (s₁, action) ∧
      ((action = .resume ∧ gdb? = none ∧ s' = s₁) ∨
        (action = .enterMonitor ∧ ∃ gdb, gdb? = some gdb ∧ s₁.openConsole = .ok (gdb, s'))) := by
  obtain ⟨⟨t, b⟩, henter, h⟩ := Exec.bind_ok.mp h
  obtain ⟨⟨s₁, action⟩, hstop, h⟩ := Exec.bind_ok.mp h
  cases action with
  | resume =>
    simp only [pure, Except.pure, Except.ok.injEq, Prod.mk.injEq] at h
    obtain ⟨rfl, rfl, rfl⟩ := h
    exact ⟨t, _, _, henter, hstop, Or.inl ⟨rfl, rfl, rfl⟩⟩
  | enterMonitor =>
    obtain ⟨⟨gdb, s₂⟩, hopen, h⟩ := Exec.bind_ok.mp h
    simp only [pure, Except.pure, Except.ok.injEq, Prod.mk.injEq] at h
    obtain ⟨rfl, rfl, rfl⟩ := h
    exact ⟨t, _, _, henter, hstop, Or.inr ⟨rfl, gdb, rfl, hopen⟩⟩

theorem signal_accounted (h : s.target.Accounted n user) (status : DebugStatusControl) :
    (s.signal status).target.Accounted n user := by
  obtain ⟨a, ⟨hslots, k, hk, hkeys⟩, hall⟩ := h.hasKeys
  exact ⟨⟨a, ⟨hslots, k, ⟨hk.below, hk.used, hk.configured, hk.disabled⟩, hkeys⟩, hall⟩,
    h.matching, h.reserve, h.stepAligned⟩

theorem beginEvent_ready {ctx : DebugEventContext} {suspends : Bool} {gdb? : Option GdbState}
    (h : s.target.Accounted n user) (hbegin : s.beginEvent ctx = .ok (s', suspends, gdb?)) :
    s'.target.Ready n user s.target.hwManager.locked ∧
      s'.target.singleStepRequest = none ∧
      suspends = s.target.singleStepRequest.isNone := by
  obtain ⟨t, s₁, action, henter, hstop, hcase⟩ := beginEvent_ok hbegin
  obtain ⟨hready, hreq, hsusp⟩ := V5Target.enterBreakpoint_ready h henter
  have hsame := handleStop_sameHw hstop
  have hs₁ : s'.target = s₁.target := by
    rcases hcase with ⟨_, _, rfl⟩ | ⟨_, gdb, _, hopen⟩
    · rfl
    · exact openConsole_target hopen
  rw [hs₁]
  exact ⟨hready.congr hsame, hsame.request.trans hreq, hsusp⟩

theorem prepareEntry_other {t : V5Target} {ctx : DebugEventContext}
    (hbreak : t.hwManager.lastBreakReason ≠ some .breakpoint)
    (hbkpt : t.hwManager.lastBreakReason ≠ some .bkptInstr) :
    (t.prepareEntry ctx).stopReason = .other := by
  have hlast : (t.hwManager.setLocked false).lastBreakReason = t.hwManager.lastBreakReason := rfl
  unfold V5Target.prepareEntry V5Target.classifyStop
  simp only [hlast]

/-- A stop opens the console unless it is a breakpoint of the debugger's own. -/
theorem exists_console {t : V5Target} {suspends : Bool} {ctx : DebugEventContext}
    (henter : s.target.enterBreakpoint ctx = .ok (t, suspends))
    (hstage : s.stage ≠ .transitioning)
    (htracked : ∀ id, t.stopReason = .trackedSoftwareBreak id →
      ∃ b, t.breaks id = some b ∧ b.reason = .new false) :
    ∃ s' gdb, s.beginEvent ctx = .ok (s', suspends, some gdb) ∧ s'.target = t ∧
      (s.stage = .uninitialized → gdb = .idle) := by
  have hshown : DebugSession.handleStop { s with target := t } t.stopReason =
      .ok ({ s with target := t }, .enterMonitor) := by
    cases hreason : t.stopReason with
    | trackedSoftwareBreak id =>
      obtain ⟨b, hb, hnew⟩ := htracked id hreason
      simp only [handleStop, hb, hnew]
      rfl
    | _ => rfl
  rw [beginEvent, henter]
  simp only [bind, Except.bind, hshown]
  cases hs : s.stage with
  | transitioning => exact absurd hs hstage
  | uninitialized =>
    simp only [openConsole]
    exact ⟨_, .idle, rfl, rfl, fun _ => rfl⟩
  | active gdb =>
    simp only [openConsole]
    exact ⟨_, gdb, rfl, rfl, nofun⟩

/-- A stop that is nobody's breakpoint opens the console. -/
theorem exists_beginEvent (h : s.target.Accounted n user) (hstage : s.stage ≠ .transitioning)
    (ctx : DebugEventContext)
    (hreason : (s.target.prepareEntry ctx).stopReason = .other) :
    ∃ s' gdb, s.beginEvent ctx = .ok (s', s.target.singleStepRequest.isNone, some gdb) ∧
      s'.target.exceptionCtx = ctx ∧
      s'.target.toSwState = s.target.toSwState.setBreakpointsIgnored true ∧
      (s.stage = .uninitialized → gdb = .idle) := by
  rcases V5Target.enterBreakpoint_cases h ctx with
    ⟨hun, _⟩ | ⟨hw, ctx', hok, hctx, _⟩
  · rw [hreason] at hun
    cases hun
  · obtain rfl := hctx (by rw [hreason]; decide)
    obtain ⟨s', gdb, hbegin, htarget, hgdb⟩ := exists_console hok hstage fun id hid => by
      cases hreason.symm.trans hid
    refine ⟨s', gdb, hbegin, by rw [htarget], ?_, hgdb⟩
    rw [htarget]
    rfl

/-- The end of an event puts the lock back and keeps everything else. -/
theorem endEvent_accounted (h : s.target.Ready n user lock) :
    s.endEvent.1.target.Accounted n user ∧ s.endEvent.1.target.hwManager.locked = lock := by
  refine ⟨(h.accounted.setLocked s.target.originalHwLockState).congr ⟨rfl, rfl, rfl, rfl⟩, ?_⟩
  exact (HwBreakpointManager.locked_setLocked ..).trans h.original

/-- A poll that gets the session never panics, and leaves the lock as it found it. -/
theorem poll_spec (h : s.target.Accounted n user) (pending : Bytes) :
    ∃ s', s.poll pending = .ok s' ∧ s'.target.Accounted n user ∧
      s'.target.hwManager.locked = s.target.hwManager.locked ∧
      s'.target.singleStepRequest = s.target.singleStepRequest := by
  unfold poll
  split_ifs with hstage hctrl
  · obtain ⟨t', hreq, ht', hlock, hstep, _⟩ := V5Target.requestInterrupt_spec h
    rw [hreq]
    exact ⟨_, rfl, ht', hlock, hstep⟩
  · exact ⟨s, rfl, h, rfl, rfl⟩
  · exact ⟨s, rfl, h, rfl, rfl⟩

end DebugSession

namespace HwBreakpointManager

variable {n : ℕ} {m : HwBreakpointManager} {a : KeySet n}

structure EnabledAs (m : HwBreakpointManager) (specificity : Specificity) (i : Fin 16) :
    Prop where
  exists_slot : i.val < m.capabilities.numBreakpoints
  enabled : (m.mmio.breakpointCtrl i).enabled = true
  specificity : (m.mmio.breakpointCtrl i).breakpointType = some specificity.breakpointType

theorem SlotOf.enabledAs {k : HwKey} {i : Fin 16} (h : m.SlotOf k i) :
    m.EnabledAs k.specificity i :=
  ⟨h.exists_slot, h.enabled, by simp [h.control, HwKey.control]⟩

/-- An enabled slot of some specificity is the slot of a key of that specificity. -/
theorem HasKeys.exists_slotOf (h : m.HasKeys a) {specificity : Specificity} {i : Fin 16}
    (hi : m.EnabledAs specificity i) :
    ∃ k ∈ a.keys, k.specificity = specificity ∧ m.SlotOf k i := by
  have hlt : i.val < n := h.slots ▸ hi.exists_slot
  obtain ⟨k, ⟨hk, hslot⟩, _⟩ := h.mirrors.enabled i hlt hi.enabled
  refine ⟨k, hk, Specificity.breakpointType_injective ?_, hslot⟩
  exact Option.some.inj (hslot.enabledAs.specificity.symm.trans hi.specificity)

/-- The mismatching slots: one at the address, or none at all. -/
def TrapsAt (m : HwBreakpointManager) : Option Addr → Prop
  | none => ∀ i, ¬ m.EnabledAs .mismatching i
  | some addr => ∃ k i, k.addr = addr ∧ k.specificity = .mismatching ∧ m.SlotOf k i ∧
      ∀ j, m.EnabledAs .mismatching j → j = i

structure MatchesOnly (m : HwBreakpointManager) (user : Finset HwKey) : Prop where
  matching : ∀ k ∈ user, k.specificity = .matching
  placed : ∀ k ∈ user, ∃! i, m.SlotOf k i
  enabled : ∀ i, m.EnabledAs .matching i → ∃ k ∈ user, m.SlotOf k i

end HwBreakpointManager

namespace V5Target

variable {n : ℕ} {user : Finset HwKey} {t : V5Target}

/-- Where the one mismatching breakpoint is supposed to be. -/
def trapAddr (t : V5Target) : Option Addr :=
  if t.interruptPending then some ASYNC_HALT_SENTINEL
  else t.singleStepRequest.map SingleStepRequest.targetAddr

theorem Accounted.trapKeys_cases (h : t.Accounted n user) :
    (t.trapAddr = none ∧ t.trapKeys = ∅) ∨
      ∃ k, t.trapAddr = some k.addr ∧ t.trapKeys = {k} ∧ k.specificity = .mismatching := by
  unfold trapAddr trapKeys stepKeys
  cases t.interruptPending with
  | true => exact Or.inr ⟨sentinelKey, rfl, rfl, rfl⟩
  | false =>
    cases hr : t.singleStepRequest with
    | none => exact Or.inl ⟨rfl, rfl⟩
    | some r =>
      obtain ⟨k, hk⟩ := h.stepAligned r hr
      obtain ⟨haddr, _, hspec⟩ := HwKey.of?_eq_some.mp hk
      refine Or.inr ⟨k, ?_, ?_, hspec⟩
      · simp [haddr]
      · simp [hk]

/-- A mismatching slot is that of the trap. -/
theorem Accounted.exists_trapKey (h : t.Accounted n user) {i : Fin 16}
    (hi : t.hwManager.EnabledAs .mismatching i) : ∃ k ∈ t.trapKeys, t.hwManager.SlotOf k i := by
  obtain ⟨a, ha, hkeys⟩ := h.hasKeys
  obtain ⟨k, hk, hspec, hslot⟩ := ha.exists_slotOf hi
  rw [hkeys] at hk
  rcases Finset.mem_union.mp hk with hk | hk
  · exact absurd hk (not_mem_of_mismatching h.matching hspec)
  · exact ⟨k, hk, hslot⟩

theorem Accounted.trapsAt (h : t.Accounted n user) : t.hwManager.TrapsAt t.trapAddr := by
  obtain ⟨a, ha, hkeys⟩ := h.hasKeys
  rcases h.trapKeys_cases with ⟨haddr, hnone⟩ | ⟨k, haddr, hone, hspec⟩
  · rw [haddr]
    intro i hi
    obtain ⟨k, hk, _⟩ := h.exists_trapKey hi
    rw [hnone] at hk
    cases hk
  · rw [haddr]
    have hmem : k ∈ a.keys := by simp [hkeys, hone]
    obtain ⟨i, hi, hunique⟩ := ha.mirrors.placed k hmem
    refine ⟨k, i, rfl, hspec, hi, ?_⟩
    intro j hj
    obtain ⟨k', hk', hslot⟩ := h.exists_trapKey hj
    rw [hone] at hk'
    obtain rfl := Finset.mem_singleton.mp hk'
    exact hunique j hslot

theorem Accounted.matchesOnly (h : t.Accounted n user) : t.hwManager.MatchesOnly user := by
  obtain ⟨a, ha, hkeys⟩ := h.hasKeys
  constructor
  · exact h.matching
  · intro k hk
    refine ha.mirrors.placed k ?_
    rw [hkeys]
    exact Finset.mem_union_left _ hk
  · intro i hi
    obtain ⟨k, hk, hspec, hslot⟩ := ha.exists_slotOf hi
    rw [hkeys] at hk
    rcases Finset.mem_union.mp hk with hk | hk
    · exact ⟨k, hk, hslot⟩
    · rw [trapKeys_mismatching hk] at hspec
      cases hspec

end V5Target

namespace Sys

variable {n : ℕ} {user : Finset HwKey} {lock : Bool} {s s' : Sys} {table : TranslationTable}

/-- What every step of the system keeps of the hardware breakpoints and their lock. -/
structure Holding (n : ℕ) (user : Finset HwKey) (lock : Bool) (s : Sys) : Prop where
  accounted : s.session.target.Accounted n user
  running : s.inMonitor = false → s.session.target.hwManager.locked = lock
  stopped : s.inMonitor = true → s.session.target.Ready n user lock

theorem Holding.of_ready (h : s.session.target.Ready n user lock) (hmon : s.inMonitor = true) :
    s.Holding n user lock where
  accounted := h.accounted
  running := fun hrun => absurd (hmon.symm.trans hrun) (by decide)
  stopped := fun _ => h

theorem Holding.of_running (h : s.session.target.Accounted n user)
    (hlock : s.session.target.hwManager.locked = lock) (hmon : s.inMonitor = false) :
    s.Holding n user lock where
  accounted := h
  running := fun _ => hlock
  stopped := fun hin => absurd (hmon.symm.trans hin) (by decide)

theorem holding_leave {session : DebugSession} (h : session.target.Ready n user lock) :
    (s.leave session).Holding n user lock := by
  obtain ⟨hacc, hlock⟩ := DebugSession.endEvent_accounted h
  exact .of_running hacc hlock rfl

/-- Every step of the system keeps the account, with the user's requests noted. -/
theorem Holding.step {e : SysEvent} (h : s.Holding n user lock) (hstep : Step table s e s') :
    s'.Holding n (noteEvent user e) lock := by
  cases hstep with
  | unattended hphase hbegin =>
    have hlock := h.running (by rw [inMonitor, hphase])
    obtain ⟨hready, _⟩ :=
      DebugSession.beginEvent_ready (DebugSession.signal_accounted h.accounted _) hbegin
    rw [← hlock]
    exact holding_leave hready
  | attended hphase hbegin =>
    have hlock := h.running (by rw [inMonitor, hphase])
    obtain ⟨hready, _⟩ :=
      DebugSession.beginEvent_ready (DebugSession.signal_accounted h.accounted _) hbegin
    rw [← hlock]
    exact .of_ready hready rfl
  | tick hphase htick hstay =>
    have hready := h.stopped (by rw [inMonitor, hphase])
    exact .of_ready (DebugSession.tick_ready hready htick) rfl
  | lastTick hphase htick hresume =>
    have hready := h.stopped (by rw [inMonitor, hphase])
    exact holding_leave (DebugSession.tick_ready hready htick)
  | «return» hphase =>
    exact .of_running h.accounted (h.running (by rw [inMonitor, hphase])) rfl
  | poll hphase hpoll =>
    obtain ⟨session, hok, hacc, hlock, _⟩ := DebugSession.poll_spec h.accounted _
    rw [hok] at hpoll
    obtain rfl := Except.ok.inj hpoll
    exact .of_running hacc (hlock.trans (h.running hphase)) hphase
  | pollBusy => exact h
  | run hphase =>
    exact .of_running (h.accounted.congr ⟨rfl, rfl, rfl, rfl⟩)
      (h.running (by rw [inMonitor, hphase])) (by rw [inMonitor, hphase])

theorem holding_start {debugId : BitVec 32} {mmio : DebugLogic} {memory : CodeMemory}
    {exitFunc : Addr} {session : DebugSession}
    (h : session.Booted debugId mmio memory exitFunc) :
    (start session).Holding (HardwareCapabilities.ofDebugId debugId).numBreakpoints ∅ true := by
  obtain ⟨m, hsetup, hholds, hcap, hlock⟩ := HwBreakpointManager.exists_setup debugId mmio
  obtain rfl := Except.ok.inj (hsetup.symm.trans h.manager)
  have hslots := congrArg HardwareCapabilities.numBreakpoints hcap
  refine .of_running ⟨⟨KeySet.empty _, ⟨hslots, .empty, hholds, SlotTables.Table.keys_empty⟩,
    ?_⟩, by simp, ?_, ?_⟩ hlock rfl
  · simp [V5Target.trapKeys, V5Target.stepKeys, start, h.request, h.pending, KeySet.empty]
  · exact (HardwareCapabilities.ofDebugId debugId).numBreakpoints_pos
  · intro r hr
    rw [start, h.request] at hr
    cases hr

/-- The account is in order in every state that a booted session reaches. -/
theorem holding_of_run {debugId : BitVec 32} {mmio : DebugLogic} {memory : CodeMemory}
    {exitFunc : Addr} {stopMotorsOnBreak : Bool} {session : DebugSession} {es : List SysEvent}
    (hboot : DebugSession.boot debugId mmio memory exitFunc stopMotorsOnBreak = .ok session)
    (hrun : Run (Step table) (start session) es s) :
    s.Holding (HardwareCapabilities.ofDebugId debugId).numBreakpoints (userKeys es) true := by
  refine hrun.invariant
    (P := fun es s => s.Holding (HardwareCapabilities.ofDebugId debugId).numBreakpoints
      (userKeys es) true) (holding_start (DebugSession.booted_of_boot hboot)) ?_
  intro es t e t' ht hstep
  rw [userKeys_append]
  exact ht.step hstep

/-- A stop of another kind than a breakpoint opens the console. -/
theorem Holding.exists_stop (h : s.Holding n user lock) (hphase : s.phase = .program)
    (hstage : s.session.stage ≠ .transitioning) (table : TranslationTable)
    (ctx : DebugEventContext) (status : DebugStatusControl)
    (hbreak : status.methodOfEntry ≠ some .breakpoint)
    (hbkpt : status.methodOfEntry ≠ some .bkptInstr) :
    ∃ s' gdb, Step table s (.stop ctx status) s' ∧ s'.phase = .monitor gdb ∧
      s'.session.target.exceptionCtx = ctx ∧
      s'.session.target.toSwState = s.session.target.toSwState.setBreakpointsIgnored true ∧
      (s.session.stage = .uninitialized → gdb = .idle) := by
  obtain ⟨session, gdb, hbegin, hctx, hsw, hgdb⟩ := DebugSession.exists_beginEvent
    (DebugSession.signal_accounted h.accounted status) hstage ctx
    (DebugSession.prepareEntry_other hbreak hbkpt)
  exact ⟨_, gdb, .attended hphase hbegin, rfl, hctx, hsw, hgdb⟩

/-- A first stop in ARM code. -/
theorem exists_first_stop (table : TranslationTable) :
    ∃ (session : DebugSession) (ctx : DebugEventContext) (s : Sys) (sw : SwState),
      DebugSession.boot 0 DebugSession.clearedLogic ⟨fun _ => 0, fun _ => 0⟩ 0x03800000 false =
        .ok session ∧
      Step table (start session) (.stop ctx ⟨0⟩) s ∧ s.phase = .monitor .idle ∧
      ctx = ⟨⟨0⟩, 0, 0, 0, fun _ => 0, fun _ => 0, 0x03900000⟩ ∧
      s.session.target.exceptionCtx = ctx ∧
      (SwState.empty ⟨fun _ => 0, fun _ => 0⟩).registerSwBreakpoint 0x03800000 false true =
        .ok (sw, .ok ()) ∧
      s.session.target.toSwState = sw.setBreakpointsIgnored true := by
  obtain ⟨session, hboot⟩ := DebugSession.exists_boot_one_slot
  have hbooted := DebugSession.booted_of_boot hboot
  obtain ⟨s, gdb, hstop, hphase, hctx, hsw, hgdb⟩ := (holding_start hbooted).exists_stop rfl
    (by simp [start, hbooted.stage]) table
    ⟨⟨0⟩, 0, 0, 0, fun _ => 0, fun _ => 0, 0x03900000⟩ ⟨0⟩ (by decide) (by decide)
  obtain rfl := hgdb hbooted.stage
  have haddr : (0x03800000 &&& ~~~1 : Addr) = 0x03800000 := by decide
  have hset : decide ((0x03800000 : Addr) &&& 1 ≠ 0) = false := by decide
  have hreg := hbooted.registered
  rw [haddr, hset] at hreg
  exact ⟨session, _, s, _, hboot, hstop, hphase, rfl, hctx, hreg, hsw⟩

/-- A packet that leaves the program stopped. -/
theorem exists_tick {calls : List TargetCall} {replies : List (TargetCall × TargetReply)}
    {t : V5Target} (hphase : s.phase = .monitor .idle)
    (hrun : V5Target.runCalls table calls s.session.target = .ok (t, replies))
    (hstay : t.monitorStatus ≠ .resumingProgram) :
    ∃ s', Step table s (.tick (.packet calls .idle) replies) s' ∧
      s'.phase = .monitor (.afterPacket calls .idle) ∧ s'.session.target = t :=
  ⟨_, .tick hphase (DebugSession.tick_packet hrun) hstay, rfl, rfl⟩

/-- A packet that lets the program go on. -/
theorem exists_lastTick {calls : List TargetCall} {replies : List (TargetCall × TargetReply)}
    {t : V5Target} (hphase : s.phase = .monitor .idle)
    (hrun : V5Target.runCalls table calls s.session.target = .ok (t, replies))
    (hresume : t.monitorStatus = .resumingProgram) :
    ∃ s' unpause, Step table s (.tick (.packet calls .idle) replies) s' ∧
      s'.phase = .returning unpause ∧
      s'.session.stage = .active (.afterPacket calls .idle) ∧
      s'.session.target.toSwState = t.toSwState.setBreakpointsIgnored false :=
  ⟨_, _, .lastTick hphase (DebugSession.tick_packet hrun) hresume, rfl, rfl, rfl⟩

/-- A step that GDB asks for at an aligned PC ends the stop. -/
theorem Holding.exists_step (h : s.Holding n user lock) (hphase : s.phase = .monitor .idle)
    (hpc : s.session.target.PcAligned) (table : TranslationTable) :
    ∃ s' unpause, Step table s (.tick (.packet [.step] .idle) [(.step, .done)]) s' ∧
      s'.phase = .returning unpause ∧ s'.session.stage = .active .running := by
  rcases V5Target.mustStep_cases (h.stopped (by rw [inMonitor, hphase])) with
    ⟨hmis, _⟩ | ⟨t, hstep, _⟩
  · exact absurd hpc hmis
  · have hrun : V5Target.runCalls table [.step] s.session.target =
        .ok ({ t with monitorStatus := .resumingProgram }, [(.step, .done)]) := by
      simp only [V5Target.runCalls, V5Target.applyCall, hstep, bind, Except.bind, pure,
        Except.pure]
    obtain ⟨s', unpause, hstep, hphase', hstage, _⟩ := exists_lastTick hphase hrun rfl
    exact ⟨s', unpause, hstep, hphase', hstage⟩

/-- While GDB takes the program to be running, Ctrl-C arms a halt. -/
theorem Holding.exists_halt (h : s.Holding n user lock) (hphase : s.inMonitor = false)
    (hstage : s.session.stage = .active .running) (table : TranslationTable) :
    ∃ s', Step table s (.poll [DebugSession.CTRL_C]) s' ∧
      s'.session.target.trapAddr = some ASYNC_HALT_SENTINEL := by
  obtain ⟨t, hreq, _, _, _, hpending⟩ := V5Target.requestInterrupt_spec h.accounted
  have hpoll : s.session.poll [DebugSession.CTRL_C] = .ok { s.session with target := t } := by
    rw [DebugSession.poll, if_pos hstage, if_pos (List.mem_singleton.mpr rfl), hreq]
    rfl
  refine ⟨_, .poll hphase hpoll, ?_⟩
  rw [V5Target.trapAddr]
  exact if_pos hpending

/-- From any boot on, a stop of another kind and a step that GDB asks for can follow
each other. -/
theorem exists_stepped {debugId : BitVec 32} {mmio : DebugLogic} {memory : CodeMemory}
    {exitFunc : Addr} {stopMotorsOnBreak : Bool} {session : DebugSession}
    (hboot : DebugSession.boot debugId mmio memory exitFunc stopMotorsOnBreak = .ok session)
    (table : TranslationTable) (ctx : DebugEventContext) (status : DebugStatusControl)
    (hal : Instruction.AlignedFor ctx.cpsr.thumb ctx.programCounter)
    (hbreak : status.methodOfEntry ≠ some .breakpoint)
    (hbkpt : status.methodOfEntry ≠ some .bkptInstr) :
    ∃ s, Run (Step table) (start session) [.stop ctx status,
        .tick (.packet [.step] .idle) [(.step, .done)], .return] s ∧
      s.phase = .program ∧ s.session.stage = .active .running ∧
      s.Holding (HardwareCapabilities.ofDebugId debugId).numBreakpoints ∅ true := by
  have h₀ := holding_start (DebugSession.booted_of_boot hboot)
  have hstage : session.stage = .uninitialized := (DebugSession.booted_of_boot hboot).stage
  have hnot : session.stage ≠ .transitioning := by simp [hstage]
  obtain ⟨s₁, gdb, hstop, hphase, hctx, _, hgdb⟩ :=
    h₀.exists_stop rfl hnot table ctx status hbreak hbkpt
  have hpc : s₁.session.target.PcAligned := by
    rw [V5Target.PcAligned, hctx]
    exact hal
  obtain ⟨s₂, unpause, hstep, hphase₂, hrunning⟩ :=
    (h₀.step hstop).exists_step (hgdb hstage ▸ hphase) hpc table
  have hreturn : Step table s₂ .return _ := .return hphase₂
  have h₃ := ((h₀.step hstop).step hstep).step hreturn
  exact ⟨_, .cons hstop (.cons hstep (.single hreturn)), rfl, hrunning, h₃⟩

/-- A halt can overtake the step. -/
theorem exists_stepped_halt {debugId : BitVec 32} {mmio : DebugLogic} {memory : CodeMemory}
    {exitFunc : Addr} {stopMotorsOnBreak : Bool} {session : DebugSession}
    (hboot : DebugSession.boot debugId mmio memory exitFunc stopMotorsOnBreak = .ok session)
    (table : TranslationTable) (ctx : DebugEventContext) (status : DebugStatusControl)
    (hal : Instruction.AlignedFor ctx.cpsr.thumb ctx.programCounter)
    (hbreak : status.methodOfEntry ≠ some .breakpoint)
    (hbkpt : status.methodOfEntry ≠ some .bkptInstr) :
    ∃ s, Run (Step table) (start session) [.stop ctx status,
        .tick (.packet [.step] .idle) [(.step, .done)], .return, .poll [DebugSession.CTRL_C]] s ∧
      s.session.target.trapAddr = some ASYNC_HALT_SENTINEL := by
  obtain ⟨s, hrun, hphase, hrunning, hholds⟩ :=
    exists_stepped hboot table ctx status hal hbreak hbkpt
  obtain ⟨s', hhalt, htrap⟩ := hholds.exists_halt (by rw [inMonitor, hphase]) hrunning table
  exact ⟨s', hrun.snoc hhalt, htrap⟩

/-- A state's hardware breakpoints, against what its history calls for. -/
structure NothingLeaked (es : List SysEvent) (s : Sys) : Prop where
  entered : ∀ status ctx t suspends, s.inMonitor = false →
    (s.session.signal status).target.enterBreakpoint ctx = .ok (t, suspends) →
      t.hwManager.TrapsAt none ∧ t.hwManager.MatchesOnly (userKeys es)
  trap : s.session.target.hwManager.TrapsAt s.session.target.trapAddr
  user : s.session.target.hwManager.MatchesOnly (userKeys es)

/-- In every state that a booted session reaches, the only mismatching breakpoint
is the trap of the pending halt or step, an entry removes it, and the matching
breakpoints are those that GDB asked for. -/
theorem no_mismatch_leaked (table : TranslationTable) (debugId : BitVec 32) (mmio : DebugLogic)
    (memory : CodeMemory) (exitFunc : Addr) (stopMotorsOnBreak : Bool) (session : DebugSession)
    (hboot : DebugSession.boot debugId mmio memory exitFunc stopMotorsOnBreak = .ok session)
    (es : List SysEvent) (s : Sys) (hrun : Run (Step table) (start session) es s) :
    s.NothingLeaked es := by
  have h := holding_of_run hboot hrun
  refine ⟨?_, h.accounted.trapsAt, h.accounted.matchesOnly⟩
  intro status ctx t suspends _ henter
  obtain ⟨hready, hrequest, _⟩ :=
    V5Target.enterBreakpoint_ready (DebugSession.signal_accounted h.accounted status) henter
  refine ⟨?_, hready.accounted.matchesOnly⟩
  have htrap := hready.accounted.trapsAt
  have hnone : t.trapAddr = none := by simp [V5Target.trapAddr, hready.pending, hrequest]
  rwa [hnone] at htrap

/-- A halt overtakes a step on a processor with a single hardware breakpoint. -/
theorem no_mismatch_leaked_one_slot :
    ∃ session es s, DebugSession.boot 0 DebugSession.clearedLogic ⟨fun _ => 0, fun _ => 0⟩
        0x03800000 false = .ok session ∧
      Run (Step ⟨fun _ => ⟨0⟩⟩) (start session) es s ∧
      s.session.target.trapAddr = some ASYNC_HALT_SENTINEL ∧ s.NothingLeaked es := by
  obtain ⟨session, hboot⟩ := DebugSession.exists_boot_one_slot
  obtain ⟨s, hrun, htrap⟩ := exists_stepped_halt hboot ⟨fun _ => ⟨0⟩⟩
    ⟨⟨0⟩, 0, 0, 0, fun _ => 0, fun _ => 0, 0x03900000⟩ ⟨0⟩ (by decide) (by decide)
    (by decide)
  exact ⟨session, _, s, hboot, hrun, htrap,
    no_mismatch_leaked _ _ _ _ _ _ _ hboot _ s hrun⟩

end Sys
end V5gdb
