import V5gdb.OwedReplies
import V5gdb.UnattendedResume

/-!
The stop replies that GDB gets.
A resume or a step leaves the protocol library running, and the library reports
the stop that it is next ticked in. The console is not ticked between the two,
so the report is made in the next session, about the stop that opened it.
-/
namespace V5gdb

open OwedReplies RecordLayouts Transitions

inductive Signal
  | SIGINT
  | SIGTRAP
  deriving DecidableEq, Repr

/-- What the protocol library is told about a stop, apart from the thread. -/
inductive MultiThreadStopReason
  | exited (code : BitVec 8)
  | hwBreak
  | swBreak
  | signalWithThread (signal : Signal)
  deriving DecidableEq, Repr

namespace MultiThreadStopReason

def isExited : MultiThreadStopReason → Bool
  | exited _ => true
  | _ => false

end MultiThreadStopReason

def ReportedReason.forGdb : ReportedReason → MultiThreadStopReason
  | exited => .exited 0
  | stopped .hardwareBreak => .hwBreak
  -- GDB may skip a hard-coded breakpoint that it has seen recently, so that is a trap
  | stopped (.trackedSoftwareBreak _) => .swBreak
  | stopped .untrackedSoftwareBreak => .signalWithThread .SIGTRAP
  | stopped .other => .signalWithThread .SIGTRAP
  | stopped .interrupt => .signalWithThread .SIGINT

namespace DebugSession

variable {s s' : DebugSession}

/-- A stop at the breakpoint on the exit function that a client is to be told of. -/
def exitsAt (s : DebugSession) (pc : Addr) : StopReason → Bool
  | .trackedSoftwareBreak id =>
    (s.target.breaks id).any (fun b => b.reason.internal) &&
      (s.internalBreaks = some (.systemExitRequest, pc) && s.hasClient)
  | _ => false

def describe (s : DebugSession) (ctx : DebugEventContext) (status : DebugStatusControl) :
    MultiThreadStopReason :=
  let reason := ((s.signal status).target.prepareEntry ctx).stopReason
  if s.exitsAt ctx.programCounter reason then .exited 0
  else (ReportedReason.stopped reason).forGdb

theorem handleInternalBreakpoint_status (s : DebugSession) :
    s.handleInternalBreakpoint.1.target.stopReason = s.target.stopReason ∧
      s.handleInternalBreakpoint.1.target.monitorStatus =
        if (s.internalBreaks = some (.systemExitRequest, s.target.exceptionCtx.programCounter) &&
          s.hasClient) = true then .exiting else s.target.monitorStatus := by
  unfold handleInternalBreakpoint
  cases hfind : s.internalBreaks.filter
      fun b => b.2 = s.target.exceptionCtx.programCounter with
  | none =>
    have hnot : s.internalBreaks ≠
        some (.systemExitRequest, s.target.exceptionCtx.programCounter) := by
      intro heq
      rw [heq, Option.filter_some, if_pos (by simp)] at hfind
      cases hfind
    refine ⟨rfl, ?_⟩
    simp [hnot]
  | some b =>
    obtain ⟨⟨⟩, addr⟩ := b
    obtain ⟨hbreaks, hpc⟩ := Option.filter_eq_some_iff.mp hfind
    obtain rfl : addr = s.target.exceptionCtx.programCounter := by simpa using hpc
    have hsame : ∀ target breaks,
        DebugSession.hasClient ⟨target, breaks, s.stage⟩ = s.hasClient := fun _ _ => rfl
    simp only [hbreaks, hsame, decide_true, Bool.true_and]
    cases s.hasClient <;> exact ⟨rfl, rfl⟩

theorem handleStop_status {reason : StopReason} {action : StopAction}
    (h : s.handleStop reason = .ok (s', action)) :
    s'.target.stopReason = s.target.stopReason ∧ s'.target.monitorStatus =
      if s.exitsAt s.target.exceptionCtx.programCounter reason then .exiting
      else s.target.monitorStatus := by
  unfold handleStop at h
  split at h
  · next id =>
    split at h
    · cases h
    · next b hb =>
      simp only [exitsAt, hb, Option.any_some]
      cases hint : b.reason.internal with
      | false =>
        rw [hint] at h
        obtain ⟨rfl, _⟩ := Prod.mk.inj (Except.ok.inj h)
        exact ⟨rfl, rfl⟩
      | true =>
        rw [hint] at h
        obtain ⟨rfl, _⟩ := Prod.mk.inj (Except.ok.inj h)
        exact s.handleInternalBreakpoint_status
  · next hnot =>
    obtain ⟨rfl, _⟩ := Prod.mk.inj (Except.ok.inj h)
    cases reason with
    | trackedSoftwareBreak id => exact absurd rfl (hnot id)
    | _ => exact ⟨rfl, rfl⟩

/-- What would be reported right after the first half of a debug event. -/
theorem beginEvent_describes {n : ℕ} {user : Finset HwKey} {ctx : DebugEventContext}
    {status : DebugStatusControl} {suspends : Bool} {gdb? : Option GdbState}
    (hacc : s.target.Accounted n user)
    (hbegin : (s.signal status).beginEvent ctx = .ok (s', suspends, gdb?)) :
    s'.target.gdbStopReason.forGdb = s.describe ctx status := by
  obtain ⟨t, s₁, action, henter, hstop, hcase⟩ := beginEvent_ok hbegin
  obtain ⟨hsw, hstatus, hreason, hctx⟩ :=
    V5Target.enterBreakpoint_sw (signal_accounted hacc status) henter
  have htarget : s'.target = s₁.target := by
    rcases hcase with ⟨_, _, rfl⟩ | ⟨_, gdb, _, hopen⟩
    · rfl
    · exact openConsole_target hopen
  obtain ⟨hsame, hexit⟩ := handleStop_status hstop
  have hexits : DebugSession.exitsAt { s.signal status with target := t }
      t.exceptionCtx.programCounter t.stopReason =
        s.exitsAt ctx.programCounter t.stopReason := by
    cases hr : t.stopReason with
    | trackedSoftwareBreak id =>
      have hbreaks : t.breaks id = (s.target.breaks id).map
          fun b => { b with enabled := !true } := by
        rw [hsw]
        exact SwState.setBreakpointsIgnored_breaks _ true id
      have hpc : t.exceptionCtx = ctx := hctx (by rw [hr]; simp)
      simp only [exitsAt, hbreaks, hpc, Option.any_map]
      rfl
    | _ => rfl
  rw [hexits, show V5Target.monitorStatus _ = t.monitorStatus from rfl, hstatus] at hexit
  rw [htarget, V5Target.gdbStopReason, hexit, describe, ← hreason, hsame]
  cases s.exitsAt ctx.programCounter t.stopReason <;> rfl

/-- The console goes on where it was left. -/
theorem beginEvent_console {ctx : DebugEventContext} {suspends : Bool} {gdb : GdbState}
    (hbegin : s.beginEvent ctx = .ok (s', suspends, some gdb)) :
    (s.stage = .uninitialized ∧ gdb = .idle) ∨ s.stage = .active gdb := by
  obtain ⟨t, s₁, action, _, hstop, hcase⟩ := beginEvent_ok hbegin
  rcases hcase with ⟨_, hnone, _⟩ | ⟨_, gdb', hgdb, hopen⟩
  · cases hnone
  · obtain rfl := Option.some.inj hgdb
    have hsame : s₁.stage = s.stage := by
      have hout := handleStop_outcome hstop
      generalize t.stopReason = reason at hout
      cases hout <;> rfl
    rw [← hsame]
    exact (openConsole_cases hopen).2

end DebugSession

namespace Sys

variable {n : ℕ} {user : Finset HwKey} {lock : Bool} {addr : Addr} {s s' : Sys}
  {table : TranslationTable} {e : SysEvent}

def turnAct (s : Sys) (replies : List (TargetCall × TargetReply)) (s' : Sys) :
    Act MultiThreadStopReason :=
  if s.phase = .monitor .running then .reply s.session.target.gdbStopReason.forGdb
  else if replies.any (fun p => p.1.resumes) then .request
  else if s'.phase = .monitor .disconnected then .hangUp
  else .turn

/-- The part of a step that requests and replies are concerned with. A request is a
packet that resumes or steps the program. -/
def acts (s : Sys) (e : SysEvent) (s' : Sys) : List (Act MultiThreadStopReason) :=
  match e with
  | .stop ctx status =>
    if s'.inMonitor then [.enter (s.session.describe ctx status)] else [.pass]
  | .tick _ replies => s.turnAct replies s' :: if s'.inMonitor then [] else [.leave]
  | _ => []

inductive Owes (s : Sys) : OwedReplies.State MultiThreadStopReason → Prop
  | settled (hout : s.inMonitor = false) (hstage : s.session.stage ≠ .active .running) :
      Owes s .settled
  | serving (gdb : GdbState) (hphase : s.phase = .monitor gdb) (hgdb : gdb ≠ .running)
      (hstatus : s.session.target.monitorStatus = .active) : Owes s .serving
  | owing (hout : s.inMonitor = false) (hstage : s.session.stage = .active .running) :
      Owes s .owing
  | due (hphase : s.phase = .monitor .running) :
      Owes s (.due s.session.target.gdbStopReason.forGdb)

theorem gdbStopReason_isExited (t : V5Target) :
    t.gdbStopReason.forGdb.isExited = decide (t.monitorStatus = .exiting) := by
  rw [V5Target.gdbStopReason]
  by_cases hexit : t.monitorStatus = .exiting
  · simp [hexit, ReportedReason.forGdb, MultiThreadStopReason.isExited]
  · simp only [hexit, if_false]
    cases t.stopReason <;> rfl

/-- A packet leaves the library running if and only if it resumed the program. -/
theorem afterPacket_running {calls : List TargetCall} {next : GdbState} :
    GdbState.afterPacket calls next = .running ↔ calls.any TargetCall.resumes = true := by
  rw [GdbState.afterPacket]
  by_cases hany : calls.any TargetCall.resumes = true
  · simp [hany]
  · rw [if_neg hany]
    by_cases hnext : next = .running <;> simp [hany, hnext]

/-- A turn in a session that owes nothing. -/
theorem turn_serving {gdb gdb' : GdbState} {t t' : V5Target} {input : GdbInput}
    {replies : List (TargetCall × TargetReply)}
    (htick : DebugSession.tickStateMachine table gdb t input = .ok (gdb', t', replies))
    (hgdb : gdb ≠ .running) (hactive : t.monitorStatus = .active) :
    (replies.any (fun p => p.1.resumes) = true ∧ gdb' = .running ∧
        t'.monitorStatus = .resumingProgram) ∨
      (replies.any (fun p => p.1.resumes) = false ∧ gdb' ≠ .running ∧
        t'.monitorStatus = .active) := by
  cases DebugSession.tick_outcome htick with
  | packet calls next t' replies hrun =>
    have hstatus := V5Target.runCalls_status hrun
    have hany : replies.any (fun p => p.1.resumes) = calls.any TargetCall.resumes := by
      rw [← V5Target.runCalls_labels hrun, List.any_map]
      rfl
    rw [hany]
    by_cases hresumes : calls.any TargetCall.resumes = true
    · rw [if_pos hresumes] at hstatus
      exact .inl ⟨hresumes, afterPacket_running.mpr hresumes, hstatus⟩
    · rw [if_neg hresumes] at hstatus
      exact .inr ⟨by simpa using hresumes, fun h => hresumes (afterPacket_running.mp h),
        hstatus.trans hactive⟩
  | reportExit | report => exact absurd rfl hgdb
  | disconnectExit hexit =>
    rw [hactive] at hexit
    cases hexit
  | silent | ctrlC | disconnect => exact .inr ⟨rfl, by simp, hactive⟩

/-- A turn of a running library reports, and leaves if the program exits. -/
theorem turn_due {gdb' : GdbState} {t t' : V5Target} {input : GdbInput}
    {replies : List (TargetCall × TargetReply)}
    (htick : DebugSession.tickStateMachine table .running t input = .ok (gdb', t', replies)) :
    (t.monitorStatus = .exiting ∧ gdb' = .disconnected ∧
        t'.monitorStatus = .resumingProgram) ∨
      (t.monitorStatus ≠ .exiting ∧ gdb' = .idle ∧ t' = t) := by
  cases DebugSession.tick_outcome htick with
  | reportExit hexit => exact .inl ⟨hexit, rfl, rfl⟩
  | report hnot => exact .inr ⟨hnot, rfl, rfl⟩

variable {p : OwedReplies.State MultiThreadStopReason}

/-- Outside the monitor what is owed depends on the stage alone. -/
theorem Owes.congr (h : s.Owes p) (hout : s.inMonitor = false) (hout' : s'.inMonitor = false)
    (hstage : s'.session.stage = s.session.stage) : s'.Owes p := by
  cases h with
  | settled _ hnot => exact .settled hout' (hstage ▸ hnot)
  | owing _ hrunning => exact .owing hout' (hstage.trans hrunning)
  | serving gdb hphase =>
    rw [inMonitor, hphase] at hout
    cases hout
  | due hphase =>
    rw [inMonitor, hphase] at hout
    cases hout

theorem Owes.attended (h : s.Owes p) (hhold : s.Holding n user lock) {ctx : DebugEventContext}
    {status : DebugStatusControl} {session : DebugSession} {suspends : Bool} {gdb : GdbState}
    (hphase : s.phase = .program)
    (hbegin : (s.session.signal status).beginEvent ctx = .ok (session, suspends, some gdb))
    (hphase' : s'.phase = .monitor gdb) (hsession : s'.session = session)
    (hexit : s'.ExitInv addr) :
    ∃ q, OwedReplies.run MultiThreadStopReason.isExited p
      [.enter (s.session.describe ctx status)] = some q ∧ s'.Owes q := by
  have hdescribes := DebugSession.beginEvent_describes hhold.accounted hbegin
  have hstage : (s.session.stage = .uninitialized ∧ gdb = .idle) ∨
    s.session.stage = .active gdb :=
    DebugSession.beginEvent_console (s := s.session.signal status) hbegin
  cases h with
  | settled _ hnot =>
    have hne : gdb ≠ .running := by
      rintro rfl
      rcases hstage with ⟨_, hidle⟩ | hactive
      · cases hidle
      · exact hnot hactive
    refine ⟨_, rfl, .serving gdb hphase' hne ?_⟩
    rcases hexit.status gdb hphase' with hactive | ⟨_, hrunning, _⟩
    · exact hactive
    · exact absurd hrunning hne
  | owing _ hrunning =>
    have hgdb : gdb = .running := by
      rw [hrunning] at hstage
      rcases hstage with ⟨huninit, _⟩ | hactive
      · cases huninit
      · exact (SessionStage.active.inj hactive).symm
    subst hgdb
    refine ⟨_, rfl, ?_⟩
    rw [← hdescribes, ← hsession]
    exact .due hphase'
  | serving gdb hmon =>
    rw [hphase] at hmon
    cases hmon
  | due hmon =>
    rw [hphase] at hmon
    cases hmon

/-- In the monitor GDB is served or owed a reply, as its state tells. -/
theorem Owes.in_monitor {gdb : GdbState} (h : s.Owes p) (hphase : s.phase = .monitor gdb) :
    (p = .serving ∧ gdb ≠ .running ∧ s.session.target.monitorStatus = .active) ∨
      (p = .due s.session.target.gdbStopReason.forGdb ∧ gdb = .running) := by
  cases h with
  | serving gdb' hin hne hactive =>
    obtain rfl := Phase.monitor.inj (hphase.symm.trans hin)
    exact .inl ⟨rfl, hne, hactive⟩
  | due hin => exact .inr ⟨rfl, Phase.monitor.inj (hphase.symm.trans hin)⟩
  | settled hout =>
    rw [inMonitor, hphase] at hout
    cases hout
  | owing hout =>
    rw [inMonitor, hphase] at hout
    cases hout

/-- A turn after which the program stays stopped. -/
theorem Owes.tick {gdb gdb' : GdbState} {input : GdbInput} {target : V5Target}
    {replies : List (TargetCall × TargetReply)} (h : s.Owes p) (hexit : s.ExitInv addr)
    (hphase : s.phase = .monitor gdb)
    (htick : DebugSession.tickStateMachine table gdb s.session.target input =
      .ok (gdb', target, replies))
    (hstay : target.monitorStatus ≠ .resumingProgram)
    (hs' : s' = { s with session := { s.session with target }, phase := .monitor gdb' }) :
    ∃ q, OwedReplies.run MultiThreadStopReason.isExited p (s.acts (.tick input replies) s') =
      some q ∧ s'.Owes q := by
  subst hs'
  rcases h.in_monitor hphase with ⟨rfl, hne, hactive⟩ | ⟨rfl, rfl⟩
  · rcases turn_serving htick hne hactive with ⟨_, _, hresume⟩ | ⟨hany, hne', hactive'⟩
    · exact absurd hresume hstay
    · refine ⟨.serving, ?_, .serving _ rfl hne' hactive'⟩
      have hturn : ¬ s.phase = .monitor .running := by
        rw [hphase]
        exact fun heq => hne (Phase.monitor.inj heq)
      simp only [acts, turnAct, if_neg hturn, hany, inMonitor, Bool.false_eq_true, if_false,
        if_true]
      split_ifs <;> rfl
  · rcases turn_due htick with ⟨_, _, hresume⟩ | ⟨hnot, rfl, rfl⟩
    · exact absurd hresume hstay
    · have hactive : s.session.target.monitorStatus = .active := by
        rcases hexit.status _ hphase with hactive | ⟨hexiting, _⟩
        · exact hactive
        · exact absurd hexiting hnot
      refine ⟨.serving, ?_, .serving .idle rfl (by simp) hactive⟩
      have hfinal := gdbStopReason_isExited s.session.target
      rw [decide_eq_false hnot] at hfinal
      simp only [acts, turnAct, if_pos hphase, inMonitor, if_true, OwedReplies.run,
        OwedReplies.next, hfinal, Bool.false_eq_true, if_false, Option.bind_some]

/-- The turn with which the console's loop ends. -/
theorem Owes.lastTick {gdb gdb' : GdbState} {input : GdbInput} {target : V5Target}
    {replies : List (TargetCall × TargetReply)} (h : s.Owes p) (hexit : s.ExitInv addr)
    (hphase : s.phase = .monitor gdb)
    (htick : DebugSession.tickStateMachine table gdb s.session.target input =
      .ok (gdb', target, replies))
    (hresume : target.monitorStatus = .resumingProgram)
    (hs' : s' = s.leave { s.session with target, stage := .active gdb' }) :
    ∃ q, OwedReplies.run MultiThreadStopReason.isExited p (s.acts (.tick input replies) s') =
      some q ∧ s'.Owes q := by
  subst hs'
  rcases h.in_monitor hphase with ⟨rfl, hne, hactive⟩ | ⟨rfl, rfl⟩
  · rcases turn_serving htick hne hactive with ⟨hany, rfl, _⟩ | ⟨_, _, hactive'⟩
    · refine ⟨.owing, ?_, .owing rfl rfl⟩
      have hturn : ¬ s.phase = .monitor .running := by
        rw [hphase]
        exact fun heq => hne (Phase.monitor.inj heq)
      simp only [acts, turnAct, if_neg hturn, hany, if_true, inMonitor_leave,
        Bool.false_eq_true, if_false]
      rfl
    · rw [hactive'] at hresume
      cases hresume
  · rcases turn_due htick with ⟨hexiting, rfl, _⟩ | ⟨_, _, rfl⟩
    · have hstage : (s.leave { s.session with
          target, stage := .active .disconnected }).session.stage ≠ .active .running := by
        show SessionStage.active .disconnected ≠ _
        simp
      refine ⟨.settled, ?_, .settled rfl hstage⟩
      have hfinal := gdbStopReason_isExited s.session.target
      rw [decide_eq_true hexiting] at hfinal
      simp only [acts, turnAct, if_pos hphase, inMonitor_leave, OwedReplies.run,
        OwedReplies.next, hfinal, Bool.false_eq_true, if_false, if_true, Option.bind_some]
    · rcases hexit.status _ hphase with hactive | ⟨hexiting, _⟩
      · rw [hactive] at hresume
        cases hresume
      · rw [hexiting] at hresume
        cases hresume

theorem Owes.step (h : s.Owes p) (hhold : s.Holding n user lock) (hexit : s.ExitInv addr)
    (hexit' : s'.ExitInv addr) (hstep : Step table s e s') :
    ∃ q, OwedReplies.run MultiThreadStopReason.isExited p (s.acts e s') = some q ∧
      s'.Owes q := by
  cases hstep with
  | unattended hphase hbegin =>
    have hmon : s.inMonitor = false := by rw [inMonitor, hphase]
    obtain ⟨_, hstage⟩ := DebugSession.beginEvent_stage hbegin
    refine ⟨p, ?_, h.congr hmon rfl (hstage rfl)⟩
    cases h with
    | settled => rfl
    | owing => rfl
    | serving gdb hin =>
      rw [hphase] at hin
      cases hin
    | due hin =>
      rw [hphase] at hin
      cases hin
  | attended hphase hbegin => exact h.attended hhold hphase hbegin rfl rfl hexit'
  | tick hphase htick hstay => exact h.tick hexit hphase htick hstay rfl
  | lastTick hphase htick hresume => exact h.lastTick hexit hphase htick hresume rfl
  | «return» hphase =>
    have hmon : s.inMonitor = false := by rw [inMonitor, hphase]
    exact ⟨p, rfl, h.congr hmon rfl rfl⟩
  | poll hphase hpoll =>
    obtain ⟨hw, interruptPending, rfl⟩ := DebugSession.poll_frame hpoll
    exact ⟨p, rfl, h.congr hphase hphase rfl⟩
  | pollBusy => exact ⟨p, rfl, h⟩
  | run hphase =>
    have hmon : s.inMonitor = false := by rw [inMonitor, hphase]
    exact ⟨p, rfl, h.congr hmon (by rw [inMonitor, hphase]) rfl⟩

end Sys
end V5gdb
