import V5gdb.MonitorCommands
import V5gdb.UnattendedResume

/-!
The robot during the runs of the system.
The motors follow the program while it executes. A stop sets them to zero if the latest
command said so, or the configuration where there was none, and from then until the program
is resumed they change by command alone. What the program is told about the competition
follows the commands in the same way, whenever it asks.
-/
namespace V5gdb

open RecordLayouts Transitions

structure RobotSys where
  sys : Sys
  robot : Robot

inductive RobotEvent
  | sys (e : SysEvent)
  | command (data : Bytes) (out : List String)
  | drive (voltages : ℕ → Option ℤ)
  | real (status : CompetitionStatus)

def SysEvent.isDebugEvent : SysEvent → Bool
  | stop _ _ => true
  | _ => false

def SysEvent.commands : SysEvent → Bool
  | tick _ replies => replies.any fun p =>
    match p.1 with
    | .autostop _ => true
    | _ => false
  | _ => false

namespace RobotEvent

def words : RobotEvent → List String
  | command data _ => Monitor.commandWords data
  | _ => []

def autostop? (e : RobotEvent) : Option Bool := Monitor.autostop? e.words

def stopsMotors (e : RobotEvent) : Bool := Monitor.stops e.words

def competition? : RobotEvent → Option Competition.Event
  | real status => some (.real status)
  | e => Monitor.competition? e.words

def commandCalls (words : List String) : List TargetCall :=
  (Monitor.autostop? words).toList.map .autostop

def sys? : RobotEvent → Option SysEvent
  | .sys e => some e
  | .command data _ =>
    let calls := commandCalls (Monitor.commandWords data)
    some (.tick (.packet calls .idle) (calls.map fun c => (c, .done)))
  | _ => none

end RobotEvent

namespace RobotSys

def enabled (s : RobotSys) : Bool := s.sys.session.target.stopMotorsOnBreak

/-- The motors are stopped right after the entry, which leaves the flag as it was. -/
def autoStop (maxPorts : ℕ) (s : RobotSys) : Robot :=
  if s.enabled then { s.robot with voltages := Robot.stopAllMotors maxPorts s.robot.voltages }
  else s.robot

/-- Commands come in packets of a console that is idle. -/
inductive Step (reports : Monitor.Reports) (maxPorts : ℕ) (table : TranslationTable) :
    RobotSys → RobotEvent → RobotSys → Prop
  | stop {s : RobotSys} {ctx : DebugEventContext} {status : DebugStatusControl} {sys : Sys}
      (hstep : Sys.Step table s.sys (.stop ctx status) sys) :
      Step reports maxPorts table s (.sys (.stop ctx status)) ⟨sys, s.autoStop maxPorts⟩
  | sys {s : RobotSys} {e : SysEvent} {sys : Sys} (hstop : e.isDebugEvent = false)
      (hcommands : e.commands = false) (hstep : Sys.Step table s.sys e sys) :
      Step reports maxPorts table s (.sys e) ⟨sys, s.robot⟩
  | command {s : RobotSys} {data : Bytes} {o : Monitor.Outcome}
      (hphase : s.sys.phase = .monitor .idle)
      (hhandle :
        Monitor.handleMonitorCmd reports maxPorts data s.sys.session.target s.robot = o) :
      Step reports maxPorts table s (.command data o.out)
        ⟨{ s.sys with session := { s.sys.session with target := o.target } }, o.robot⟩
  | drive {s : RobotSys} {voltages : ℕ → Option ℤ} (hphase : s.sys.phase = .program) :
      Step reports maxPorts table s (.drive voltages)
        ⟨s.sys, { s.robot with voltages := voltages }⟩
  | real {s : RobotSys} {status : CompetitionStatus} :
      Step reports maxPorts table s (.real status)
        ⟨s.sys, { s.robot with competition := { s.robot.competition with real := status } }⟩

/-- The program runs for the first time, and nothing is overridden. -/
def start (session : DebugSession) (voltages : ℕ → Option ℤ) (real : CompetitionStatus)
    (maxLevel : ℕ) : RobotSys :=
  ⟨Sys.start session, voltages, Competition.start real, maxLevel⟩

end RobotSys

/-! Which steps leave the flag of the automatic stop alone. -/

namespace V5Target

variable {t t' : V5Target} {table : TranslationTable}

theorem enterBreakpoint_flag {ctx : DebugEventContext} {suspends : Bool}
    (h : t.enterBreakpoint ctx = .ok (t', suspends)) :
    t'.stopMotorsOnBreak = t.stopMotorsOnBreak := by
  obtain ⟨t₁, hstep, h⟩ := Exec.bind_ok.mp h
  obtain ⟨t₂, hinterrupt, h⟩ := Exec.bind_ok.mp h
  obtain ⟨t₃, hfixup, h⟩ := Exec.bind_ok.mp h
  obtain ⟨rfl, _⟩ := Prod.mk.inj (Except.ok.inj h)
  obtain ⟨_, _, rfl⟩ := finalizeSingleStep_frame hstep
  obtain ⟨_, _, rfl⟩ := finalizeInterrupt_frame hinterrupt
  unfold fixupManualBkpt at hfixup
  split_ifs at hfixup
  · obtain ⟨instr, _, hfixup⟩ := Exec.bind_ok.mp hfixup
    obtain rfl := Except.ok.inj hfixup
    rfl
  · obtain rfl := Except.ok.inj hfixup
    rfl

theorem runCalls_flag {calls : List TargetCall} {replies : List (TargetCall × TargetReply)}
    (h : runCalls table calls t = .ok (t', replies))
    (hcommands : (SysEvent.tick .nothing replies).commands = false) :
    t'.stopMotorsOnBreak = t.stopMotorsOnBreak := by
  induction calls generalizing t replies with
  | nil =>
    obtain ⟨rfl, rfl⟩ := Prod.mk.inj (Except.ok.inj h)
    rfl
  | cons c cs ih =>
    obtain ⟨t₁, r, rs, happ, hrest, rfl⟩ := runCalls_cons h
    simp only [SysEvent.commands, List.any_cons, Bool.or_eq_false_iff] at hcommands
    rw [ih hrest hcommands.2]
    cases applyCall_effect happ with
    | autostop enabled => cases hcommands.1
    | _ => rfl

end V5Target

theorem DebugSession.boot_flag {debugId : BitVec 32} {mmio : DebugLogic} {memory : CodeMemory}
    {exitFunc : Addr} {stopMotorsOnBreak : Bool} {s : DebugSession}
    (h : boot debugId mmio memory exitFunc stopMotorsOnBreak = .ok s) :
    s.target.stopMotorsOnBreak = stopMotorsOnBreak := by
  obtain ⟨t, _, h⟩ := Exec.bind_ok.mp h
  obtain ⟨s₁, _, h⟩ := Exec.bind_ok.mp h
  obtain rfl := Except.ok.inj h
  rfl

namespace Sys

variable {s s' : Sys} {table : TranslationTable}

theorem beginEvent_flag {session session' : DebugSession} {ctx : DebugEventContext}
    {suspends : Bool} {gdb? : Option GdbState}
    (h : session.beginEvent ctx = .ok (session', suspends, gdb?)) :
    session'.target.stopMotorsOnBreak = session.target.stopMotorsOnBreak := by
  obtain ⟨t, s₁, action, henter, hstop, hcase⟩ := DebugSession.beginEvent_ok h
  have hs₁ : s₁.target.stopMotorsOnBreak = t.stopMotorsOnBreak := by
    have hout := DebugSession.handleStop_outcome hstop
    generalize t.stopReason = reason at hout
    cases hout <;> rfl
  rw [← V5Target.enterBreakpoint_flag henter, ← hs₁]
  rcases hcase with ⟨_, _, rfl⟩ | ⟨_, gdb, _, hopen⟩
  · rfl
  · rw [DebugSession.openConsole_target hopen]

theorem flag_of_step {e : SysEvent} (hstep : Step table s e s') (hcommands : e.commands = false) :
    s'.session.target.stopMotorsOnBreak = s.session.target.stopMotorsOnBreak := by
  have hticked : ∀ {gdb gdb' : GdbState} {t t' : V5Target} {input : GdbInput}
      {replies : List (TargetCall × TargetReply)},
      DebugSession.tickStateMachine table gdb t input = .ok (gdb', t', replies) →
      (SysEvent.tick input replies).commands = false →
      t'.stopMotorsOnBreak = t.stopMotorsOnBreak := by
    intro gdb gdb' t t' input replies htick hno
    cases DebugSession.tick_outcome htick with
    | packet calls next t' replies hrun => exact V5Target.runCalls_flag hrun hno
    | _ => rfl
  cases hstep with
  | unattended _ hbegin =>
    have hflag := beginEvent_flag hbegin
    exact hflag
  | attended _ hbegin =>
    have hflag := beginEvent_flag hbegin
    exact hflag
  | tick _ htick => exact hticked htick hcommands
  | lastTick _ htick =>
    have hflag := hticked htick hcommands
    exact hflag
  | poll _ hpoll =>
    obtain ⟨hw, interruptPending, rfl⟩ := DebugSession.poll_frame hpoll
    rfl
  | _ => rfl

/-- From a stop to the return, the program does not execute. -/
theorem phase_of_step {e : SysEvent} (hstep : Step table s e s') (hreturn : e ≠ .return)
    (hphase : s.phase ≠ .program) : s'.phase ≠ .program ∧ e.isDebugEvent = false := by
  cases hstep with
  | unattended hprogram | attended hprogram | run hprogram => exact absurd hprogram hphase
  | «return» => exact absurd rfl hreturn
  | tick => exact ⟨Phase.noConfusion, rfl⟩
  | lastTick => exact ⟨Phase.noConfusion, rfl⟩
  | poll => exact ⟨hphase, rfl⟩
  | pollBusy => exact ⟨hphase, rfl⟩

theorem phase_of_stop {ctx : DebugEventContext} {status : DebugStatusControl}
    (hstep : Step table s (.stop ctx status) s') : s'.phase ≠ .program := by
  cases hstep with
  | unattended => exact Phase.noConfusion
  | attended => exact Phase.noConfusion

end Sys

namespace RobotSys

variable {reports : Monitor.Reports} {maxPorts : ℕ} {table : TranslationTable}
  {s s' : RobotSys} {e : RobotEvent}

def enabledAt (configured : Bool) (es : List RobotEvent) : Bool :=
  (es.filterMap RobotEvent.autostop?).getLastD configured

theorem autoStop_voltages (maxPorts : ℕ) (s : RobotSys) :
    (s.autoStop maxPorts).voltages =
      if s.enabled then Robot.stopAllMotors maxPorts s.robot.voltages
      else s.robot.voltages := by
  unfold autoStop
  split_ifs <;> rfl

theorem command_effect {data : Bytes} {t : V5Target} {r : Robot} {o : Monitor.Outcome}
    (h : Monitor.handleMonitorCmd reports maxPorts data t r = o) :
    Monitor.Effect maxPorts (Monitor.commandWords data) t r o.target o.robot := by
  rw [← h]
  exact Monitor.runCommand_effect ..

theorem enabled_step (hstep : Step reports maxPorts table s e s') :
    s'.enabled = e.autostop?.getD s.enabled := by
  cases hstep with
  | stop hstep => exact Sys.flag_of_step hstep rfl
  | sys hstop hcommands hstep => exact Sys.flag_of_step hstep hcommands
  | @command data o _ hhandle =>
    have heffect := command_effect hhandle
    show o.target.stopMotorsOnBreak = (Monitor.autostop? (Monitor.commandWords data)).getD _
    generalize o.target = t, o.robot = r at heffect
    cases heffect with
    | prints hautostop => rw [hautostop]; rfl
    | autostop enabled hautostop => rw [hautostop]; rfl
    | stop hautostop => rw [hautostop]; rfl
    | competition _ _ hautostop => rw [hautostop]; rfl
  | drive => rfl
  | real => rfl

theorem enabled_of_run {es : List RobotEvent} (hrun : Run (Step reports maxPorts table) s es s') :
    s'.enabled = enabledAt s.enabled es := by
  refine hrun.invariant (P := fun es t => t.enabled = enabledAt s.enabled es) rfl ?_
  intro es t e t' ht hstep
  unfold enabledAt
  rw [Competition.getLastD_filterMap_concat, enabled_step hstep, ht]
  rfl

/-- What a step does to the motors while the program does not execute. -/
theorem voltages_step (hstep : Step reports maxPorts table s e s') (hreturn : e ≠ .sys .return)
    (hphase : s.sys.phase ≠ .program) :
    s'.sys.phase ≠ .program ∧
      s'.robot.voltages =
        if e.stopsMotors then Robot.stopAllMotors maxPorts s.robot.voltages
        else s.robot.voltages := by
  cases hstep with
  | stop hstep =>
    have hno := (Sys.phase_of_step hstep (by intro h; cases h) hphase).2
    cases hno
  | sys hstop hcommands hstep =>
    exact ⟨(Sys.phase_of_step hstep (fun h => hreturn (by rw [h])) hphase).1, rfl⟩
  | @command data o _ hhandle =>
    have heffect := command_effect hhandle
    refine ⟨hphase, ?_⟩
    show o.robot.voltages = if Monitor.stops (Monitor.commandWords data) then _ else _
    generalize o.target = t, o.robot = r at heffect
    cases heffect with
    | prints _ hstops => rw [hstops]; rfl
    | autostop _ _ hstops => rw [hstops]; rfl
    | stop _ hstops => rw [hstops]; rfl
    | competition _ _ _ hstops => rw [hstops]; rfl
  | drive hprogram => exact absurd hprogram hphase
  | real => exact ⟨hphase, rfl⟩

theorem voltages_of_run {es : List RobotEvent} (hrun : Run (Step reports maxPorts table) s es s')
    (hphase : s.sys.phase ≠ .program) (hreturn : .sys .return ∉ es) :
    s'.robot.voltages =
      if es.any RobotEvent.stopsMotors then Robot.stopAllMotors maxPorts s.robot.voltages
      else s.robot.voltages := by
  have hinv := hrun.invariant (P := fun es t => .sys .return ∉ es → t.sys.phase ≠ .program ∧
    t.robot.voltages =
      if es.any RobotEvent.stopsMotors then Robot.stopAllMotors maxPorts s.robot.voltages
      else s.robot.voltages) (fun _ => ⟨hphase, rfl⟩) (by
    intro es t e t' ht hstep hnot
    rw [List.mem_append, List.mem_singleton, not_or] at hnot
    obtain ⟨hphase, hvoltages⟩ := ht hnot.1
    obtain ⟨hphase', hvoltages'⟩ := voltages_step hstep (fun h => hnot.2 h.symm) hphase
    refine ⟨hphase', ?_⟩
    rw [hvoltages', hvoltages, List.any_append, List.any_cons, List.any_nil, Bool.or_false]
    cases es.any RobotEvent.stopsMotors <;> cases e.stopsMotors <;>
      simp [Robot.stopAllMotors_idem])
  exact (hinv hreturn).2

theorem competition_step (hstep : Step reports maxPorts table s e s') :
    (e.competition? = none → s'.robot.competition = s.robot.competition) ∧
      ∀ e', e.competition? = some e' →
        Competition.Step s.robot.competition e' s'.robot.competition := by
  cases hstep with
  | stop =>
    refine ⟨fun _ => ?_, fun e' he' => by cases he'⟩
    unfold autoStop
    split_ifs <;> rfl
  | sys => exact ⟨fun _ => rfl, fun e' he' => by cases he'⟩
  | @command data o _ hhandle =>
    have heffect := command_effect hhandle
    show (Monitor.competition? (Monitor.commandWords data) = none → _) ∧
      ∀ e', Monitor.competition? (Monitor.commandWords data) = some e' → _
    generalize o.target = t, o.robot = r at heffect
    cases heffect with
    | prints _ _ hcomp | autostop _ _ _ hcomp | stop _ _ hcomp =>
      rw [hcomp]
      exact ⟨fun _ => rfl, fun e' he' => by cases he'⟩
    | competition event c _ _ hcomp hstep =>
      rw [hcomp]
      refine ⟨fun h => (by cases h), fun e' he' => ?_⟩
      obtain rfl := Option.some.inj he'
      exact hstep
  | drive => exact ⟨fun _ => rfl, fun e' he' => by cases he'⟩
  | real =>
    refine ⟨fun h => (by cases h), fun e' he' => ?_⟩
    obtain rfl := Option.some.inj he'
    exact .real _

/-- The commands of a run and the changes of the system's status, as the override sees them. -/
theorem competition_of_run {es : List RobotEvent}
    (hrun : Run (Step reports maxPorts table) s es s') :
    Run Competition.Step s.robot.competition (es.filterMap RobotEvent.competition?)
      s'.robot.competition :=
  hrun.project RobotEvent.competition? (fun s => s.robot.competition)
    (fun _ _ _ hstep hnone => (competition_step hstep).1 hnone)
    fun _ _ _ e' hstep hsome => (competition_step hstep).2 e' hsome

/-- A command is a packet with its callback. -/
theorem command_tick {data : Bytes} {t : V5Target} {r : Robot} {o : Monitor.Outcome}
    (hhandle : Monitor.handleMonitorCmd reports maxPorts data t r = o) :
    DebugSession.tickStateMachine table .idle t
        (.packet (RobotEvent.commandCalls (Monitor.commandWords data)) .idle) =
      .ok (.idle, o.target,
        (RobotEvent.commandCalls (Monitor.commandWords data)).map fun c => (c, .done)) := by
  have heffect := command_effect hhandle
  generalize o.target = t', o.robot = r' at heffect
  generalize Monitor.commandWords data = words at heffect
  have hrun : V5Target.runCalls table (RobotEvent.commandCalls words) t =
      .ok (t', (RobotEvent.commandCalls words).map fun c => (c, .done)) := by
    unfold RobotEvent.commandCalls
    cases heffect with
    | prints hautostop | autostop _ hautostop | stop hautostop | competition _ _ hautostop =>
      rw [hautostop]
      rfl
  have hidle : GdbState.afterPacket (RobotEvent.commandCalls words) .idle = .idle := by
    unfold RobotEvent.commandCalls GdbState.afterPacket
    cases Monitor.autostop? words <;> rfl
  have htick := @DebugSession.tick_packet table t t' _ .idle _ hrun
  rwa [hidle] at htick

theorem sys_step (hstep : Step reports maxPorts table s e s')
    (hstatus : ∀ gdb, s.sys.phase = .monitor gdb →
      s.sys.session.target.monitorStatus ≠ .resumingProgram) :
    (e.sys? = none → s'.sys = s.sys) ∧
      ∀ e', e.sys? = some e' → Sys.Step table s.sys e' s'.sys := by
  cases hstep with
  | stop hstep =>
    refine ⟨fun h => (by cases h), fun e' he' => ?_⟩
    obtain rfl := Option.some.inj he'
    exact hstep
  | sys _ _ hstep =>
    refine ⟨fun h => (by cases h), fun e' he' => ?_⟩
    obtain rfl := Option.some.inj he'
    exact hstep
  | @command data o hphase hhandle =>
    refine ⟨fun h => (by cases h), fun e' he' => ?_⟩
    obtain rfl := Option.some.inj he'
    have htick := @command_tick reports maxPorts table _ _ _ _ hhandle
    have hstay : o.target.monitorStatus = s.sys.session.target.monitorStatus := by
      have heffect := command_effect hhandle
      generalize o.target = t, o.robot = r at heffect
      cases heffect <;> rfl
    have hsys := Sys.Step.tick hphase htick (by rw [hstay]; exact hstatus _ hphase)
    rw [show ({ s.sys with session := { s.sys.session with target := o.target } } : Sys) =
      { s.sys with session := { s.sys.session with target := o.target }, phase := .monitor .idle }
      by rw [← hphase]]
    exact hsys
  | drive => exact ⟨fun _ => rfl, fun e' he' => (by cases he')⟩
  | real => exact ⟨fun _ => rfl, fun e' he' => (by cases he')⟩

/-- Every run with the robot is one of the system alone. -/
theorem sys_of_run {debugId : BitVec 32} {mmio : DebugLogic} {memory : CodeMemory}
    {exitFunc : Addr} {stopMotorsOnBreak : Bool} {session : DebugSession} {es : List RobotEvent}
    (hboot : DebugSession.boot debugId mmio memory exitFunc stopMotorsOnBreak = .ok session)
    (hstart : s.sys = Sys.start session) (hrun : Run (Step reports maxPorts table) s es s') :
    Run (Sys.Step table) (Sys.start session) (es.filterMap RobotEvent.sys?) s'.sys := by
  rw [← hstart]
  induction hrun with
  | nil => exact .nil _
  | @snoc t t' es e _ hlast ih =>
    have hexit := Sys.exitInv_of_run hboot (hstart ▸ ih)
    have hstatus : ∀ gdb, t.sys.phase = .monitor gdb →
        t.sys.session.target.monitorStatus ≠ .resumingProgram := by
      intro gdb hphase
      rcases hexit.status gdb hphase with h | h
      · rw [h]
        exact MonitorStatus.noConfusion
      · rw [h.1]
        exact MonitorStatus.noConfusion
    obtain ⟨hnone, hsome⟩ := sys_step hlast hstatus
    rw [List.filterMap_append]
    cases he : e.sys? with
    | none =>
      rw [List.filterMap_cons_none he, List.filterMap_nil, List.append_nil, hnone he]
      exact ih
    | some e' =>
      rw [List.filterMap_cons_some he, List.filterMap_nil]
      exact .snoc ih (hsome e' he)

def textBytes (s : String) : Bytes := s.toUTF8.data.toList.map UInt8.toBitVec

/-- A first stop, and a command in its console. -/
theorem exists_command (reports : Monitor.Reports) (maxPorts : ℕ) (table : TranslationTable)
    (voltages : ℕ → Option ℤ) (real : CompetitionStatus) (maxLevel : ℕ) (text : String) :
    ∃ (session : DebugSession) (ctx : DebugEventContext) (s₁ s₂ : RobotSys) (out : List String),
      DebugSession.boot 0 DebugSession.clearedLogic ⟨fun _ => 0, fun _ => 0⟩ 0x03800000 false =
        .ok session ∧
      Step reports maxPorts table (start session voltages real maxLevel)
        (.sys (.stop ctx ⟨0⟩)) s₁ ∧
      Step reports maxPorts table s₁ (.command (textBytes text) out) s₂ := by
  obtain ⟨session, ctx, sys, sw, hboot, hstop, hphase, _⟩ := Sys.exists_first_stop table
  exact ⟨session, ctx, _, _, _, hboot, .stop hstop, .command hphase rfl⟩

/-- In every run the program is answered as the commands and the system's status ask for: the
status itself, or, after commands that changed parts of it, the status from before the first of
them with the latest change of each part. -/
theorem program_sees (reports : Monitor.Reports) (maxPorts : ℕ) (table : TranslationTable)
    (session : DebugSession) (voltages : ℕ → Option ℤ) (real : CompetitionStatus) (maxLevel : ℕ)
    (es : List RobotEvent) (s : RobotSys)
    (hrun : Run (Step reports maxPorts table) (start session voltages real maxLevel) es s) :
    Competition.Answers real (es.filterMap RobotEvent.competition?)
      s.robot.competition.readStatus := Competition.answers_of_run (competition_of_run hrun)

/-- The program is told that it is in the autonomous period. -/
theorem program_sees_one_command :
    ∃ (session : DebugSession) (es : List RobotEvent) (s : RobotSys),
      Run (Step ⟨"v5gdb", [], [], fun _ => [], fun _ => [], fun _ => [], fun _ => []⟩ 21
        ⟨fun _ => ⟨0⟩⟩) (start session (fun _ => none) ⟨4⟩ 3) es s ∧
      Competition.Answers ⟨4⟩ [.change .auton] s.robot.competition.readStatus := by
  obtain ⟨session, ctx, s₁, s₂, out, _, hstop, hcommand⟩ := exists_command
    ⟨"v5gdb", [], [], fun _ => [], fun _ => [], fun _ => [], fun _ => []⟩ 21 ⟨fun _ => ⟨0⟩⟩
    (fun _ => none) ⟨4⟩ 3 "comp auton"
  have hrun := Run.cons hstop (.single hcommand)
  have hanswers := program_sees _ _ _ _ _ _ _ _ _ hrun
  have hwords : Monitor.competition? (Monitor.splitWhitespace "comp auton") =
      some (.change .auton) := by rfl
  rw [List.filterMap_cons_none (by rfl), @List.filterMap_cons_some _ _ _ _ _ (.change .auton),
    List.filterMap_nil] at hanswers
  · exact ⟨session, _, s₂, hrun, hanswers⟩
  · show Monitor.competition? (Monitor.commandWords (textBytes "comp auton")) = _
    rw [textBytes, Monitor.commandWords_text]
    exact hwords

/-- Right after a stop and until the program is resumed, the motors stand still on every port
if the latest command, or else the configuration, said so, or if a command stopped them since.
If not, they keep the voltages that the program had set. -/
theorem motors_at_stop (reports : Monitor.Reports) (maxPorts : ℕ) (table : TranslationTable)
    (debugId : BitVec 32) (mmio : DebugLogic) (memory : CodeMemory) (exitFunc : Addr)
    (stopMotorsOnBreak : Bool) (session : DebugSession)
    (hboot : DebugSession.boot debugId mmio memory exitFunc stopMotorsOnBreak = .ok session)
    (voltages : ℕ → Option ℤ) (real : CompetitionStatus) (maxLevel : ℕ)
    (before during : List RobotEvent) (s s₁ s' : RobotSys)
    (hbefore : Run (Step reports maxPorts table) (start session voltages real maxLevel) before s)
    (ctx : DebugEventContext) (status : DebugStatusControl)
    (hstop : Step reports maxPorts table s (.sys (.stop ctx status)) s₁)
    (hduring : Run (Step reports maxPorts table) s₁ during s') (hreturn : .sys .return ∉ during)
    (port : ℕ) :
    s'.robot.voltages port =
      if port < maxPorts ∧
          (enabledAt stopMotorsOnBreak before ∨ ∃ e ∈ during, e.stopsMotors = true) then
        (s.robot.voltages port).map fun _ => 0
      else s.robot.voltages port := by
  have hconfigured : (start session voltages real maxLevel).enabled = stopMotorsOnBreak :=
    DebugSession.boot_flag hboot
  have henabled := enabled_of_run hbefore
  rw [hconfigured] at henabled
  cases hstop with
  | sys hno => cases hno
  | @stop _ _ sys hstep =>
    have hmotors := voltages_of_run hduring (Sys.phase_of_stop hstep) hreturn
    have hboth : s'.robot.voltages =
        if s.enabled || during.any RobotEvent.stopsMotors then
          Robot.stopAllMotors maxPorts s.robot.voltages
        else s.robot.voltages := by
      rw [hmotors, autoStop_voltages]
      cases s.enabled <;> cases during.any RobotEvent.stopsMotors <;>
        simp [Robot.stopAllMotors_idem]
    rw [hboth, ← henabled]
    simp only [← List.any_eq_true, ← Bool.or_eq_true]
    cases s.enabled || during.any RobotEvent.stopsMotors with
    | false => simp
    | true => simp [Robot.stopAllMotors_apply]

/-- A motor is stopped by command. -/
theorem motors_at_stop_by_command :
    ∃ (session : DebugSession) (es : List RobotEvent) (s : RobotSys),
      Run (Step ⟨"v5gdb", [], [], fun _ => [], fun _ => [], fun _ => [], fun _ => []⟩ 21
        ⟨fun _ => ⟨0⟩⟩) (start session (fun _ => some 12000) ⟨4⟩ 3) es s ∧
      s.robot.voltages 3 = some 0 := by
  obtain ⟨session, ctx, s₁, s₂, out, hboot, hstop, hcommand⟩ := exists_command
    ⟨"v5gdb", [], [], fun _ => [], fun _ => [], fun _ => [], fun _ => []⟩ 21 ⟨fun _ => ⟨0⟩⟩
    (fun _ => some 12000) ⟨4⟩ 3 "stop"
  have hstops : Monitor.stops (Monitor.splitWhitespace "stop") = true := by rfl
  have hmotors := motors_at_stop _ _ _ _ _ _ _ _ session hboot _ _ _ [] _ _ _ _
    (.nil _) ctx ⟨0⟩ hstop (.single hcommand) (by simp) 3
  refine ⟨session, _, s₂, Run.cons hstop (.single hcommand), ?_⟩
  rw [hmotors, if_pos]
  · rfl
  · refine ⟨by decide, .inr ⟨_, List.mem_singleton_self _, ?_⟩⟩
    show Monitor.stops (Monitor.commandWords (textBytes "stop")) = _
    rw [textBytes, Monitor.commandWords_text]
    exact hstops

end RobotSys
end V5gdb
