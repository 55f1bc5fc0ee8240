import V5gdb.Session
import V5gdb.Transitions

/-!
The debugger in its system: a program that runs, stops and is resumed, a GDB
client that sends packets, an interrupt handler that polls the connection, and a
scheduler that is suspended during stops.
The steps are those that can interleave. Everything between two of them happens
under the lock of the session, or with interrupts disabled.
-/
namespace V5gdb

open RecordLayouts Transitions

inductive Phase
  | program
  | monitor (gdb : GdbState)
  /-- The event was handled and the lock given up, but interrupts are still
  enabled and the scheduler was not resumed yet. -/
  | returning (unpauseScheduler : Bool)
  deriving DecidableEq

structure Sys where
  session : DebugSession
  phase : Phase
  /-- Suspensions of the scheduler less its resumptions. -/
  depth : ℤ
  resumed : DebugEventContext

inductive SysEvent
  | stop (ctx : DebugEventContext) (status : DebugStatusControl)
  | tick (input : GdbInput) (replies : List (TargetCall × TargetReply))
  | return
  | poll (pending : Bytes)
  /-- The program has run for a while and left this memory behind. -/
  | run (memory : CodeMemory)

def DebugSession.signal (s : DebugSession) (status : DebugStatusControl) : DebugSession :=
  { s with target := { s.target with hwManager := { s.target.hwManager with
      mmio := { s.target.hwManager.mmio with statusControlExt := status } } } }

namespace Sys

def inMonitor (s : Sys) : Bool :=
  match s.phase with
  | .monitor _ => true
  | _ => false

def suspend (s : Sys) (suspends : Bool) : Sys :=
  { s with depth := s.depth + if suspends then 1 else 0 }

/-- The event is over: breakpoints are armed again and the lock is given up. -/
def leave (s : Sys) (session : DebugSession) : Sys :=
  let (session, ctx, unpauseScheduler) := session.endEvent
  { s with session, phase := .returning unpauseScheduler, resumed := ctx }

inductive Step (table : TranslationTable) : Sys → SysEvent → Sys → Prop
  /-- A stop that the user is not notified of. -/
  | unattended {s : Sys} {ctx : DebugEventContext} {status : DebugStatusControl}
      {session : DebugSession} {suspends : Bool} (hphase : s.phase = .program)
      (hbegin : (s.session.signal status).beginEvent ctx = .ok (session, suspends, none)) :
      Step table s (.stop ctx status) ((s.suspend suspends).leave session)
  | attended {s : Sys} {ctx : DebugEventContext} {status : DebugStatusControl}
      {session : DebugSession} {suspends : Bool} {gdb : GdbState} (hphase : s.phase = .program)
      (hbegin : (s.session.signal status).beginEvent ctx = .ok (session, suspends, some gdb)) :
      Step table s (.stop ctx status)
        { s.suspend suspends with session, phase := .monitor gdb }
  | tick {s : Sys} {gdb gdb' : GdbState} {input : GdbInput} {target : V5Target}
      {replies : List (TargetCall × TargetReply)} (hphase : s.phase = .monitor gdb)
      (htick : DebugSession.tickStateMachine table gdb s.session.target input =
        .ok (gdb', target, replies))
      (hstay : target.monitorStatus ≠ .resumingProgram) :
      Step table s (.tick input replies)
        { s with session := { s.session with target }, phase := .monitor gdb' }
  | lastTick {s : Sys} {gdb gdb' : GdbState} {input : GdbInput} {target : V5Target}
      {replies : List (TargetCall × TargetReply)} (hphase : s.phase = .monitor gdb)
      (htick : DebugSession.tickStateMachine table gdb s.session.target input =
        .ok (gdb', target, replies))
      (hresume : target.monitorStatus = .resumingProgram) :
      Step table s (.tick input replies)
        (s.leave { s.session with target, stage := .active gdb' })
  | return {s : Sys} {unpauseScheduler : Bool} (hphase : s.phase = .returning unpauseScheduler) :
      Step table s .return
        { s with phase := .program, depth := s.depth - if unpauseScheduler then 1 else 0 }
  | poll {s : Sys} {pending : Bytes} {session : DebugSession} (hphase : s.inMonitor = false)
      (hpoll : s.session.poll pending = .ok session) :
      Step table s (.poll pending) { s with session }
  /-- The interrupt handler does not get the session's lock. -/
  | pollBusy {s : Sys} {pending : Bytes} (hphase : s.inMonitor = true) :
      Step table s (.poll pending) s
  | run {s : Sys} {memory : CodeMemory} (hphase : s.phase = .program) :
      Step table s (.run memory)
        { s with session := { s.session with target := { s.session.target with memory } } }

/-- The program runs for the first time, with the debugger installed. -/
def start (session : DebugSession) : Sys :=
  { session, phase := .program, depth := 0, resumed := session.target.exceptionCtx }

@[simp] theorem inMonitor_start (session : DebugSession) :
    (start session).inMonitor = false := rfl

@[simp] theorem inMonitor_leave (s : Sys) (session : DebugSession) :
    (s.leave session).inMonitor = false := rfl

@[simp] theorem leave_depth (s : Sys) (session : DebugSession) :
    (s.leave session).depth = s.depth := by
  rw [leave]

@[simp] theorem leave_phase (s : Sys) (session : DebugSession) :
    (s.leave session).phase = .returning session.target.singleStepRequest.isNone := rfl

@[simp] theorem leave_target (s : Sys) (session : DebugSession) :
    (s.leave session).session.target = session.target.leaveBreakpoint.1 := rfl

end Sys
end V5gdb
