import V5gdb.SchedulerResume
import V5gdb.SerialInput
import V5gdb.StopReplies

/-!
The debugger together with the serial connection that its bytes come from.
Every byte is taken once and in its turn: by the program as long as no session has
started, by the console while it is idle, and by the interrupt handler's search for a
Ctrl-C while GDB takes the program to be running.
-/
namespace V5gdb

open RecordLayouts Transitions

def SysEvent.isStop : SysEvent → Bool
  | stop _ _ => true
  | _ => false

structure Linked (π : Type*) where
  hooked : HookedSys
  port : π
  triedToRead : Bool
  warnings : ℕ

inductive LinkEvent
  | arrive (channel : Channel) (byte : BitVec 8)
  | directRead (channel : Channel) (result : BitVec 32)
  | directPeek (channel : Channel) (result : BitVec 32)
  /-- It does so once these functions are redirected. -/
  | readChar (channel : Channel) (result : BitVec 32)
  | peekChar (channel : Channel) (result : BitVec 32)
  /-- The console reads a byte and hands it to the protocol library. -/
  | fed (byte : BitVec 8) (input : GdbInput) (replies : List (TargetCall × TargetReply))
  | irq (now : BitVec 32) (bytes : Bytes)
  | silent (e : HookedEvent)

inductive Reader
  | program
  | console
  | poll
  deriving DecidableEq, Repr

namespace LinkEvent

def taken : LinkEvent → List (Reader × BitVec 8)
  | directRead channel result =>
    if channel = .USER ∧ result ≠ -1 then [(.program, result.setWidth 8)] else []
  | fed byte _ _ => [(.console, byte)]
  | irq _ bytes => bytes.map fun byte => (.poll, byte)
  | _ => []

def arrived : LinkEvent → Bytes
  | arrive channel byte => if channel = .USER then [byte] else []
  | _ => []

def irqTime? : LinkEvent → Option (BitVec 32)
  | irq now _ => some now
  | _ => none

def isStop : LinkEvent → Bool
  | silent (.sys e) => e.isStop
  | _ => false

def SeesCtrlC (e : LinkEvent) : Prop := (Reader.poll, DebugSession.CTRL_C) ∈ e.taken

end LinkEvent

def HookedSys.Polls (s : HookedSys) (now : BitVec 32) : Prop :=
  s.pollIsDue now ∧ s.sys.inMonitor = false ∧ s.sys.session.stage = .active .running

namespace Linked

variable {π : Type*}

/-- The start of the first session redirects the program's serial functions. -/
def redirected (s : Linked π) : Prop := s.hooked.sys.session.stage ≠ .uninitialized

def noteRead (s : Linked π) (tried : Bool) : Linked π :=
  { s with
    triedToRead := s.triedToRead || tried
    warnings := s.warnings + if tried && !s.triedToRead then 1 else 0 }

def Silent (s : Linked π) : HookedEvent → Prop
  | .sys (.tick _ _) => s.hooked.sys.phase ≠ .monitor .idle
  | .irq _ _ => False
  | _ => True

inductive Step (table : TranslationTable) (P : SerialPort π) :
    Linked π → LinkEvent → Linked π → Prop
  | arrive {s : Linked π} {port : π} (channel : Channel) (byte : BitVec 8)
      (hport : P.waiting port = Function.update (P.waiting s.port) channel
        (P.waiting s.port channel ++ [byte])) :
      Step table P s (.arrive channel byte) { s with port }
  | directRead {s : Linked π} (channel : Channel) (hphase : s.hooked.sys.phase = .program)
      (hdirect : ¬ s.redirected) :
      Step table P s (.directRead channel (P.sysRead s.port channel).1)
        { s with port := (P.sysRead s.port channel).2 }
  | directPeek {s : Linked π} (channel : Channel) (hphase : s.hooked.sys.phase = .program)
      (hdirect : ¬ s.redirected) :
      Step table P s (.directPeek channel (P.sysPeek s.port channel)) s
  | readChar {s : Linked π} (channel : Channel) (hphase : s.hooked.sys.phase = .program)
      (hredirected : s.redirected) :
      Step table P s (.readChar channel (P.userReadChar s.port channel).1)
        ({ s with port := (P.userReadChar s.port channel).2.1 }.noteRead
          (P.userReadChar s.port channel).2.2)
  | peekChar {s : Linked π} (channel : Channel) (hphase : s.hooked.sys.phase = .program)
      (hredirected : s.redirected) :
      Step table P s (.peekChar channel (P.userPeekChar s.port channel).1)
        (s.noteRead (P.userPeekChar s.port channel).2)
  | fed {s : Linked π} {byte : BitVec 8} {port : π} {input : GdbInput}
      {replies : List (TargetCall × TargetReply)} {hooked : HookedSys}
      (hphase : s.hooked.sys.phase = .monitor .idle)
      (hread : P.tryRead s.port = (some byte, port))
      (hstep : HookedSys.Step table s.hooked (.sys (.tick input replies)) hooked) :
      Step table P s (.fed byte input replies) { s with hooked, port }
  | silent {s : Linked π} {e : HookedEvent} {hooked : HookedSys} (hsilent : s.Silent e)
      (hstep : HookedSys.Step table s.hooked e hooked) :
      Step table P s (.silent e) { s with hooked }
  /-- A byte that comes during the search counts as having come before it. -/
  | poll {s : Linked π} {now : BitVec 32} {bytes : Bytes} {port : π} {hooked : HookedSys}
      (hpolls : s.hooked.Polls now)
      (hdrain : P.drain ((P.waiting s.port .USER).length + 1) s.port = (bytes, port))
      (hstep : HookedSys.Step table s.hooked (.irq now bytes) hooked) :
      Step table P s (.irq now bytes) { s with hooked, port }
  | irq {s : Linked π} {now : BitVec 32} {hooked : HookedSys} (hnot : ¬ s.hooked.Polls now)
      (hstep : HookedSys.Step table s.hooked (.irq now []) hooked) :
      Step table P s (.irq now []) { s with hooked }

def start (session : DebugSession) (port : π) : Linked π :=
  { hooked := HookedSys.start session, port, triedToRead := false, warnings := 0 }

variable {table : TranslationTable} {P : SerialPort π} {s s' : Linked π} {e : LinkEvent}
  {es : List LinkEvent}

/-! The bytes. -/

/-- What waits after a step is what waited, what came and not what was taken. -/
theorem Step.conserves (hstep : Step table P s e s') :
    P.waiting s.port .USER ++ e.arrived =
      e.taken.map Prod.snd ++ P.waiting s'.port .USER := by
  cases hstep with
  | arrive channel byte hport =>
    by_cases huser : channel = .USER
    · subst huser
      simp [LinkEvent.arrived, LinkEvent.taken, hport]
    · simp [LinkEvent.arrived, LinkEvent.taken, hport, huser,
        Function.update_of_ne (Ne.symm huser)]
  | directRead channel =>
    have hnone : LinkEvent.arrived (.directRead channel (P.sysRead s.port channel).1) = [] := rfl
    rw [hnone, List.append_nil]
    by_cases huser : channel = .USER
    · subst huser
      cases hwait : P.waiting s.port .USER with
      | nil =>
        rw [P.sysRead_empty s.port _ hwait]
        simp [LinkEvent.taken, hwait]
      | cons byte bytes =>
        obtain ⟨hbyte, hrest⟩ := P.sysRead_next s.port _ byte bytes hwait
        simp only [LinkEvent.taken, hbyte, hrest, Function.update_self]
        rw [if_pos ⟨trivial, SerialPort.setWidth_ne_none byte⟩, SerialPort.setWidth_setWidth]
        rfl
    · have hrest : P.waiting (P.sysRead s.port channel).2 .USER = P.waiting s.port .USER := by
        cases hwait : P.waiting s.port channel with
        | nil => rw [P.sysRead_empty s.port _ hwait]
        | cons byte bytes =>
          rw [(P.sysRead_next s.port _ byte bytes hwait).2,
            Function.update_of_ne (Ne.symm huser)]
      simp [LinkEvent.taken, huser, hrest]
  | directPeek | peekChar | silent => simp [LinkEvent.arrived, LinkEvent.taken, noteRead]
  | readChar channel =>
    have hrest := P.userReadChar_waiting s.port channel
    simp [LinkEvent.arrived, LinkEvent.taken, noteRead, hrest]
  | fed _ hread =>
    obtain ⟨bytes, hwait, hrest⟩ := SerialPort.waiting_of_readByte hread
    simp [LinkEvent.arrived, LinkEvent.taken, hwait, hrest]
  | poll _ hdrain =>
    obtain ⟨hbytes, hrest⟩ := P.drain_spec (Nat.lt_succ_self (P.waiting s.port .USER).length)
    rw [hdrain] at hbytes hrest
    obtain rfl := hbytes
    simp [LinkEvent.arrived, LinkEvent.taken, hrest, Function.comp_def,
      SerialPort.seen_append_unseen]
  | irq => simp [LinkEvent.arrived, LinkEvent.taken]

theorem conserves_of_run (hrun : Run (Step table P) s es s') :
    P.waiting s.port .USER ++ es.flatMap LinkEvent.arrived =
      (es.flatMap LinkEvent.taken).map Prod.snd ++ P.waiting s'.port .USER := by
  refine hrun.invariant (P := fun es t => P.waiting s.port .USER ++ es.flatMap LinkEvent.arrived =
    (es.flatMap LinkEvent.taken).map Prod.snd ++ P.waiting t.port .USER) (List.append_nil _) ?_
  intro es t e t' ht hstep
  rw [List.flatMap_append, List.flatMap_singleton, ← List.append_assoc, ht, List.append_assoc,
    hstep.conserves, List.flatMap_append, List.flatMap_singleton, List.map_append,
    List.append_assoc]

end Linked

namespace Sys

variable {n : ℕ} {user : Finset HwKey} {lock : Bool} {table : TranslationTable} {s s' : Sys}
  {e : SysEvent}

theorem Step.started (hstep : Step table s e s') (h : s.session.stage ≠ .uninitialized) :
    s'.session.stage ≠ .uninitialized := by
  cases hstep with
  | unattended _ hbegin =>
    have hsame := (DebugSession.beginEvent_stage hbegin).2 rfl
    exact fun hnone => h (hsame.symm.trans hnone)
  | attended _ hbegin =>
    obtain ⟨t, s₁, action, _, _, ⟨_, hnone, _⟩ | ⟨_, gdb, _, hopen⟩⟩ :=
      DebugSession.beginEvent_ok hbegin
    · cases hnone
    · obtain ⟨rfl, _⟩ := DebugSession.openConsole_cases hopen
      exact SessionStage.noConfusion
  | lastTick => exact SessionStage.noConfusion
  | poll _ hpoll =>
    obtain ⟨_, _, rfl⟩ := DebugSession.poll_frame hpoll
    exact h
  | tick | pollBusy | «return» | run => exact h

/-- Polls aside, an armed halt is given up by the next stop and by nothing else. -/
theorem Holding.pending_step (h : s.Holding n user lock) (hstep : Step table s e s')
    (he : ∀ pending, e ≠ .poll pending) :
    s'.session.target.interruptPending =
      (s.session.target.interruptPending && !e.isStop) := by
  cases hstep with
  | unattended _ hbegin | attended _ hbegin =>
    obtain ⟨hready, _⟩ :=
      DebugSession.beginEvent_ready (DebugSession.signal_accounted h.accounted _) hbegin
    exact hready.pending.trans (Bool.and_false _).symm
  | tick hphase htick | lastTick hphase htick =>
    have hready := h.stopped (by rw [inMonitor, hphase])
    rw [hready.pending]
    exact (DebugSession.tick_ready hready htick).pending
  | «return» | run => exact (Bool.and_true _).symm
  | poll | pollBusy => exact absurd rfl (he _)

end Sys

namespace Linked

variable {π : Type*} {n : ℕ} {table : TranslationTable} {P : SerialPort π} {s s' : Linked π}
  {e : LinkEvent} {es : List LinkEvent}

/-- No byte goes to the program once a session has started. -/
theorem Step.redirected (hstep : Step table P s e s') (h : s.redirected) :
    s'.redirected ∧ ∀ x ∈ e.taken, x.1 ≠ .program := by
  have hhooked : ∀ {he : HookedEvent} {hooked : HookedSys},
      HookedSys.Step table s.hooked he hooked → hooked.sys.session.stage ≠ .uninitialized := by
    intro he hooked hstep
    cases hstep with
    | sys _ _ hstep | poll _ _ hstep | finish _ hstep => exact hstep.started h
    | skip | cpsid => exact h
  cases hstep with
  | arrive | readChar | peekChar => exact ⟨h, List.forall_mem_nil _⟩
  | directRead _ _ hdirect | directPeek _ _ hdirect => exact absurd h hdirect
  | fed _ _ hstep =>
    exact ⟨hhooked hstep, List.forall_mem_singleton.mpr Reader.noConfusion⟩
  | silent _ hstep | irq _ hstep => exact ⟨hhooked hstep, List.forall_mem_nil _⟩
  | poll _ _ hstep =>
    refine ⟨hhooked hstep, ?_⟩
    intro x hx
    obtain ⟨byte, _, rfl⟩ := List.mem_map.mp hx
    exact Reader.noConfusion

/-- The program is warned once, at its first try. -/
def Warned (s : Linked π) : Prop := s.warnings = if s.triedToRead then 1 else 0

theorem Warned.note (h : s.Warned) (tried : Bool) : (s.noteRead tried).Warned := by
  rw [Warned] at h
  rw [Warned, noteRead, h]
  cases s.triedToRead <;> cases tried <;> rfl

/-- What is answered to the program once its functions are redirected. -/
theorem Step.answers (hstep : Step table P s e s') (result : BitVec 32)
    (he : e = .readChar .USER result ∨ e = .peekChar .USER result) : result = -1 := by
  cases hstep with
  | readChar channel =>
    rcases he with he | he
    · obtain ⟨rfl, rfl⟩ := LinkEvent.readChar.inj he
      exact congrArg Prod.fst (P.userReadChar_user s.port)
    · cases he
  | peekChar channel =>
    rcases he with he | he
    · cases he
    · obtain ⟨rfl, rfl⟩ := LinkEvent.peekChar.inj he
      exact congrArg Prod.fst (if_pos rfl)
  | _ => rcases he with he | he <;> cases he

theorem Step.warned (hstep : Step table P s e s') (h : s.Warned) : s'.Warned := by
  cases hstep with
  | readChar | peekChar => exact Warned.note h _
  | _ => exact h

/-- A byte can come at any time, -/
theorem exists_arrive (table : TranslationTable) (s : Linked (Channel → Bytes))
    (byte : BitVec 8) : ∃ s', Step table queuePort s (.arrive .USER byte) s' ∧
      s'.hooked = s.hooked ∧ s'.port .USER = s.port .USER ++ [byte] := by
  have hstep : Step table queuePort s (.arrive .USER byte)
      { s with port := Function.update s.port .USER (s.port .USER ++ [byte]) } :=
    .arrive _ _ rfl
  have hport : Function.update s.port .USER (s.port .USER ++ [byte]) .USER =
      s.port .USER ++ [byte] := Function.update_self ..
  exact ⟨_, hstep, rfl, hport⟩

/-- and be read by the console. -/
theorem exists_fed {s : Linked (Channel → Bytes)} {byte : BitVec 8} {bytes : Bytes}
    {input : GdbInput} {replies : List (TargetCall × TargetReply)} {hooked : HookedSys}
    (hphase : s.hooked.sys.phase = .monitor .idle) (hport : s.port .USER = byte :: bytes)
    (hstep : HookedSys.Step table s.hooked (.sys (.tick input replies)) hooked) :
    ∃ s', Step table queuePort s (.fed byte input replies) s' ∧ s'.hooked = hooked ∧
      s'.port .USER = bytes := by
  obtain ⟨port, hread, hrest⟩ := SerialPort.exists_readByte_next (P := queuePort) hport
  have hwait : port .USER = bytes := (congrFun hrest _).trans (Function.update_self ..)
  exact ⟨_, .fed hphase hread hstep, rfl, hwait⟩

/-- After the console the program runs on. -/
theorem exists_return (table : TranslationTable) (P : SerialPort π) {s : Linked π}
    {unpause : Bool} (hopen : s.hooked.masked = false)
    (hphase : s.hooked.sys.phase = .returning unpause) :
    ∃ s', Run (Step table P) s [.silent .cpsid, .silent .finish] s' ∧
      s'.hooked.sys.phase = .program ∧ s'.hooked.sys.session = s.hooked.sys.session ∧
      s'.hooked.masked = false ∧ s'.port = s.port ∧ s'.triedToRead = s.triedToRead ∧
      s'.warnings = s.warnings := by
  have hmask : Step table P s (.silent .cpsid) { s with hooked.masked := true } :=
    .silent trivial (.cpsid hopen hphase)
  have hfinish : Step table P { s with hooked.masked := true } (.silent .finish) _ :=
    .silent trivial (.finish rfl (.return hphase))
  exact ⟨_, (Run.single hmask).snoc hfinish, rfl, rfl, rfl, rfl, rfl, rfl⟩

theorem exists_readChar {s : Linked π} (hphase : s.hooked.sys.phase = .program)
    (hredirected : s.redirected) :
    ∃ s', Step table P s (.readChar .USER (-1)) s' ∧ s'.port = s.port :=
  ⟨_, .readChar .USER hphase hredirected, rfl⟩

/-- From a boot on, the first console takes a byte that makes GDB resume the program, and
a Ctrl-C comes. -/
theorem exists_first_console (table : TranslationTable) :
    ∃ (session : DebugSession) (s₁ s : Linked (Channel → Bytes)),
      DebugSession.boot 0 DebugSession.clearedLogic ⟨fun _ => 0, fun _ => 0⟩ 0x03800000 false =
        .ok session ∧
      Run (Step table queuePort) (start session fun _ => [])
        [.silent (.sys (.stop ⟨⟨0⟩, 0, 0, 0, fun _ => 0, fun _ => 0, 0x03900000⟩ ⟨0⟩)),
          .arrive .USER 0x24] s₁ ∧
      s₁.hooked.sys.phase = .monitor .idle ∧ s₁.hooked.masked = false ∧ s₁.redirected ∧
      s₁.hooked.sys.session.target.monitorStatus = .active ∧ s₁.port .USER = [0x24] ∧
      Run (Step table queuePort) s₁
        [.fed 0x24 (.packet [.resume] .idle) [(.resume, .done)],
          .arrive .USER DebugSession.CTRL_C] s ∧
      s.hooked.sys.session.stage = .active .running ∧ s.hooked.lastPollTimeMs = 0 ∧
      s.hooked.masked = false ∧ (∃ unpause, s.hooked.sys.phase = .returning unpause) ∧
      s.port .USER = [DebugSession.CTRL_C] ∧ s.Warned := by
  obtain ⟨session, ctx, sys, sw, hboot, hstop, hphase, rfl, _⟩ := Sys.exists_first_stop table
  have hstatus : sys.session.target.monitorStatus = .active := by
    rcases (Sys.exitInv_of_run hboot (Run.single hstop)).status _ hphase with
      hactive | ⟨_, hrunning, _⟩
    · exact hactive
    · cases hrunning
  have hcalls : V5Target.runCalls table [.resume] sys.session.target =
      .ok ({ sys.session.target with monitorStatus := .resumingProgram }, [(.resume, .done)]) :=
    rfl
  obtain ⟨sys', unpause, htick, hphase', hstage', _⟩ := Sys.exists_lastTick hphase hcalls rfl
  have hstarted : sys.session.stage ≠ .uninitialized := by
    cases hstop with
    | unattended => cases hphase
    | attended _ hbegin =>
      obtain ⟨_, _, _, _, _, ⟨_, hnone, _⟩ | ⟨_, _, _, hopen⟩⟩ :=
        DebugSession.beginEvent_ok hbegin
      · cases hnone
      · obtain ⟨rfl, _⟩ := DebugSession.openConsole_cases hopen
        exact SessionStage.noConfusion
  have hstopped : Step table queuePort (start session fun _ => []) (.silent (.sys (.stop _ _)))
      { start session (fun _ => []) with hooked := { HookedSys.start session with sys } } :=
    .silent trivial (.sys rfl rfl hstop)
  obtain ⟨s₁, harrive, hhooked₁, hport₁⟩ := exists_arrive table
    { start session (fun _ => []) with hooked := { HookedSys.start session with sys } } 0x24
  obtain ⟨s₂, hfed, hhooked₂, hport₂⟩ :=
    exists_fed (by rw [hhooked₁]; exact hphase) hport₁
      (by rw [hhooked₁]; exact .sys rfl rfl htick)
  obtain ⟨s₃, hctrlC, hhooked₃, hport₃⟩ := exists_arrive table s₂ DebugSession.CTRL_C
  have hwarned : (start session (fun _ => [] : Channel → Bytes)).Warned := rfl
  refine ⟨session, s₁, s₃, hboot, (Run.single hstopped).snoc harrive, ?_, ?_, ?_, ?_, hport₁,
    (Run.single hfed).snoc hctrlC, ?_, ?_, ?_, ⟨unpause, ?_⟩, ?_, ?_⟩
  · rwa [hhooked₁]
  · rw [hhooked₁]
    rfl
  · rwa [redirected, hhooked₁]
  · rwa [hhooked₁]
  · rwa [hhooked₃, hhooked₂]
  · rw [hhooked₃, hhooked₂]
    rfl
  · rw [hhooked₃, hhooked₂]
    rfl
  · rwa [hhooked₃, hhooked₂]
  · rw [hport₃, hport₂, List.nil_append]
  · exact hctrlC.warned (hfed.warned (harrive.warned (hstopped.warned hwarned)))

/-- However the program, the console and the interrupts interleave: once a session has
started every byte that arrives is taken once, in its turn, by the console or the interrupt
handler; the program is told that there is no byte, and is warned at most once. -/
theorem bytes_taken_in_order (table : TranslationTable) (P : SerialPort π) (es : List LinkEvent)
    (s s' : Linked π) (hrun : Run (Step table P) s es s') (hstarted : s.redirected)
    (hwarned : s.Warned) :
    P.waiting s.port .USER ++ es.flatMap LinkEvent.arrived =
        (es.flatMap LinkEvent.taken).map Prod.snd ++ P.waiting s'.port .USER ∧
      (∀ x ∈ es.flatMap LinkEvent.taken, x.1 ≠ .program) ∧
      (∀ result, .readChar .USER result ∈ es ∨ .peekChar .USER result ∈ es → result = -1) ∧
      s'.Warned := by
  have hinv := hrun.invariant (P := fun es t => t.redirected ∧ t.Warned ∧
      (∀ x ∈ es.flatMap LinkEvent.taken, x.1 ≠ .program) ∧
      ∀ result, ∀ e ∈ es, e = .readChar .USER result ∨ e = .peekChar .USER result → result = -1)
    ⟨hstarted, hwarned, List.forall_mem_nil _, fun _ => List.forall_mem_nil _⟩ (by
      rintro es t e t' ⟨ht, hwarn, htaken, hanswers⟩ hstep
      obtain ⟨ht', hnot⟩ := hstep.redirected ht
      refine ⟨ht', hstep.warned hwarn, ?_, ?_⟩
      · rw [List.flatMap_append, List.flatMap_singleton, List.forall_mem_append]
        exact ⟨htaken, hnot⟩
      · intro result
        rw [List.forall_mem_append]
        exact ⟨hanswers result, List.forall_mem_singleton.mpr (hstep.answers result)⟩)
  obtain ⟨_, hwarn, htaken, hanswers⟩ := hinv
  refine ⟨conserves_of_run hrun, htaken, ?_, hwarn⟩
  rintro result (hmem | hmem)
  · exact hanswers result _ hmem (.inl rfl)
  · exact hanswers result _ hmem (.inr rfl)

/-- The program asks for a byte after a Ctrl-C has come: it gets none, and the Ctrl-C
keeps waiting. -/
theorem bytes_taken_in_order_first_console :
    ∃ s s' : Linked (Channel → Bytes),
      Run (Step ⟨fun _ => ⟨0⟩⟩ queuePort) s
        [.silent .cpsid, .silent .finish, .readChar .USER (-1), .arrive .USER 0x61] s' ∧
      s'.port .USER = [DebugSession.CTRL_C, 0x61] ∧ s'.Warned := by
  obtain ⟨_, _, s, _, _, _, _, _, _, _, _, hstage, _, hopen, ⟨unpause, hphase⟩, hport, hwarned⟩ :=
    exists_first_console ⟨fun _ => ⟨0⟩⟩
  have hredirected : s.redirected := by
    rw [redirected, hstage]
    exact SessionStage.noConfusion
  obtain ⟨s₁, hreturn, hphase₁, hsession, _, hport₁, _⟩ :=
    exists_return ⟨fun _ => ⟨0⟩⟩ queuePort hopen hphase
  obtain ⟨s₂, hread, hport₂⟩ := exists_readChar hphase₁ (by rwa [redirected, hsession])
  obtain ⟨s', harrive, _⟩ := exists_arrive ⟨fun _ => ⟨0⟩⟩ s₂ 0x61
  have hrun := (hreturn.snoc hread).snoc harrive
  obtain ⟨hbytes, _, _, hwarned'⟩ :=
    bytes_taken_in_order ⟨fun _ => ⟨0⟩⟩ queuePort _ s s' hrun hredirected hwarned
  have hboth : s.port .USER ++ [0x61] = s'.port .USER := hbytes
  rw [hport] at hboth
  exact ⟨s, s', hrun, hboth.symm, hwarned'⟩

/-! The console. -/

/-- The console is only entered by a stop, and while it runs nobody else reads. -/
theorem Step.in_console (hstep : Step table P s e s') (hstop : e.isStop = false)
    (hin : s'.hooked.sys.inMonitor = true) :
    s.hooked.sys.inMonitor = true ∧ (s.redirected → ∀ x ∈ e.taken, x.1 = .console) := by
  have hquiet : ∀ {he : HookedEvent} {hooked : HookedSys},
      HookedSys.Step table s.hooked he hooked → hooked.sys.inMonitor = true →
      (∀ e, he = .sys e → e.isStop = false) → s.hooked.sys.inMonitor = true := by
    intro he hooked hstep hin he
    cases hstep with
    | sys _ _ hstep =>
      cases hstep with
      | unattended | lastTick => cases hin
      | attended => cases he _ rfl
      | tick hphase => rw [Sys.inMonitor, hphase]
      | «return» => cases hin
      | poll | pollBusy | run => exact hin
    | poll _ _ hstep =>
      cases hstep with
      | poll | pollBusy => exact hin
    | skip | cpsid => exact hin
    | finish _ hstep =>
      cases hstep
      cases hin
  cases hstep with
  | arrive | readChar | peekChar => exact ⟨hin, fun _ => List.forall_mem_nil _⟩
  | directRead _ _ hdirect | directPeek _ _ hdirect =>
    exact ⟨hin, fun hstarted => absurd hstarted hdirect⟩
  | fed hphase =>
    exact ⟨by rw [Sys.inMonitor, hphase], fun _ => List.forall_mem_singleton.mpr rfl⟩
  | silent _ hstep =>
    refine ⟨hquiet hstep hin ?_, fun _ => List.forall_mem_nil _⟩
    rintro e rfl
    exact hstop
  | poll hpolls _ hstep =>
    have hbefore := hquiet hstep hin (fun _ he => by cases he)
    rw [hpolls.2.1] at hbefore
    cases hbefore
  | irq _ hstep =>
    exact ⟨hquiet hstep hin (fun _ he => by cases he), fun _ => List.forall_mem_nil _⟩

/-- While a console session lasts, what GDB sends reaches the protocol library byte by
byte, whatever interrupts come in between. -/
theorem console_gets_every_byte (table : TranslationTable) (P : SerialPort π)
    (es : List LinkEvent) (s s' : Linked π) (hrun : Run (Step table P) s es s')
    (hstarted : s.redirected) (hsession : ∀ e ∈ es, e.isStop = false)
    (hin : s'.hooked.sys.inMonitor = true) :
    ∃ fed : Bytes, es.flatMap LinkEvent.taken = fed.map (fun byte => (.console, byte)) ∧
      P.waiting s.port .USER ++ es.flatMap LinkEvent.arrived =
        fed ++ P.waiting s'.port .USER := by
  have hall := hrun.invariant (P := fun es t => t.redirected ∧
      ((∀ e ∈ es, e.isStop = false) → t.hooked.sys.inMonitor = true →
        ∀ x ∈ es.flatMap LinkEvent.taken, x.1 = .console))
    ⟨hstarted, fun _ _ => List.forall_mem_nil _⟩ (by
      rintro es t e t' ⟨ht, htaken⟩ hstep
      refine ⟨(hstep.redirected ht).1, ?_⟩
      intro hnone hin'
      rw [List.forall_mem_append, List.forall_mem_singleton] at hnone
      obtain ⟨hbefore, hconsole⟩ := hstep.in_console hnone.2 hin'
      rw [List.flatMap_append, List.flatMap_singleton, List.forall_mem_append]
      exact ⟨htaken hnone.1 hbefore, hconsole ht⟩)
  have hconsole := hall.2 hsession hin
  refine ⟨(es.flatMap LinkEvent.taken).map Prod.snd, ?_, conserves_of_run hrun⟩
  rw [List.map_map]
  conv_lhs => rw [← List.map_id (es.flatMap LinkEvent.taken)]
  refine List.map_congr_left fun x hx => ?_
  exact Prod.ext (hconsole x hx) rfl

/-- A byte comes while the console reads another one. -/
theorem console_gets_every_byte_first_console :
    ∃ (s s' : Linked (Channel → Bytes)) (fed : Bytes),
      Run (Step ⟨fun _ => ⟨0⟩⟩ queuePort) s
        [.arrive .USER 0x23, .fed 0x24 (.packet [] .idle) []] s' ∧
      [.arrive .USER 0x23, .fed 0x24 (.packet [] .idle) []].flatMap LinkEvent.taken =
        fed.map (fun byte => (.console, byte)) ∧
      [0x24, 0x23] = fed ++ s'.port .USER := by
  obtain ⟨_, s, _, _, _, hphase, hopen, hredirected, hactive, hport, _⟩ :=
    exists_first_console ⟨fun _ => ⟨0⟩⟩
  obtain ⟨s₁, harrive, hhooked, hport₁⟩ := exists_arrive ⟨fun _ => ⟨0⟩⟩ s 0x23
  rw [hport] at hport₁
  have hcalls : V5Target.runCalls ⟨fun _ => ⟨0⟩⟩ [] s.hooked.sys.session.target =
      .ok (s.hooked.sys.session.target, []) := rfl
  obtain ⟨sys, htick, hphase', _⟩ := Sys.exists_tick hphase hcalls (by simp [hactive])
  obtain ⟨s', hfed, hhooked', _⟩ := exists_fed (by rw [hhooked]; exact hphase) hport₁
    (by rw [hhooked]; exact .sys hopen rfl htick)
  have hrun := (Run.single harrive).snoc hfed
  obtain ⟨fed, htaken, hbytes⟩ := console_gets_every_byte ⟨fun _ => ⟨0⟩⟩ queuePort _ s s' hrun
    hredirected (by simp [LinkEvent.isStop]) (by rw [hhooked', Sys.inMonitor, hphase'])
  have hboth : s.port .USER ++ [0x23] = fed ++ s'.port .USER := hbytes
  rw [hport] at hboth
  exact ⟨s, s', fed, hrun, htaken, hboth⟩

end Linked
end V5gdb
