import V5gdb.Competition
import V5gdb.Target

/-!
The commands of `monitor`.
A command is a line of words. Most of them print something; a few change the automatic
stop of the motors, the motors themselves, the override of the competition status or the
level of the log, and no command changes anything else.
-/
namespace V5gdb

open RecordLayouts

/-- What is around the debugger and that commands change. A port without a device has no
voltage. -/
structure Robot where
  voltages : ℕ → Option ℤ
  competition : Competition
  maxLevel : ℕ

namespace Robot

/-- The body of the loop over the ports: the voltage of a device is set to zero. -/
def stopPort (voltages : ℕ → Option ℤ) (portNum : ℕ) : ℕ → Option ℤ :=
  match voltages portNum with
  | none => voltages
  | some _ => Function.update voltages portNum (some 0)

/-- `maxPorts` is the number of ports of the brain. -/
def stopAllMotors (maxPorts : ℕ) (voltages : ℕ → Option ℤ) : ℕ → Option ℤ :=
  (List.range maxPorts).foldl stopPort voltages

theorem stopPort_of_ne (voltages : ℕ → Option ℤ) {portNum port : ℕ} (hne : port ≠ portNum) :
    stopPort voltages portNum port = voltages port := by
  unfold stopPort
  cases voltages portNum with
  | none => rfl
  | some mv => exact Function.update_of_ne hne _ _

theorem stopPort_self (voltages : ℕ → Option ℤ) (portNum : ℕ) :
    stopPort voltages portNum portNum = (voltages portNum).map fun _ => 0 := by
  unfold stopPort
  cases hdevice : voltages portNum with
  | none => exact hdevice
  | some mv => exact Function.update_self ..

/-- A port without a device does not end the loop. -/
theorem stopAllMotors_apply (maxPorts : ℕ) (voltages : ℕ → Option ℤ) (port : ℕ) :
    stopAllMotors maxPorts voltages port =
      if port < maxPorts then (voltages port).map fun _ => 0 else voltages port := by
  unfold stopAllMotors
  induction maxPorts with
  | zero => rfl
  | succ n ih =>
    rw [List.range_succ, List.foldl_append, List.foldl_cons, List.foldl_nil]
    by_cases hport : port = n
    · subst hport
      rw [if_neg (Nat.lt_irrefl port)] at ih
      rw [stopPort_self, ih, if_pos (Nat.lt_succ_self port)]
    · have hlt : port < n + 1 ↔ port < n := by omega
      rw [stopPort_of_ne _ hport, ih]
      simp only [hlt]

theorem stopAllMotors_idem (maxPorts : ℕ) (voltages : ℕ → Option ℤ) :
    stopAllMotors maxPorts (stopAllMotors maxPorts voltages) =
      stopAllMotors maxPorts voltages := by
  funext port
  simp only [stopAllMotors_apply]
  split_ifs
  · rw [Option.map_map]
    rfl
  · rfl

end Robot

namespace Monitor

/-- What Unicode calls white space. -/
def isWhitespace (c : Char) : Bool :=
  let n := c.toNat
  (0x9 ≤ n && n ≤ 0xD) || n = 0x20 || n = 0x85 || n = 0xA0 || n = 0x1680 ||
    (0x2000 ≤ n && n ≤ 0x200A) || n = 0x2028 || n = 0x2029 || n = 0x202F || n = 0x205F ||
    n = 0x3000

/-- The rest of a word that has begun with these letters, which are in reverse, and the words
behind it. -/
def splitWord (word : List Char) : List Char → List String
  | [] => if word = [] then [] else [String.ofList word.reverse]
  | c :: cs =>
    if isWhitespace c then
      if word = [] then splitWord [] cs else String.ofList word.reverse :: splitWord [] cs
    else splitWord (c :: word) cs

def splitWhitespace (s : String) : List String := splitWord [] s.toList

/-- The words of a command. What is not UTF-8 has none. -/
def commandWords (data : Bytes) : List String :=
  let bytes : ByteArray := ⟨(data.map UInt8.ofBitVec).toArray⟩
  splitWhitespace ((String.fromUTF8? bytes).getD "")

/-- A command that is sent as text arrives as its words. -/
theorem commandWords_text (s : String) :
    commandWords (s.toUTF8.data.toList.map UInt8.toBitVec) = splitWhitespace s := by
  have hbytes : ∀ bytes : List UInt8, (bytes.map UInt8.toBitVec).map UInt8.ofBitVec = bytes := by
    intro bytes
    rw [List.map_map]
    exact List.map_id bytes
  unfold commandWords
  simp only [hbytes, Array.toArray_toList]
  have hvalid : (⟨s.toUTF8.data⟩ : ByteArray).IsValidUTF8 := s.isValidUTF8
  unfold String.fromUTF8?
  rw [dif_pos hvalid]
  rfl

def LEVELS : List String := ["off", "error", "warn", "info", "debug", "trace"]

def levelFromStr (s : String) : Option ℕ :=
  LEVELS.findIdx? fun name => name.toList = s.toList.map Char.toLower

structure Reports where
  description : String
  devices : List String
  battery : List String
  controller : Option String → List String
  breaks : V5Target → List String
  hwManager : V5Target → List String
  system : List String → List String

def HELP_MSG : String := "
Monitor commands:
    help                                Show this help message.
    stop                                Immediately stop all motors right now.
    autostop ?                          Show whether auto-stop on breakpoint is enabled.
    autostop (true | false)             Enable or disable automatic motor stop on breakpoint.
    dev                                 List connected smart devices.
    batt                                View battery status.
    ctrl [partner]                      View controller state, primary (default) or partner.
    comp                                View competition state.
    comp (driver | auton | disabled)    Override competition mode.
    comp (none | fc | switch)           Override competition system.
    comp real                           Stop overriding competition state.
    log [level]                         Set the current log level (off/trace/debug/info/warn/error).
    dbg break                           Show internal software breakpoint status.
    dbg hw                              Show internal hardware debug status.
"

structure Outcome where
  target : V5Target
  robot : Robot
  out : List String

def autostop (arg : Option String) (t : V5Target) (r : Robot) : Outcome :=
  match arg with
  | some "true" =>
    ⟨{ t with stopMotorsOnBreak := true }, r,
      ["auto motor-stop on breakpoint: ENABLED.",
        "All motors will be stopped immediately whenever a breakpoint fires."]⟩
  | some "false" =>
    ⟨{ t with stopMotorsOnBreak := false }, r, ["Auto motor-stop on breakpoint: DISABLED."]⟩
  | some "?" =>
    let state := if t.stopMotorsOnBreak then "ENABLED" else "DISABLED"
    ⟨t, r, ["Auto motor-stop on breakpoint: " ++ state ++ ".",
      "Use `monitor autostop true` or `monitor autostop false` to change the state."]⟩
  | some unknown =>
    ⟨t, r, ["Unknown argument '" ++ unknown ++ "'. Use 'true' or 'false' or '?'.",
      "Example: `monitor autostop true`"]⟩
  | none =>
    ⟨t, r, ["Please include valid arguments this includes: ",
      "`autostop ?`                Show whether auto-stop on breakpoint is enabled.",
      "`autostop (true | false)`   Enable or disable automatic motor stop on breakpoint."]⟩

def competitionChange? : String → Option CompetitionChange
  | "driver" | "op" | "opcontrol" => some .driver
  | "auto" | "auton" | "autonomous" => some .auton
  | "dis" | "disabled" => some .disabled
  | "none" | "disconnected" => some .none
  | "fc" | "field-control" => some .fieldControl
  | "switch" => some .switch
  | _ => none

def comp (arg : Option String) (t : V5Target) (r : Robot) : Outcome :=
  match arg with
  | some word =>
    match competitionChange? word with
    | some change => ⟨t, { r with competition := r.competition.change change }, []⟩
    | none =>
      if word = "real" then ⟨t, { r with competition := r.competition.giveUp }, []⟩
      else ⟨t, r, ["Unknown competition state type"]⟩
  | none =>
    let real := r.competition.readRealStatus
    match r.competition.readOverride with
    | some overridden => ⟨t, r, ["override: " ++ overridden.debug, "real: " ++ real.debug]⟩
    | none => ⟨t, r, ["status: " ++ real.debug]⟩

def dbg (reports : Reports) (arg : Option String) (t : V5Target) : List String :=
  match arg with
  | none => ["Please specify a subcommand."]
  | some "break" => reports.breaks t
  | some "hw" => reports.hwManager t
  | some _ => ["Unknown subcommand. See 'monitor help' for more info."]

def log (arg : Option String) (t : V5Target) (r : Robot) : Outcome :=
  match arg.bind levelFromStr with
  | some level => ⟨t, { r with maxLevel := level }, []⟩
  | none => ⟨t, r, ["Expected off/trace/debug/info/warn/error."]⟩

/-- A command that has been split into words. Without any it is the one for help. -/
def runCommand (reports : Reports) (maxPorts : ℕ) (words : List String) (t : V5Target)
    (r : Robot) : Outcome :=
  let cmd := words.headD "help"
  let args := words.tail
  match cmd with
  | "stop" =>
    ⟨t, { r with voltages := Robot.stopAllMotors maxPorts r.voltages }, ["All motors stopped."]⟩
  | "autostop" => autostop args.head? t r
  | "dev" | "devices" => ⟨t, r, reports.devices⟩
  | "batt" | "battery" => ⟨t, r, reports.battery⟩
  | "ctrl" => ⟨t, r, reports.controller args.head?⟩
  | "comp" => comp args.head? t r
  | "dbg" => ⟨t, r, dbg reports args.head? t⟩
  | "log" => log args.head? t r
  | "sys" => ⟨t, r, reports.system args⟩
  | "?" | "h" | "help" =>
    ⟨t, r, [reports.description, HELP_MSG] ++ reports.system ["help"]⟩
  | _ => ⟨t, r, ["Unknown command. See 'monitor help' for more info."]⟩

def handleMonitorCmd (reports : Reports) (maxPorts : ℕ) (data : Bytes) (t : V5Target)
    (r : Robot) : Outcome := runCommand reports maxPorts (commandWords data) t r

/-! What the words of a command ask for. -/

def autostop? : List String → Option Bool
  | "autostop" :: "true" :: _ => some true
  | "autostop" :: "false" :: _ => some false
  | _ => none

def stops : List String → Bool
  | "stop" :: _ => true
  | _ => false

def competition? : List String → Option Competition.Event
  | "comp" :: "real" :: _ => some .giveUp
  | "comp" :: word :: _ => (competitionChange? word).map .change
  | _ => none

inductive Effect (maxPorts : ℕ) (words : List String) (t : V5Target) (r : Robot) :
    V5Target → Robot → Prop
  | prints (hautostop : autostop? words = none) (hstops : stops words = false)
      (hcomp : competition? words = none) (level : ℕ) :
      Effect maxPorts words t r t { r with maxLevel := level }
  | autostop (enabled : Bool) (hautostop : autostop? words = some enabled)
      (hstops : stops words = false) (hcomp : competition? words = none) :
      Effect maxPorts words t r { t with stopMotorsOnBreak := enabled } r
  | stop (hautostop : autostop? words = none) (hstops : stops words = true)
      (hcomp : competition? words = none) :
      Effect maxPorts words t r t { r with voltages := Robot.stopAllMotors maxPorts r.voltages }
  | competition (e : Competition.Event) (c : Competition) (hautostop : autostop? words = none)
      (hstops : stops words = false) (hcomp : competition? words = some e)
      (hstep : Competition.Step r.competition e c) :
      Effect maxPorts words t r t { r with competition := c }

variable {reports : Reports} {maxPorts : ℕ} {words : List String} {t : V5Target} {r : Robot}

theorem autostop_effect (args : List String) (t : V5Target) (r : Robot) :
    Effect maxPorts ("autostop" :: args) t r (autostop args.head? t r).target
      (autostop args.head? t r).robot := by
  cases args with
  | nil => exact .prints rfl rfl rfl r.maxLevel
  | cons arg args =>
    show Effect _ _ _ _ (autostop (some arg) t r).target (autostop (some arg) t r).robot
    unfold autostop
    split
    · next harg =>
      obtain rfl := Option.some.inj harg
      exact .autostop true rfl rfl rfl
    · next harg =>
      obtain rfl := Option.some.inj harg
      exact .autostop false rfl rfl rfl
    · next harg =>
      obtain rfl := Option.some.inj harg
      exact .prints rfl rfl rfl r.maxLevel
    · next unknown htrue hfalse _ harg =>
      obtain rfl := Option.some.inj harg
      refine .prints ?_ rfl rfl r.maxLevel
      unfold autostop?
      split
      · next h => exact absurd (List.cons.inj (List.cons.inj h).2).1 htrue
      · next h => exact absurd (List.cons.inj (List.cons.inj h).2).1 hfalse
      · rfl
    · next harg => cases harg

theorem comp_effect (args : List String) (t : V5Target) (r : Robot) :
    Effect maxPorts ("comp" :: args) t r (comp args.head? t r).target
      (comp args.head? t r).robot := by
  cases args with
  | nil =>
    have hprints : (comp none t r).target = t ∧ (comp none t r).robot = r := by
      unfold comp
      dsimp only
      split <;> exact ⟨rfl, rfl⟩
    show Effect _ _ _ _ (comp none t r).target (comp none t r).robot
    rw [hprints.1, hprints.2]
    exact .prints rfl rfl rfl r.maxLevel
  | cons word args =>
    show Effect _ _ _ _ (comp (some word) t r).target (comp (some word) t r).robot
    unfold comp
    by_cases hreal : word = "real"
    · subst hreal
      exact .competition .giveUp _ rfl rfl rfl .giveUp
    · have hcomp : competition? ("comp" :: word :: args) =
          (competitionChange? word).map .change := by
        unfold competition?
        split
        · next h => exact absurd (List.cons.inj (List.cons.inj h).2).1 hreal
        · next h =>
          rw [(List.cons.inj (List.cons.inj h).2).1]
        · next h => exact absurd rfl (h word args)
      cases hword : competitionChange? word with
      | none =>
        rw [hword] at hcomp
        simp only [hword, if_neg hreal]
        exact .prints rfl rfl hcomp r.maxLevel
      | some change =>
        rw [hword] at hcomp
        simp only [hword]
        exact .competition (.change change) _ rfl rfl hcomp (.change change)

theorem log_effect (args : List String) (t : V5Target) (r : Robot) :
    Effect maxPorts ("log" :: args) t r (log args.head? t r).target
      (log args.head? t r).robot := by
  unfold log
  cases args.head?.bind levelFromStr with
  | none => exact .prints rfl rfl rfl r.maxLevel
  | some level => exact .prints rfl rfl rfl level

theorem runCommand_effect (reports : Reports) (maxPorts : ℕ) (words : List String) (t : V5Target)
    (r : Robot) :
    Effect maxPorts words t r (runCommand reports maxPorts words t r).target
      (runCommand reports maxPorts words t r).robot := by
  cases words with
  | nil => exact .prints rfl rfl rfl r.maxLevel
  | cons cmd args =>
    unfold runCommand
    simp only [List.headD_cons, List.tail_cons]
    split
    · exact .stop rfl rfl rfl
    · exact autostop_effect args t r
    · exact .prints rfl rfl rfl r.maxLevel
    · exact .prints rfl rfl rfl r.maxLevel
    · exact .prints rfl rfl rfl r.maxLevel
    · exact .prints rfl rfl rfl r.maxLevel
    · exact .prints rfl rfl rfl r.maxLevel
    · exact comp_effect args t r
    · exact .prints rfl rfl rfl r.maxLevel
    · exact log_effect args t r
    · exact .prints rfl rfl rfl r.maxLevel
    · exact .prints rfl rfl rfl r.maxLevel
    · exact .prints rfl rfl rfl r.maxLevel
    · exact .prints rfl rfl rfl r.maxLevel
    · next hstop hautostop _ _ _ _ _ hcomp _ _ _ _ _ _ =>
      refine .prints ?_ ?_ ?_ r.maxLevel
      · unfold autostop?
        split
        · next h => exact absurd (List.cons.inj h).1 hautostop
        · next h => exact absurd (List.cons.inj h).1 hautostop
        · rfl
      · unfold stops
        split
        · next h => exact absurd (List.cons.inj h).1 hstop
        · rfl
      · unfold competition?
        split
        · next h => exact absurd (List.cons.inj h).1 hcomp
        · next h => exact absurd (List.cons.inj h).1 hcomp
        · rfl

end Monitor
end V5gdb
