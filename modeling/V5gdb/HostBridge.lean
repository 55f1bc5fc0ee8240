import V5gdb.SerialLink
import V5gdb.SharedWire

/-!
The whole connection between GDB and the debugger, in both directions.
On the device the tasks of the program and the debugger write packets to the serial port,
which takes them in parts. The host reads in pieces of its own, takes the packets apart
and passes on what GDB sends. No step loses a byte of it or takes one out of its turn.
-/
namespace V5gdb

open Framing RecordLayouts Transitions

/-- `serial::write_buf`, from what the system's function returns. -/
def serialWriteBuf (written : BitVec 32) : Option (BitVec 32) :=
  if written = -1 then none else some written

namespace Mux

/-- `user::write_buffer`, which takes the place of `vexSerialWriteBuffer`: its result and the
calls of `write_all`. For another channel the system's function is called, and has returned
`written`. -/
def userWriteBuffer (written : BitVec 32) (channel : Channel) (data : Bytes) :
    BitVec 32 × List (ChannelId × Bytes) :=
  if channel = .USER then (BitVec.ofNat 32 data.length, [(.user, data)])
  else ((serialWriteBuf written).getD (-1), [])

/-- `user::write_char`, likewise. -/
def userWriteChar (written : BitVec 32) (channel : Channel) (c : BitVec 8) :
    BitVec 32 × List (ChannelId × Bytes) :=
  if channel = .USER then (1, [(.user, [c])])
  else (if written ≠ 0 then 1 else 0, [])

theorem userWriteBuffer_calls (written : BitVec 32) (channel : Channel) (data : Bytes) :
    (userWriteBuffer written channel data).2 =
      if channel = .USER then [(.user, data)] else [] := by
  unfold userWriteBuffer
  split_ifs <;> rfl

theorem userWriteChar_calls (written : BitVec 32) (channel : Channel) (c : BitVec 8) :
    (userWriteChar written channel c).2 = if channel = .USER then [(.user, [c])] else [] := by
  unfold userWriteChar
  split_ifs <;> rfl

end Mux

/-- The size of the host's buffer for what the device writes, and for what GDB sends. -/
def PROGRAM_OUTPUT_SIZE : ℕ := 2048

def PROGRAM_INPUT_SIZE : ℕ := 4096

/-- Of what the serial port has accepted the host has read a part. What GDB has sent is in the
socket until the host reads it, and incoming until it comes to the device. -/
structure Bridged (π δ τ : Type*) where
  device : Linked π
  wire : Wire (Option τ)
  received : Bytes
  host : Host δ
  gdb : Bytes
  stderr : Bytes
  socket : Bytes
  incoming : Bytes

/-- Tasks write by the system's own function, and once these are redirected by calls of
`write_all`, with the result that they are told at the end. The debugger is no task. -/
inductive BridgeEvent (τ : Type*)
  | directWrite (data : Bytes)
  | writeBuffer (t : τ) (channel : Channel) (data : Bytes) (result : BitVec 32)
  | writeChar (t : τ) (channel : Channel) (c : BitVec 8) (result : BitVec 32)
  | transportWrite (buf : Bytes)
  | accepts (w : Option τ) (written : ℕ)
  | hostReads (bytes : Bytes)
  | gdbSends (bytes : Bytes)
  | hostForwards (bytes : Bytes)
  | arrives (byte : BitVec 8)
  | device (e : LinkEvent)

namespace BridgeEvent

variable {τ : Type*}

def channelOf (w : Option τ) : ChannelId := if w.isNone then .debug else .user

def calls : BridgeEvent τ → List (Option τ × Bytes)
  | writeBuffer t channel data _ => if channel = .USER then [(some t, data)] else []
  | writeChar t channel c _ => if channel = .USER then [(some t, [c])] else []
  | transportWrite buf => [(none, buf)]
  | _ => []

def ofCalls (calls : List (Option τ × Bytes)) : List (WireEvent (Option τ)) :=
  calls.map fun c => .call c.1 (channelOf c.1) c.2

def wireEvents : BridgeEvent τ → List (WireEvent (Option τ))
  | accepts w written => [.write w written]
  | e => ofCalls e.calls

def written (es : List (BridgeEvent τ)) : List (Option τ × Bytes) :=
  (es.flatMap calls).filter fun c => c.2 ≠ []

def sent : BridgeEvent τ → Bytes
  | gdbSends bytes => bytes
  | _ => []

def taken : BridgeEvent τ → Bytes
  | device e => e.taken.map Prod.snd
  | _ => []

def isUnframed : BridgeEvent τ → Bool
  | directWrite _ => true
  | _ => false

end BridgeEvent

namespace Bridged

open BridgeEvent

variable {π δ τ ε : Type*}

def serveOutput (D : ℕ → Decoder δ (BitVec 8)) (s : Bridged π δ τ) (bytes : Bytes) :
    Bridged π δ τ :=
  let (host, log) := Host.serveRead (D 2048) s.host bytes
  { s with
    received := s.received ++ bytes
    host
    gdb := s.gdb ++ gdbOutput log
    stderr := s.stderr ++ stderrOutput log }

def Runs (s : Bridged π δ τ) (w : Option τ) : Prop :=
  if w.isNone then s.device.hooked.sys.inMonitor = true
  else s.device.hooked.sys.phase = .program

inductive Step [DecidableEq τ] (table : TranslationTable) (P : SerialPort π)
    (E : Encoder ε (BitVec 8)) (D : ℕ → Decoder δ (BitVec 8)) :
    Bridged π δ τ → BridgeEvent τ → Bridged π δ τ → Prop
  | directWrite {s : Bridged π δ τ} {data : Bytes}
      (hphase : s.device.hooked.sys.phase = .program) (hdirect : ¬ s.device.redirected) :
      Step table P E D s (.directWrite data)
        { s with wire.accepted := s.wire.accepted ++ data }
  | writeBuffer {s : Bridged π δ τ} {t : τ} {channel : Channel} {data : Bytes}
      {wire : Wire (Option τ)} (returned : BitVec 32) (hruns : s.Runs (some t))
      (hredirected : s.device.redirected) (hlen : data.length < 2 ^ 32)
      (hcalls : Run (Wire.Step (Mux.packets E)) s.wire
        ((Mux.userWriteBuffer returned channel data).2.map fun c => .call (some t) c.1 c.2)
        wire) :
      Step table P E D s
        (.writeBuffer t channel data (Mux.userWriteBuffer returned channel data).1)
        { s with wire }
  | writeChar {s : Bridged π δ τ} {t : τ} {channel : Channel} {c : BitVec 8}
      {wire : Wire (Option τ)} (returned : BitVec 32) (hruns : s.Runs (some t))
      (hredirected : s.device.redirected)
      (hcalls : Run (Wire.Step (Mux.packets E)) s.wire
        ((Mux.userWriteChar returned channel c).2.map fun c => .call (some t) c.1 c.2) wire) :
      Step table P E D s (.writeChar t channel c (Mux.userWriteChar returned channel c).1)
        { s with wire }
  | transportWrite {s : Bridged π δ τ} {buf : Bytes} {wire : Wire (Option τ)}
      (hruns : s.Runs none)
      (hcall : Wire.Step (Mux.packets E) s.wire (.call none .debug buf) wire) :
      Step table P E D s (.transportWrite buf) { s with wire }
  | accepts {s : Bridged π δ τ} {w : Option τ} {written : ℕ} {wire : Wire (Option τ)}
      (hruns : s.Runs w)
      (hwrite : Wire.Step (Mux.packets E) s.wire (.write w written) wire) :
      Step table P E D s (.accepts w written) { s with wire }
  | hostReads {s : Bridged π δ τ} {bytes : Bytes}
      (haccepted : s.received ++ bytes <+: s.wire.accepted)
      (hsize : bytes.length ≤ PROGRAM_OUTPUT_SIZE) :
      Step table P E D s (.hostReads bytes) (s.serveOutput D bytes)
  | gdbSends {s : Bridged π δ τ} (bytes : Bytes) :
      Step table P E D s (.gdbSends bytes) { s with socket := s.socket ++ bytes }
  /-- At the end of GDB's stream, where no byte is read, the host stops. -/
  | hostForwards {s : Bridged π δ τ} {bytes rest : Bytes} (hsplit : s.socket = bytes ++ rest)
      (hsize : 0 < bytes.length ∧ bytes.length ≤ PROGRAM_INPUT_SIZE) :
      Step table P E D s (.hostForwards bytes)
        { s with socket := rest, incoming := s.incoming ++ bytes }
  | arrives {s : Bridged π δ τ} {byte : BitVec 8} {rest : Bytes} {device : Linked π}
      (hincoming : s.incoming = byte :: rest)
      (hstep : Linked.Step table P s.device (.arrive .USER byte) device) :
      Step table P E D s (.arrives byte) { s with device, incoming := rest }
  /-- The user channel gets its bytes from the host alone. -/
  | device {s : Bridged π δ τ} {e : LinkEvent} {device : Linked π} (harrived : e.arrived = [])
      (hstep : Linked.Step table P s.device e device) :
      Step table P E D s (.device e) { s with device }

/-- Everything is written as packets, each call makes a single one, and no write gets in
between the parts of another writer's packet. -/
structure QuietStep [DecidableEq τ] (table : TranslationTable) (P : SerialPort π)
    (E : Encoder ε (BitVec 8)) (D : ℕ → Decoder δ (BitVec 8)) (s : Bridged π δ τ)
    (e : BridgeEvent τ) (s' : Bridged π δ τ) : Prop where
  step : Step table P E D s e s'
  framed : e.isUnframed = false
  short : ∀ c ∈ e.calls, c.2.length ≤ 2037
  apart : ∀ f ∈ e.wireEvents, ¬ s.wire.Overtakes f

def start (D : ℕ → Decoder δ (BitVec 8)) (device : Linked π) : Bridged π δ τ where
  device
  wire := Wire.start
  received := []
  host := Host.fresh (D 2048)
  gdb := []
  stderr := []
  socket := []
  incoming := []

def Drained (s : Bridged π δ τ) : Prop :=
  (∀ w, (s.wire.writers w).todo = []) ∧ s.received = s.wire.accepted

def piece (c : Option τ × Bytes) : ChannelId × Bytes := (channelOf c.1, c.2)

variable [DecidableEq τ] {table : TranslationTable} {P : SerialPort π}
  {E : Encoder ε (BitVec 8)} {D : ℕ → Decoder δ (BitVec 8)} {encode : Bytes → Bytes}
  {s s' : Bridged π δ τ} {e : BridgeEvent τ} {es : List (BridgeEvent τ)} {bytes : Bytes}

theorem gdbOutput_append (log log' : List Delivery) :
    gdbOutput (log ++ log') = gdbOutput log ++ gdbOutput log' := List.flatMap_append

theorem stderrOutput_append (log log' : List Delivery) :
    stderrOutput (log ++ log') = stderrOutput log ++ stderrOutput log' := List.flatMap_append

/-- A task's call by a redirected function. -/
theorem quiet_of_calls {s s' : Wire (Option τ)} {calls : List (ChannelId × Bytes)} {t : τ}
    (hrun : Run (Wire.Step (Mux.packets E)) s
      (calls.map fun c => .call (some t) c.1 c.2) s') :
    Run (Wire.QuietStep (Mux.packets E)) s (calls.map fun c => .call (some t) c.1 c.2) s' := by
  induction calls generalizing s with
  | nil =>
    obtain rfl := hrun.nil_inv
    exact .nil _
  | cons call calls ih =>
    obtain ⟨s₁, hfirst, hrest⟩ := hrun.cons_inv
    exact .cons ⟨hfirst, fun h => h⟩ (ih hrest)

theorem QuietStep.wire (hstep : QuietStep table P E D s e s') :
    Run (Wire.QuietStep (Mux.packets E)) s.wire e.wireEvents s'.wire := by
  obtain ⟨hstep, hframed, _, hapart⟩ := hstep
  cases hstep with
  | directWrite => cases hframed
  | @writeBuffer t channel data wire returned hruns hredirected hlen hcalls =>
    have hrun := quiet_of_calls hcalls
    rw [Mux.userWriteBuffer_calls] at hrun
    by_cases huser : channel = .USER
    · simpa [huser, wireEvents, calls, ofCalls, channelOf] using hrun
    · simpa [huser, wireEvents, calls, ofCalls] using hrun
  | @writeChar t channel c wire returned hruns hredirected hcalls =>
    have hrun := quiet_of_calls hcalls
    rw [Mux.userWriteChar_calls] at hrun
    by_cases huser : channel = .USER
    · simpa [huser, wireEvents, calls, ofCalls, channelOf] using hrun
    · simpa [huser, wireEvents, calls, ofCalls] using hrun
  | transportWrite _ hcall => exact .single ⟨hcall, fun h => h⟩
  | accepts _ hwrite => exact .single ⟨hwrite, hapart _ (List.mem_singleton_self _)⟩
  | hostReads | gdbSends | hostForwards | arrives | device => exact .nil _

omit [DecidableEq τ] in
theorem written_cons (e : BridgeEvent τ) (es : List (BridgeEvent τ)) :
    written (e :: es) = e.calls.filter (fun c => c.2 ≠ []) ++ written es := by
  unfold written
  rw [List.flatMap_cons, List.filter_append]

omit [DecidableEq τ] in
theorem mem_written {c : Option τ × Bytes} (h : c ∈ written es) :
    ∃ e ∈ es, c ∈ e.calls := List.mem_flatMap.mp (List.mem_filter.mp h).1

def underway (P : SerialPort π) (s : Bridged π δ τ) : Bytes :=
  P.waiting s.device.port .USER ++ s.incoming ++ s.socket

theorem Step.conserves (hstep : Step table P E D s e s') :
    s.underway P ++ e.sent = e.taken ++ s'.underway P := by
  unfold underway
  cases hstep with
  | gdbSends bytes => simp [BridgeEvent.sent, BridgeEvent.taken]
  | hostForwards hsplit =>
    rw [hsplit]
    simp [BridgeEvent.sent, BridgeEvent.taken]
  | arrives hincoming hstep =>
    have hdevice := hstep.conserves
    simp only [LinkEvent.arrived, LinkEvent.taken, if_true, List.map_nil, List.nil_append]
      at hdevice
    rw [hincoming]
    simp [BridgeEvent.sent, BridgeEvent.taken, ← hdevice]
  | device harrived hstep =>
    have hdevice := hstep.conserves
    rw [harrived, List.append_nil] at hdevice
    rw [hdevice]
    simp [BridgeEvent.sent, BridgeEvent.taken]
  | _ => exact List.append_nil _

theorem conserves_of_run (hrun : Run (QuietStep table P E D) s es s') :
    s.underway P ++ es.flatMap BridgeEvent.sent =
      es.flatMap BridgeEvent.taken ++ s'.underway P := by
  refine hrun.invariant (P := fun es t => s.underway P ++ es.flatMap BridgeEvent.sent =
    es.flatMap BridgeEvent.taken ++ t.underway P) (List.append_nil _) ?_
  intro es t e t' ht hstep
  rw [List.flatMap_append, List.flatMap_singleton, ← List.append_assoc, ht, List.append_assoc,
    hstep.step.conserves, List.flatMap_append, List.flatMap_singleton, List.append_assoc]

theorem Step.result (hstep : Step table P E D s e s') {t : τ} {data : Bytes}
    {result : BitVec 32} (he : e = .writeBuffer t .USER data result) :
    result.toNat = data.length := by
  cases hstep with
  | writeBuffer _ _ _ hlen =>
    obtain ⟨_, hchannel, rfl, rfl⟩ := BridgeEvent.writeBuffer.inj he
    rw [Mux.userWriteBuffer, if_pos hchannel, BitVec.toNat_ofNat]
    exact Nat.mod_eq_of_lt hlen
  | _ => cases he

end Bridged
end V5gdb
