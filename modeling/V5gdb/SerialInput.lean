import V5gdb.Session

/-!
The receiving side of the serial connection.
The console, the interrupt handler and the program all read from one buffer, which the
system fills on its own. Once a session has started the program's reads are answered
without looking at the buffer, so the debugger is its only consumer.
-/
namespace V5gdb

open RecordLayouts

abbrev Channel := BitVec 32

def Channel.USER : Channel := 1

/-- The system calls that read from the serial port, as they are documented. They return
`-1` for no byte. The interrupt handler does not peek. -/
structure SerialPort (π : Type*) where
  sysRead : π → Channel → BitVec 32 × π
  sysPeek : π → Channel → BitVec 32
  /-- The bytes of a channel that wait to be read, the oldest first. -/
  waiting : π → Channel → Bytes
  sysRead_empty : ∀ p channel, waiting p channel = [] → sysRead p channel = (-1, p)
  sysRead_next : ∀ p channel byte bytes, waiting p channel = byte :: bytes →
    (sysRead p channel).1 = byte.setWidth 32 ∧
      waiting (sysRead p channel).2 = Function.update (waiting p) channel bytes

def queuePort : SerialPort (Channel → Bytes) where
  sysRead p channel :=
    match p channel with
    | [] => (-1, p)
    | byte :: bytes => (byte.setWidth 32, Function.update p channel bytes)
  sysPeek p channel :=
    match p channel with
    | [] => -1
    | byte :: _ => byte.setWidth 32
  waiting p := p
  sysRead_empty p channel h := by simp only [h]
  sysRead_next p channel byte bytes h := by simp only [h, and_self]

namespace SerialPort

variable {π : Type*} (P : SerialPort π)

def readByte (p : π) (channel : Channel) : Option (BitVec 8) × π :=
  let (byte, p) := P.sysRead p channel
  (if byte = -1 then none else some (byte.setWidth 8), p)

def peekByte (p : π) (channel : Channel) : Option (BitVec 8) :=
  let byte := P.sysPeek p channel
  if byte = -1 then none else some (byte.setWidth 8)

/-- `StdioTransport::try_read`. The console's `read` makes this call until there is a byte. -/
def tryRead (p : π) : Option (BitVec 8) × π := P.readByte p .USER

/-- `user::read_char`, which takes the place of `vexSerialReadChar`. Returned last is
whether the program tried to read the user channel. -/
def userReadChar (p : π) (channel : Channel) : BitVec 32 × π × Bool :=
  if channel = .USER then (-1, p, true)
  else
    let (byte, p) := P.readByte p channel
    ((byte.map (BitVec.setWidth 32)).getD (-1), p, false)

/-- `user::peek_char`, likewise. -/
def userPeekChar (p : π) (channel : Channel) : BitVec 32 × Bool :=
  if channel = .USER then (-1, true)
  else (((P.peekByte p channel).map (BitVec.setWidth 32)).getD (-1), false)

/-- The loop of `poll`, in at most `n` turns: bytes are read until one of them is Ctrl-C
or there are no more. Returned are the bytes that were read. -/
def drain : ℕ → π → Bytes × π
  | 0, p => ([], p)
  | n + 1, p =>
    match P.tryRead p with
    | (none, p) => ([], p)
    | (some byte, p) =>
      if byte = DebugSession.CTRL_C then ([byte], p)
      else
        let (bytes, p) := drain n p
        (byte :: bytes, p)

variable {P} {p : π} {channel : Channel} {byte : BitVec 8} {bytes : Bytes}

/-- A byte is never taken for the absence of one. -/
theorem setWidth_ne_none (byte : BitVec 8) : byte.setWidth 32 ≠ (-1 : BitVec 32) := by
  revert byte
  decide

theorem setWidth_setWidth (byte : BitVec 8) : (byte.setWidth 32).setWidth 8 = byte := by
  revert byte
  decide

theorem readByte_empty (h : P.waiting p channel = []) : P.readByte p channel = (none, p) := by
  rw [readByte, P.sysRead_empty p channel h]
  rfl

theorem exists_readByte_next (h : P.waiting p channel = byte :: bytes) :
    ∃ p', P.readByte p channel = (some byte, p') ∧
      P.waiting p' = Function.update (P.waiting p) channel bytes := by
  obtain ⟨hbyte, hrest⟩ := P.sysRead_next p channel byte bytes h
  refine ⟨(P.sysRead p channel).2, ?_, hrest⟩
  simp only [readByte, hbyte, if_neg (setWidth_ne_none byte), setWidth_setWidth]

/-- A byte that was read is the oldest one that waited. -/
theorem waiting_of_readByte {p' : π} (h : P.readByte p channel = (some byte, p')) :
    ∃ bytes, P.waiting p channel = byte :: bytes ∧
      P.waiting p' = Function.update (P.waiting p) channel bytes := by
  cases hwait : P.waiting p channel with
  | nil =>
    rw [readByte_empty hwait] at h
    cases h
  | cons first bytes =>
    obtain ⟨p₁, hread, hrest⟩ := exists_readByte_next hwait
    obtain ⟨hbyte, rfl⟩ := Prod.mk.inj (hread.symm.trans h)
    obtain rfl := Option.some.inj hbyte
    exact ⟨bytes, rfl, hrest⟩

/-- What the program gets for the user channel does not depend on the buffer, and reading
leaves it alone; other channels are read as ever. -/
theorem userReadChar_user (P : SerialPort π) (p : π) :
    P.userReadChar p .USER = (-1, p, true) := if_pos rfl

theorem userReadChar_waiting (P : SerialPort π) (p : π) (channel : Channel) :
    P.waiting (P.userReadChar p channel).2.1 .USER = P.waiting p .USER := by
  by_cases huser : channel = .USER
  · rw [huser, userReadChar_user]
  · rw [userReadChar, if_neg huser]
    cases hwait : P.waiting p channel with
    | nil => rw [readByte_empty hwait]
    | cons byte bytes =>
      obtain ⟨p', hread, hrest⟩ := exists_readByte_next hwait
      rw [hread]
      exact (congrFun hrest _).trans (Function.update_of_ne (Ne.symm huser) _ _)

def seen (bytes : Bytes) : Bytes :=
  bytes.takeWhile (· ≠ DebugSession.CTRL_C) ++
    (bytes.dropWhile (· ≠ DebugSession.CTRL_C)).take 1

def unseen (bytes : Bytes) : Bytes := (bytes.dropWhile (· ≠ DebugSession.CTRL_C)).drop 1

theorem seen_append_unseen (bytes : Bytes) : seen bytes ++ unseen bytes = bytes := by
  rw [seen, unseen, List.append_assoc, List.take_append_drop, List.takeWhile_append_dropWhile]

theorem seen_cons (byte : BitVec 8) (bytes : Bytes) : seen (byte :: bytes) =
    if byte = DebugSession.CTRL_C then [byte] else byte :: seen bytes := by
  by_cases hctrl : byte = DebugSession.CTRL_C
  · simp [seen, hctrl]
  · simp [seen, hctrl]

theorem unseen_cons (byte : BitVec 8) (bytes : Bytes) : unseen (byte :: bytes) =
    if byte = DebugSession.CTRL_C then bytes else unseen bytes := by
  by_cases hctrl : byte = DebugSession.CTRL_C
  · simp [unseen, hctrl]
  · simp [unseen, hctrl]

/-- A Ctrl-C anywhere in the buffer is seen. -/
theorem mem_seen_iff (bytes : Bytes) :
    DebugSession.CTRL_C ∈ seen bytes ↔ DebugSession.CTRL_C ∈ bytes := by
  induction bytes with
  | nil => rfl
  | cons byte bytes ih =>
    rw [seen_cons]
    by_cases hctrl : byte = DebugSession.CTRL_C
    · simp [hctrl]
    · rw [if_neg hctrl, List.mem_cons, List.mem_cons, ih]

/-- The loop ends, with the bytes up to the first Ctrl-C taken off the buffer. -/
theorem drain_spec (P : SerialPort π) {n : ℕ} {p : π} (hn : (P.waiting p .USER).length < n) :
    (P.drain n p).1 = seen (P.waiting p .USER) ∧
      P.waiting (P.drain n p).2 =
        Function.update (P.waiting p) .USER (unseen (P.waiting p .USER)) := by
  induction n generalizing p with
  | zero => exact absurd hn (Nat.not_lt_zero _)
  | succ n ih =>
    cases hwait : P.waiting p .USER with
    | nil =>
      have hread : P.tryRead p = (none, p) := readByte_empty hwait
      rw [drain, hread]
      exact ⟨rfl, (Function.update_eq_self_iff.mpr hwait.symm).symm⟩
    | cons byte bytes =>
      obtain ⟨p', hread, hrest⟩ := exists_readByte_next hwait
      have htry : P.tryRead p = (some byte, p') := hread
      rw [drain, htry, seen_cons, unseen_cons]
      by_cases hctrl : byte = DebugSession.CTRL_C
      · simp only [if_pos hctrl, hrest, and_self]
      · have hnext : P.waiting p' .USER = bytes := by rw [hrest, Function.update_self]
        rw [hwait, List.length_cons] at hn
        obtain ⟨hseen, hleft⟩ := ih (p := p') (by rw [hnext]; omega)
        simp only [if_neg hctrl, hseen, hleft, hnext, hrest, Function.update_idem, and_self]

end SerialPort
end V5gdb
