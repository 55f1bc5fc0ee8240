import V5gdb.Cobs
import V5gdb.RecordLayouts

/-!
The host's side of the serial connection.
What the device sends is read in pieces, and the packets in it go to GDB or to the
standard error stream. Bytes that are no packet are taken to be prints and are
passed on as they are, but only those of the piece at hand.
-/
namespace V5gdb

open Framing RecordLayouts

inductive ChannelId
  | user
  | debug
  deriving DecidableEq, Repr

def ChannelId.toByte : ChannelId → BitVec 8
  | user => 0x75
  | debug => 0x64

structure HostOutput where
  gdb : Bytes
  stderr : Bytes
  deriving DecidableEq, Repr

def handlePacket : Bytes → Option HostOutput
  | [] => none
  | channelByte :: body =>
    if channelByte = ChannelId.user.toByte then some ⟨[], body⟩
    else if channelByte = ChannelId.debug.toByte then some ⟨body, []⟩
    else none

inductive Delivery
  | packet (wire : Bytes) (out : HostOutput)
  | raw (bytes : Bytes)
  deriving DecidableEq, Repr

namespace Delivery

def out : Delivery → HostOutput
  | packet _ out => out
  | raw bytes => ⟨[], bytes⟩

def wire : Delivery → Bytes
  | packet wire _ => wire
  | raw bytes => bytes

/-- What is told to be the bytes of a packet has none that the decoder took before the
packet began and forgot. -/
def Tight {δ : Type*} (D : Decoder δ (BitVec 8)) : Delivery → Prop
  | packet wire _ => D.Tight wire
  | raw _ => True

end Delivery

def gdbOutput (log : List Delivery) : Bytes := log.flatMap fun x => x.out.gdb

def stderrOutput (log : List Delivery) : Bytes := log.flatMap fun x => x.out.stderr

def settledBytes (log : List Delivery) : Bytes := log.flatMap Delivery.wire

/-- The host between two reads. The bytes that the decoder holds are not kept by the
code; here they say what they were. -/
structure Host (δ : Type*) where
  decoder : δ
  held : Bytes
  deriving DecidableEq, Repr

namespace Host

variable {δ : Type*} (D : Decoder δ (BitVec 8))

def fresh : Host δ := ⟨D.start, []⟩

/-- The decode loop over what is left of a read; each turn takes at least one byte. -/
def decodeLoop : ℕ → Host δ → Bytes → Host δ × List Delivery
  | _, h, [] => (h, [])
  | 0, h, _ => (h, [])
  | n + 1, h, first :: rest =>
    match D.push h.decoder (first :: rest) with
    | .frame packet parsedSize =>
      let body := (first :: rest).take parsedSize
      let delivery :=
        match handlePacket packet with
        | some out => .packet (h.held ++ body) out
        -- an invalid packet is assumed to be raw data
        | none => .raw body
      let (h', log) := decodeLoop n (fresh D) ((first :: rest).drop parsedSize)
      (h', delivery :: log)
    | .invalid =>
      -- skips one byte and tries to resynchronize
      let (h', log) := decodeLoop n (fresh D) rest
      (h', .raw [first] :: log)
    -- the frame is split across reads
    | .more d => (⟨d, h.held ++ first :: rest⟩, [])

def serveRead (h : Host δ) (incomingBytes : Bytes) : Host δ × List Delivery :=
  decodeLoop D incomingBytes.length h incomingBytes

def serve : Host δ → List Bytes → Host δ × List Delivery
  | h, [] => (h, [])
  | h, read :: reads =>
    let (h', log) := serveRead D h read
    let (h'', log') := serve h' reads
    (h'', log ++ log')

/-! The stream without reads: the bytes one by one. -/

/-- The decoder does not take the byte, or it takes it to end a packet that is invalid. -/
def rejects (h : Host δ) (b : BitVec 8) : Bool :=
  match D.feed h.decoder b with
  | .more _ => false
  | .frame packet => (handlePacket packet).isNone
  | .invalid => true

def step (h : Host δ) (b : BitVec 8) : Host δ × List Delivery :=
  match D.feed h.decoder b with
  | .more d => (⟨d, h.held ++ [b]⟩, [])
  | .frame packet =>
    match handlePacket packet with
    | some out => (fresh D, [.packet (h.held ++ [b]) out])
    | none => (fresh D, [.raw [b]])
  | .invalid => (fresh D, [.raw [b]])

def scan : Host δ → Bytes → Host δ × List Delivery
  | h, [] => (h, [])
  | h, b :: bs =>
    let (h', log) := step D h b
    let (h'', log') := scan h' bs
    (h'', log ++ log')

/-- Whatever is rejected is a single byte right after a reset. -/
def Clean : Host δ → Bytes → Prop
  | _, [] => True
  | h, b :: bs => (rejects D h b = true → h.held = []) ∧ Clean (step D h b).1 bs

/-- No byte leaves the decoder as it is after a reset, unless something ends there. -/
def Awake : Host δ → Bytes → Prop
  | _, [] => True
  | h, b :: bs => D.feed h.decoder b ≠ .more D.start ∧ Awake (step D h b).1 bs

variable {D} {h h' : Host δ} {b : BitVec 8} {bs bs' : Bytes}

theorem scan_cons : scan D h (b :: bs) =
    ((scan D (step D h b).1 bs).1, (step D h b).2 ++ (scan D (step D h b).1 bs).2) := rfl

theorem serve_cons {read : Bytes} {reads : List Bytes} : serve D h (read :: reads) =
    ((serve D (serveRead D h read).1 reads).1,
      (serveRead D h read).2 ++ (serve D (serveRead D h read).1 reads).2) := rfl

theorem scan_append : scan D h (bs ++ bs') =
    ((scan D (scan D h bs).1 bs').1, (scan D h bs).2 ++ (scan D (scan D h bs).1 bs').2) := by
  induction bs generalizing h with
  | nil => rfl
  | cons b bs ih => rw [List.cons_append, scan_cons, ih, scan_cons, List.append_assoc]

theorem clean_append :
    Clean D h (bs ++ bs') ↔ Clean D h bs ∧ Clean D (scan D h bs).1 bs' := by
  induction bs generalizing h with
  | nil => exact (and_iff_right trivial).symm
  | cons b bs ih => rw [List.cons_append, Clean, Clean, ih, scan_cons, and_assoc]

theorem step_of_feed {d : δ} (hfeed : D.feed h.decoder b = .more d) :
    step D h b = (⟨d, h.held ++ [b]⟩, []) := by
  rw [step, hfeed]

/-- A byte is held, or it ends a packet that is delivered, or it is rejected. -/
theorem step_cases (D : Decoder δ (BitVec 8)) (h : Host δ) (b : BitVec 8) :
    (∃ d, D.feed h.decoder b = .more d ∧ rejects D h b = false ∧
      step D h b = (⟨d, h.held ++ [b]⟩, [])) ∨
    (∃ packet out, D.feed h.decoder b = .frame packet ∧ rejects D h b = false ∧
      step D h b = (fresh D, [.packet (h.held ++ [b]) out])) ∨
    rejects D h b = true ∧ step D h b = (fresh D, [.raw [b]]) := by
  rw [step, rejects]
  cases D.feed h.decoder b with
  | more d => exact .inl ⟨d, rfl, rfl, rfl⟩
  | invalid => exact .inr (.inr ⟨rfl, rfl⟩)
  | frame packet =>
    cases hpacket : handlePacket packet with
    | none => exact .inr (.inr (by simp [hpacket]))
    | some out => exact .inr (.inl ⟨packet, out, by simp [hpacket]⟩)

/-- Bytes that the decoder waits through are held. -/
theorem scan_of_waits {d d' : δ} {held : Bytes} (hwaits : D.Waits d bs d') :
    scan D ⟨d, held⟩ bs = (⟨d', held ++ bs⟩, []) := by
  induction hwaits generalizing held with
  | nil => rw [List.append_nil, scan]
  | cons hfeed _ ih =>
    rw [scan_cons, step_of_feed hfeed, ih, List.append_assoc]
    rfl

theorem clean_of_waits {d d' : δ} {held : Bytes} (hwaits : D.Waits d bs d') :
    Clean D ⟨d, held⟩ bs := by
  induction hwaits generalizing held with
  | nil => trivial
  | cons hfeed _ ih =>
    rw [Clean, step_of_feed hfeed]
    refine ⟨?_, ih⟩
    simp [rejects, hfeed]

/-- On a clean stream the loop does what the bytes one by one do. -/
theorem decodeLoop_eq_scan {n : ℕ} (hclean : Clean D h bs) (hlen : bs.length ≤ n) :
    decodeLoop D n h bs = scan D h bs := by
  induction n generalizing h bs with
  | zero =>
    obtain rfl := List.length_eq_zero_iff.mp (Nat.le_zero.mp hlen)
    rfl
  | succ n ih =>
    cases bs with
    | nil => rfl
    | cons first rest =>
      cases hpush : D.push h.decoder (first :: rest) with
      | more d =>
        rw [decodeLoop, hpush]
        exact (scan_of_waits (Decoder.waits_of_push hpush)).symm
      | frame packet parsedSize =>
        obtain ⟨pre, x, post, d, hsplit, hwaits, hframe, hsize⟩ := Decoder.frame_of_push hpush
        have hpre : scan D h pre = (⟨d, h.held ++ pre⟩, []) := scan_of_waits hwaits
        have htake : (first :: rest).take parsedSize = pre ++ [x] := by
          rw [hsplit, hsize]
          simp [List.take_append]
        have hdrop : (first :: rest).drop parsedSize = post := by
          rw [hsplit, hsize]
          simp [List.drop_append]
        rw [hsplit, clean_append, hpre] at hclean
        obtain ⟨_, hfirst, hpost⟩ := hclean
        have hpostlen : post.length ≤ n := by
          have hcount := congrArg List.length hsplit
          simp only [List.length_cons, List.length_append] at hcount hlen
          omega
        rw [decodeLoop, hpush]
        simp only [htake, hdrop]
        rw [hsplit, scan_append, hpre, scan_cons]
        simp only [step, hframe, rejects] at hfirst hpost ⊢
        cases hpacket : handlePacket packet with
        | some out =>
          simp only [hpacket] at hpost ⊢
          rw [ih hpost hpostlen, List.append_assoc]
          rfl
        | none =>
          simp only [hpacket] at hfirst hpost ⊢
          have hnil := (List.append_eq_nil_iff.mp (hfirst rfl)).2
          rw [ih hpost hpostlen, hnil]
          rfl
      | invalid =>
        obtain ⟨pre, x, post, d, hsplit, hwaits, hinvalid⟩ := Decoder.invalid_of_push hpush
        have hpre : scan D h pre = (⟨d, h.held ++ pre⟩, []) := scan_of_waits hwaits
        have hall := hclean
        rw [hsplit, clean_append, hpre] at hall
        obtain ⟨_, hfirst, hpost⟩ := hall
        simp only [rejects, hinvalid] at hfirst
        obtain rfl := (List.append_eq_nil_iff.mp (hfirst trivial)).2
        rw [List.nil_append] at hsplit
        obtain ⟨rfl, rfl⟩ := List.cons.inj hsplit
        cases hwaits
        have hstep : step D h first = (fresh D, [.raw [first]]) := by rw [step, hinvalid]
        rw [step, hinvalid] at hpost
        rw [decodeLoop, hpush, scan_cons, hstep, ih hpost (Nat.le_of_succ_le_succ hlen)]
        rfl

theorem clean_of_reads {read : Bytes} {reads : List Bytes}
    (hclean : Clean D h (read :: reads).flatten) :
    Clean D h read ∧ Clean D (scan D h read).1 reads.flatten := by
  rw [List.flatten_cons, clean_append] at hclean
  exact hclean

/-- On a clean stream it makes no difference where the reads end. -/
theorem serve_eq_scan {reads : List Bytes} (hclean : Clean D h reads.flatten) :
    serve D h reads = scan D h reads.flatten := by
  induction reads generalizing h with
  | nil => rfl
  | cons read reads ih =>
    obtain ⟨hread, hrest⟩ := clean_of_reads hclean
    have hfirst : serveRead D h read = scan D h read := decodeLoop_eq_scan hread le_rfl
    rw [List.flatten_cons, scan_append, serve_cons, hfirst, ih hrest]

/-- Reads of one byte are the bytes one by one. -/
theorem serve_singletons : serve D h (bs.map fun b => [b]) = scan D h bs := by
  induction bs generalizing h with
  | nil => rfl
  | cons b bs ih =>
    have hone : serveRead D h [b] = step D h b := by
      rw [serveRead, List.length_singleton, decodeLoop, Decoder.push, step]
      cases D.feed h.decoder b with
      | more d => rfl
      | invalid => rfl
      | frame packet =>
        cases hpacket : handlePacket packet <;> simp only [hpacket] <;> rfl
    rw [List.map_cons, serve_cons, hone, ih, scan_cons]

theorem settledBytes_append (log log' : List Delivery) :
    settledBytes (log ++ log') = settledBytes log ++ settledBytes log' :=
  List.flatMap_append

/-- A byte is held, or it settles what was held, or it is all that is passed on. -/
theorem step_settled (h : Host δ) (b : BitVec 8) :
    settledBytes (step D h b).2 ++ (step D h b).1.held =
      if rejects D h b then [b] else h.held ++ [b] := by
  obtain ⟨_, _, hkept, hstep⟩ | ⟨_, _, _, hkept, hstep⟩ | ⟨hrejects, hstep⟩ := step_cases D h b
  · rw [hstep, hkept]
    rfl
  · rw [hstep, hkept]
    simp [settledBytes, Delivery.wire, fresh]
  · rw [hstep, hrejects]
    rfl

/-- The bytes one by one lose nothing exactly where the stream is clean. -/
theorem scan_settled_length (h : Host δ) (bs : Bytes) :
    (settledBytes (scan D h bs).2).length + (scan D h bs).1.held.length ≤
        h.held.length + bs.length ∧
      ((settledBytes (scan D h bs).2).length + (scan D h bs).1.held.length =
        h.held.length + bs.length → Clean D h bs) := by
  induction bs generalizing h with
  | nil => exact ⟨by simp [scan, settledBytes], fun _ => trivial⟩
  | cons b bs ih =>
    obtain ⟨hle, heq⟩ := ih (step D h b).1
    have hfirst := congrArg List.length (step_settled (D := D) h b)
    rw [List.length_append] at hfirst
    rw [scan_cons]
    simp only [settledBytes_append, List.length_append, List.length_cons, Clean]
    cases hrejects : rejects D h b with
    | false =>
      rw [hrejects] at hfirst
      simp only [Bool.false_eq_true, if_false, List.length_append, List.length_singleton]
        at hfirst
      exact ⟨by omega, fun hall => ⟨nofun, heq (by omega)⟩⟩
    | true =>
      rw [hrejects] at hfirst
      simp only [if_true, List.length_singleton] at hfirst
      refine ⟨by omega, fun hall => ⟨fun _ => ?_, heq (by omega)⟩⟩
      exact List.length_eq_zero_iff.mp (by omega)

theorem scan_settled (hclean : Clean D h bs) :
    settledBytes (scan D h bs).2 ++ (scan D h bs).1.held = h.held ++ bs := by
  induction bs generalizing h with
  | nil => simp [scan, settledBytes]
  | cons b bs ih =>
    obtain ⟨hfirst, hrest⟩ := hclean
    have hstep := step_settled (D := D) h b
    have hkept : settledBytes (step D h b).2 ++ (step D h b).1.held = h.held ++ [b] := by
      rw [hstep]
      by_cases hrejects : rejects D h b = true
      · rw [if_pos hrejects, hfirst hrejects, List.nil_append]
      · rw [if_neg hrejects]
    rw [scan_cons, settledBytes_append, List.append_assoc, ih hrest, ← List.append_assoc,
      hkept, List.append_assoc, List.singleton_append]

/-- The bytes held are those that the decoder was fed since the last reset. -/
theorem waits_step (hwaits : D.Waits D.start h.held h.decoder) :
    D.Waits D.start (step D h b).1.held (step D h b).1.decoder := by
  obtain ⟨d, hfeed, _, hstep⟩ | ⟨_, _, _, _, hstep⟩ | ⟨_, hstep⟩ := step_cases D h b
  · rw [hstep]
    exact hwaits.append (.cons hfeed (.nil d))
  · rw [hstep]
    exact .nil _
  · rw [hstep]
    exact .nil _

/-- While the decoder is awake, what a packet is said to be made of are its own bytes. -/
theorem step_tight (hwaits : D.Waits D.start h.held h.decoder) (htight : D.Tight h.held)
    (hawake : D.feed h.decoder b ≠ .more D.start) :
    (∀ x ∈ (step D h b).2, x.Tight D) ∧ D.Tight (step D h b).1.held := by
  have hgrown := htight.snoc hwaits hawake
  obtain ⟨_, _, _, hstep⟩ | ⟨_, _, _, _, hstep⟩ | ⟨_, hstep⟩ := step_cases D h b
  · rw [hstep]
    exact ⟨List.forall_mem_nil _, hgrown⟩
  · rw [hstep]
    exact ⟨List.forall_mem_singleton.mpr hgrown, Decoder.tight_nil⟩
  · rw [hstep]
    exact ⟨List.forall_mem_singleton.mpr trivial, Decoder.tight_nil⟩

theorem scan_tight (hwaits : D.Waits D.start h.held h.decoder) (htight : D.Tight h.held)
    (hawake : Awake D h bs) :
    (∀ x ∈ (scan D h bs).2, x.Tight D) ∧ D.Tight (scan D h bs).1.held := by
  induction bs generalizing h with
  | nil => exact ⟨List.forall_mem_nil _, htight⟩
  | cons b bs ih =>
    obtain ⟨hfirst, hrest⟩ := hawake
    obtain ⟨hstep, hkept⟩ := step_tight hwaits htight hfirst
    obtain ⟨hlog, hheld⟩ := ih (waits_step hwaits) hkept hrest
    rw [scan_cons]
    exact ⟨List.forall_mem_append.mpr ⟨hstep, hlog⟩, hheld⟩

/-- Bytes that the decoder has forgotten stay in front of those that are held. -/
theorem not_scan_tight (hlost : ¬ D.Tight h.held) (hclean : Clean D h bs)
    (hlog : ∀ x ∈ (scan D h bs).2, x.Tight D) : ¬ D.Tight (scan D h bs).1.held := by
  induction bs generalizing h with
  | nil => exact hlost
  | cons b bs ih =>
    obtain ⟨hfirst, hrest⟩ := hclean
    have hgrown : ¬ D.Tight (h.held ++ [b]) := fun htight => hlost htight.of_append
    rw [scan_cons] at hlog ⊢
    obtain ⟨hdelivered, hlog⟩ := List.forall_mem_append.mp hlog
    refine ih ?_ hrest hlog
    obtain ⟨_, _, _, hstep⟩ | ⟨_, _, _, _, hstep⟩ | ⟨hrejects, _⟩ := step_cases D h b
    · rw [hstep]
      exact hgrown
    · rw [hstep] at hdelivered
      exact absurd (hdelivered _ (List.mem_singleton_self _)) hgrown
    · rw [hfirst hrejects] at hlost
      exact absurd Decoder.tight_nil hlost

/-- Otherwise a byte is forgotten that no packet has. -/
theorem awake_of_tight (hwaits : D.Waits D.start h.held h.decoder) (hclean : Clean D h bs)
    (hlog : ∀ x ∈ (scan D h bs).2, x.Tight D) (hheld : D.Tight (scan D h bs).1.held) :
    Awake D h bs := by
  induction bs generalizing h with
  | nil => trivial
  | cons b bs ih =>
    obtain ⟨hfirst, hrest⟩ := hclean
    rw [scan_cons] at hlog hheld
    obtain ⟨hstep, hlog⟩ := List.forall_mem_append.mp hlog
    refine ⟨?_, ih (waits_step hwaits) hrest hlog hheld⟩
    intro hback
    refine not_scan_tight ?_ hrest hlog hheld
    rw [step_of_feed hback]
    exact Decoder.not_tight_of_feed hwaits hback

/-- How a stream is cut into reads makes no difference to what is written, and the
bytes that are in no valid packet are all passed on, those excepted that the
decoder still holds. -/
structure CutInvariant (D : Decoder δ (BitVec 8)) (stream : Bytes) : Prop where
  same : ∀ reads reads' : List Bytes, reads.flatten = stream → reads'.flatten = stream →
    gdbOutput (serve D (fresh D) reads).2 = gdbOutput (serve D (fresh D) reads').2 ∧
      stderrOutput (serve D (fresh D) reads).2 = stderrOutput (serve D (fresh D) reads').2
  full : ∀ reads : List Bytes, reads.flatten = stream →
    settledBytes (serve D (fresh D) reads).2 ++ (serve D (fresh D) reads).1.held = stream
  own : ∀ reads : List Bytes, reads.flatten = stream →
    (∀ x ∈ (serve D (fresh D) reads).2, x.Tight D) ∧
      D.Tight (serve D (fresh D) reads).1.held

/-- Demultiplexing is independent of the reads and loses nothing exactly where no more than
a single byte is ever rejected, and none is forgotten between two packets. -/
theorem cutInvariant_iff (D : Decoder δ (BitVec 8)) (stream : Bytes) :
    CutInvariant D stream ↔ Clean D (fresh D) stream ∧ Awake D (fresh D) stream := by
  constructor
  · intro hcut
    have hflat : (stream.map fun b => [b]).flatten = stream := by
      rw [← List.flatMap_def, List.flatMap_singleton']
    have hsingle := hcut.full _ hflat
    obtain ⟨hlog, hheld⟩ := hcut.own _ hflat
    rw [serve_singletons] at hsingle hlog hheld
    have hclean : Clean D (fresh D) stream := by
      refine (scan_settled_length (fresh D) stream).2 ?_
      have hlen := congrArg List.length hsingle
      rw [List.length_append] at hlen
      rw [hlen, fresh, List.length_nil, Nat.zero_add]
    exact ⟨hclean, awake_of_tight (.nil _) hclean hlog hheld⟩
  · intro hquiet
    obtain ⟨hclean, hawake⟩ := hquiet
    have hserve : ∀ reads : List Bytes, reads.flatten = stream →
        serve D (fresh D) reads = scan D (fresh D) stream := by
      intro reads hreads
      rw [← hreads] at hclean ⊢
      exact serve_eq_scan hclean
    constructor
    case same =>
      intro reads reads' hreads hreads'
      rw [hserve reads hreads, hserve reads' hreads']
      exact ⟨rfl, rfl⟩
    case full =>
      intro reads hreads
      rw [hserve reads hreads, scan_settled hclean]
      rfl
    case own =>
      intro reads hreads
      rw [hserve reads hreads]
      exact scan_tight (.nil _) Decoder.tight_nil hawake

/-- The program prints an `A` and the debugger sends an acknowledgement. If both are
read at once GDB gets the latter; if a read ends in between it gets nothing. -/
theorem packet_lost_after_print :
    gdbOutput (serve (Cobs.decoder 2048) (fresh (Cobs.decoder 2048))
        [[0x41, 3, 0x64, 0x2b, 0]]).2 = [0x2b] ∧
      gdbOutput (serve (Cobs.decoder 2048) (fresh (Cobs.decoder 2048))
        [[0x41], [3, 0x64, 0x2b, 0]]).2 = [] ∧
      ¬ CutInvariant (Cobs.decoder 2048) [0x41, 3, 0x64, 0x2b, 0] := by
  have hwhole : gdbOutput (serve (Cobs.decoder 2048) (fresh (Cobs.decoder 2048))
      [[0x41, 3, 0x64, 0x2b, 0]]).2 = [0x2b] := by decide
  have hcut : gdbOutput (serve (Cobs.decoder 2048) (fresh (Cobs.decoder 2048))
      [[0x41], [3, 0x64, 0x2b, 0]]).2 = [] := by decide
  refine ⟨hwhole, hcut, ?_⟩
  intro h
  have hsame := (h.same [[0x41, 3, 0x64, 0x2b, 0]] [[0x41], [3, 0x64, 0x2b, 0]] rfl rfl).1
  rw [hwhole, hcut] at hsame
  cases hsame

end Host
end V5gdb
