import V5gdb.Demultiplexing

/-!
The device's side of the serial connection.
Data of a channel is cut into packets that fit the buffer once they are encoded, and
the serial port takes the packets in parts. Put together with the host's side
nothing of it is seen: each channel's data arrives as it was written.
-/
namespace V5gdb

open Framing RecordLayouts

def OUT_BUF_SIZE : ℕ := 2048

namespace Mux

section Packets

variable {ε : Type*} (E : Encoder ε (BitVec 8))

/-- Puts as many bytes as possible into a packet; returned last is what is left. -/
def fillPacket : ε → Bytes → ε × Bytes
  | e, [] => (e, [])
  | e, byte :: buf =>
    let (e, accepted) := E.push e byte
    if accepted then fillPacket e buf else (e, byte :: buf)

/-- The next packet with its delimiter, and the bytes after it. It fails where the
code panics: if the channel does not fit, or the delimiter is out of the buffer. -/
def nextPacket (channel : ChannelId) (buf : Bytes) : Option (Bytes × Bytes) :=
  let (encoder, accepted) := E.push (E.new (OUT_BUF_SIZE - 1)) channel.toByte
  if accepted then
    let (encoder, buf) := fillPacket E encoder buf
    let encoded := E.finalize encoder
    if encoded.length < OUT_BUF_SIZE then some (encoded ++ [0], buf) else none
  else none

def packetsWithin : ℕ → ChannelId → Bytes → Option (List Bytes)
  | _, _, [] => some []
  | 0, _, _ => none
  | n + 1, channel, buf => do
    let (packet, buf) ← nextPacket E channel buf
    let packets ← packetsWithin n channel buf
    return packet :: packets

/-- The packets that a call writes if it comes to its end. -/
def packets (channel : ChannelId) (buf : Bytes) : List Bytes :=
  (packetsWithin E buf.length channel buf).getD []

end Packets

/-- Writes a slice. The serial port takes some bytes at a time, as many as the list
says; if the list ends first the write does not complete. -/
def serialWriteAll : List ℕ → Bytes → Option (Bytes × List ℕ)
  | [], _ => none
  | written :: accepts, slice =>
    let rest := slice.drop (min written slice.length)
    if rest.isEmpty then some (slice.take written, accepts)
    else do
      let (later, accepts) ← serialWriteAll accepts rest
      return (slice.take written ++ later, accepts)

def writePackets : List ℕ → List Bytes → Option (Bytes × List ℕ)
  | accepts, [] => some ([], accepts)
  | accepts, packet :: packets => do
    let (first, accepts) ← serialWriteAll accepts packet
    let (later, accepts) ← writePackets accepts packets
    return (first ++ later, accepts)

section Calls

variable {ε : Type*} (E : Encoder ε (BitVec 8))

def writeAll (accepts : List ℕ) (channel : ChannelId) (buf : Bytes) :
    Option (Bytes × List ℕ) := do
  let packets ← packetsWithin E buf.length channel buf
  writePackets accepts packets

def writeCalls : List ℕ → List (ChannelId × Bytes) → Option (Bytes × List ℕ)
  | accepts, [] => some ([], accepts)
  | accepts, (channel, buf) :: calls => do
    let (first, accepts) ← writeAll E accepts channel buf
    let (later, accepts) ← writeCalls accepts calls
    return (first ++ later, accepts)

end Calls

def wirePacket (encode : Bytes → Bytes) (channel : ChannelId) (body : Bytes) : Bytes :=
  encode (channel.toByte :: body) ++ [0]

def Fits (encode : Bytes → Bytes) (channel : ChannelId) (body : Bytes) : Prop :=
  (encode (channel.toByte :: body)).length < OUT_BUF_SIZE

variable {ε δ : Type*} {E : Encoder ε (BitVec 8)} {encode : Bytes → Bytes}
  {D : ℕ → Decoder δ (BitVec 8)} {channel : ChannelId} {buf body wire : Bytes}
  {accepts later : List ℕ} {e : ε} {data : Bytes} {maxLen : ℕ}

theorem fillPacket_cons (byte : BitVec 8) (buf : Bytes) : fillPacket E e (byte :: buf) =
    if (E.push e byte).2 = true then fillPacket E (E.push e byte).1 buf
    else ((E.push e byte).1, byte :: buf) := rfl

/-- If all of the bytes fit they are all put into the packet. -/
theorem fillPacket_short (hE : E.Encodes encode) (hacc : E.Accepted maxLen e data)
    (hroom : ∀ pre, pre <+: buf → (encode (data ++ pre)).length ≤ maxLen) :
    (fillPacket E e buf).2 = [] ∧ E.Accepted maxLen (fillPacket E e buf).1 (data ++ buf) := by
  induction buf generalizing e data with
  | nil =>
    rw [fillPacket, List.append_nil]
    exact ⟨rfl, hacc⟩
  | cons byte buf ih =>
    have hpush := hE.accepts hacc (hroom [byte] (List.prefix_append [byte] buf))
    have hrest := ih (hacc.push hpush) (by
      intro pre hpre
      rw [List.append_assoc, List.singleton_append]
      exact hroom (byte :: pre) ((List.prefix_cons_inj byte).mpr hpre))
    rw [List.append_assoc, List.singleton_append] at hrest
    rw [fillPacket_cons, if_pos hpush]
    exact hrest

theorem fillPacket_spec (hE : E.EncodesExactly encode) (hacc : E.Accepted maxLen e data)
    (hfits : (encode data).length ≤ maxLen) (buf : Bytes) :
    ∃ taken, buf = taken ++ (fillPacket E e buf).2 ∧
      E.Accepted maxLen (fillPacket E e buf).1 (data ++ taken) ∧
      (encode (data ++ taken)).length ≤ maxLen := by
  induction buf generalizing e data with
  | nil =>
    refine ⟨[], rfl, ?_⟩
    rw [fillPacket, List.append_nil]
    exact ⟨hacc, hfits⟩
  | cons byte buf ih =>
    rw [fillPacket_cons]
    cases hpush : (E.push e byte).2 with
    | true =>
      obtain ⟨taken, hsplit, htaken, hlen⟩ := ih (hacc.push hpush) (hE.fits hacc hpush)
      rw [List.append_assoc, List.singleton_append] at htaken hlen
      rw [if_pos rfl]
      exact ⟨byte :: taken, congrArg (byte :: ·) hsplit, htaken, hlen⟩
    | false =>
      rw [if_neg Bool.false_ne_true, hE.unchanged hpush]
      refine ⟨[], rfl, ?_⟩
      rw [List.append_nil]
      exact ⟨hacc, hfits⟩

/-- Some bytes always fit: a packet of them is short enough. -/
theorem fits_of_length (hcode : Cobs.IsCode encode D) (channel : ChannelId)
    (hlen : body.length ≤ 2037) : Fits encode channel body := by
  have hbound := hcode.bounded (channel.toByte :: body)
  have hsize : OUT_BUF_SIZE = 2048 := rfl
  rw [List.length_cons] at hbound
  unfold Fits
  omega

/-- The channel is accepted at first. -/
theorem push_channel (hE : E.Encodes encode) (hcode : Cobs.IsCode encode D)
    (channel : ChannelId) : (E.push (E.new (OUT_BUF_SIZE - 1)) channel.toByte).2 = true := by
  have hbound : Fits encode channel [] := fits_of_length hcode channel (Nat.zero_le _)
  have hsize : OUT_BUF_SIZE = 2048 := rfl
  apply hE.accepts .new
  rw [List.nil_append]
  unfold Fits at hbound
  omega

/-- A packet is made of the bytes that were accepted after the channel. -/
theorem nextPacket_eq (hE : E.Encodes encode) (hcode : Cobs.IsCode encode D)
    (hacc : E.Accepted (OUT_BUF_SIZE - 1)
      (fillPacket E (E.push (E.new (OUT_BUF_SIZE - 1)) channel.toByte).1 buf).1
      (channel.toByte :: body))
    (hfits : Fits encode channel body) :
    nextPacket E channel buf = some (wirePacket encode channel body,
      (fillPacket E (E.push (E.new (OUT_BUF_SIZE - 1)) channel.toByte).1 buf).2) := by
  have hsize : OUT_BUF_SIZE = 2048 := rfl
  have hroom : (encode (channel.toByte :: body)).length ≤ OUT_BUF_SIZE - 1 := by
    unfold Fits at hfits
    omega
  simp only [nextPacket, push_channel hE hcode channel, if_true, hE.finalize hacc hroom]
  exact if_pos hfits

theorem nextPacket_spec (hE : E.EncodesExactly encode) (hcode : Cobs.IsCode encode D)
    (channel : ChannelId) (hne : buf ≠ []) :
    ∃ body rest, buf = body ++ rest ∧ body ≠ [] ∧ Fits encode channel body ∧
      nextPacket E channel buf = some (wirePacket encode channel body, rest) := by
  have hsize : OUT_BUF_SIZE = 2048 := rfl
  have hchannel := push_channel hE.toEncodes hcode channel
  have hacc : E.Accepted (OUT_BUF_SIZE - 1)
      (E.push (E.new (OUT_BUF_SIZE - 1)) channel.toByte).1 [channel.toByte] := .push .new hchannel
  cases buf with
  | nil => exact absurd rfl hne
  | cons byte buf =>
    -- the first byte is accepted, so the packet takes at least this one
    have hone := fits_of_length hcode channel (show [byte].length ≤ 2037 by simp)
    have hroom : (encode ([channel.toByte] ++ [byte])).length ≤ OUT_BUF_SIZE - 1 := by
      unfold Fits at hone
      rw [List.singleton_append]
      omega
    have hpush := hE.accepts hacc hroom
    obtain ⟨taken, hsplit, htaken, hlen⟩ := fillPacket_spec hE (hacc.push hpush) hroom buf
    have hfill : fillPacket E (E.push (E.new (OUT_BUF_SIZE - 1)) channel.toByte).1
        (byte :: buf) = fillPacket E (E.push _ byte).1 buf := if_pos hpush
    have hfits : Fits encode channel (byte :: taken) := by
      have hshorter : (encode (channel.toByte :: byte :: taken)).length ≤ OUT_BUF_SIZE - 1 := hlen
      unfold Fits
      omega
    have hnext := nextPacket_eq hE.toEncodes hcode (by rw [hfill]; exact htaken) hfits
    rw [hfill] at hnext
    exact ⟨byte :: taken, _, congrArg (byte :: ·) hsplit, List.cons_ne_nil _ _, hfits, hnext⟩

/-- Every packet takes at least a byte off the buffer, so the loop ends. -/
theorem packetsWithin_spec (hE : E.EncodesExactly encode) (hcode : Cobs.IsCode encode D)
    (n : ℕ) (channel : ChannelId) (buf : Bytes) (hlen : buf.length ≤ n) :
    ∃ bodies : List Bytes,
      packetsWithin E n channel buf = some (bodies.map (wirePacket encode channel)) ∧
        bodies.flatten = buf ∧ ∀ body ∈ bodies, body ≠ [] ∧ Fits encode channel body := by
  induction n generalizing buf with
  | zero =>
    obtain rfl := List.length_eq_zero_iff.mp (Nat.le_zero.mp hlen)
    exact ⟨[], rfl, rfl, List.forall_mem_nil _⟩
  | succ n ih =>
    cases hbuf : buf with
    | nil => exact ⟨[], rfl, rfl, List.forall_mem_nil _⟩
    | cons byte tail =>
      rw [← hbuf]
      obtain ⟨body, rest, hsplit, hne, hfits, hnext⟩ :=
        nextPacket_spec hE hcode channel (show buf ≠ [] by simp [hbuf])
      have hpos := List.length_pos_of_ne_nil hne
      have hcount := congrArg List.length hsplit
      rw [List.length_append] at hcount
      obtain ⟨bodies, hpackets, hflat, hall⟩ := ih rest (by omega)
      refine ⟨body :: bodies, ?_, ?_, List.forall_mem_cons.mpr ⟨⟨hne, hfits⟩, hall⟩⟩
      · have hturn : packetsWithin E (n + 1) channel buf =
            (nextPacket E channel buf).bind fun p =>
              (packetsWithin E n channel p.2).bind fun packets => some (p.1 :: packets) := by
          rw [hbuf]
          rfl
        rw [hturn, hnext, Option.bind_some, hpackets]
        rfl
      · rw [List.flatten_cons, hflat, ← hsplit]

/-- A short buffer makes a single packet. -/
theorem packets_short (hE : E.Encodes encode) (hcode : Cobs.IsCode encode D)
    (channel : ChannelId) (hne : buf ≠ []) (hlen : buf.length ≤ 2037) :
    packets E channel buf = [wirePacket encode channel buf] := by
  have hsize : OUT_BUF_SIZE = 2048 := rfl
  have hchannel := push_channel hE hcode channel
  have hroom : ∀ pre, pre <+: buf →
      (encode ([] ++ [channel.toByte] ++ pre)).length ≤ OUT_BUF_SIZE - 1 := by
    intro pre hpre
    have hle := hpre.length_le
    have hfits : Fits encode channel pre := fits_of_length hcode channel (by omega)
    unfold Fits at hfits
    rw [List.nil_append, List.singleton_append]
    omega
  obtain ⟨hall, hacc⟩ := fillPacket_short hE (.push .new hchannel) hroom
  have hnext := nextPacket_eq hE hcode hacc (fits_of_length hcode channel hlen)
  rw [hall] at hnext
  cases hbuf : buf with
  | nil => exact absurd hbuf hne
  | cons byte tail =>
    rw [hbuf] at hnext
    rw [packets, List.length_cons, packetsWithin, hnext]
    · cases tail.length <;> rfl
    · exact fun h => List.cons_ne_nil _ _ h

/-- A packet tells which bytes it was made of. -/
theorem wirePacket_injective (hcode : Cobs.IsCode encode D) (channel : ChannelId) :
    Function.Injective (wirePacket encode channel) := by
  intro body body' h
  have hencode := List.append_cancel_right h
  let capacity := max (channel.toByte :: body).length (channel.toByte :: body').length
  obtain ⟨d, hwaits, hframe⟩ := hcode.decodes (le_max_left _ _ : _ ≤ capacity)
  obtain ⟨d', hwaits', hframe'⟩ := hcode.decodes (le_max_right _ _ : _ ≤ capacity)
  rw [hencode] at hwaits
  rw [hwaits.unique hwaits', hframe'] at hframe
  exact (List.cons.inj (Fed.frame.inj hframe)).2.symm

/-- Every packet has its delimiter at least. -/
theorem ne_nil_of_mem_packetsWithin {n : ℕ} {all : List Bytes}
    (h : packetsWithin E n channel buf = some all) : ∀ packet ∈ all, packet ≠ [] := by
  induction n generalizing buf all with
  | zero =>
    cases buf with
    | nil =>
      obtain rfl := Option.some.inj h
      exact List.forall_mem_nil _
    | cons byte tail => cases h
  | succ n ih =>
    cases buf with
    | nil =>
      obtain rfl := Option.some.inj h
      exact List.forall_mem_nil _
    | cons byte tail =>
      obtain ⟨⟨packet, rest⟩, hnext, h⟩ := Option.bind_eq_some_iff.mp h
      obtain ⟨later, hlater, h⟩ := Option.bind_eq_some_iff.mp h
      obtain rfl := Option.some.inj h
      refine List.forall_mem_cons.mpr ⟨?_, ih hlater⟩
      simp only [nextPacket] at hnext
      split_ifs at hnext
      obtain ⟨rfl, _⟩ := Prod.mk.inj (Option.some.inj hnext)
      exact List.append_ne_nil_of_right_ne_nil _ (List.cons_ne_nil _ _)

theorem packets_ne_nil (E : Encoder ε (BitVec 8)) (channel : ChannelId) (buf : Bytes) :
    ∀ packet ∈ packets E channel buf, packet ≠ [] := by
  unfold packets
  cases hall : packetsWithin E buf.length channel buf with
  | none => exact List.forall_mem_nil _
  | some all => exact ne_nil_of_mem_packetsWithin hall

theorem serialWriteAll_eq {slice out : Bytes}
    (h : serialWriteAll accepts slice = some (out, later)) : out = slice := by
  induction accepts generalizing slice out later with
  | nil => cases h
  | cons written accepts ih =>
    rw [serialWriteAll] at h
    have htake : slice.take written = slice.take (min written slice.length) := by
      rw [List.take_eq_take_iff]
      omega
    by_cases hrest : (slice.drop (min written slice.length)).isEmpty = true
    · rw [if_pos hrest] at h
      obtain ⟨rfl, _⟩ := Prod.mk.inj (Option.some.inj h)
      rw [htake]
      conv_rhs => rw [← List.take_append_drop (min written slice.length) slice,
        List.isEmpty_iff.mp hrest, List.append_nil]
    · rw [if_neg hrest] at h
      obtain ⟨⟨more, accepts'⟩, hmore, h⟩ := Option.bind_eq_some_iff.mp h
      obtain ⟨rfl, _⟩ := Prod.mk.inj (Option.some.inj h)
      rw [ih hmore, htake, List.take_append_drop]

theorem writePackets_eq {packets : List Bytes}
    (h : writePackets accepts packets = some (wire, later)) : wire = packets.flatten := by
  induction packets generalizing accepts wire later with
  | nil =>
    obtain ⟨rfl, _⟩ := Prod.mk.inj (Option.some.inj h)
    rfl
  | cons packet packets ih =>
    obtain ⟨⟨first, accepts₁⟩, hfirst, h⟩ := Option.bind_eq_some_iff.mp h
    obtain ⟨⟨rest, accepts₂⟩, hrest, h⟩ := Option.bind_eq_some_iff.mp h
    obtain ⟨rfl, _⟩ := Prod.mk.inj (Option.some.inj h)
    rw [serialWriteAll_eq hfirst, ih hrest, List.flatten_cons]

def payload (channel : ChannelId) (pieces : List (ChannelId × Bytes)) : Bytes :=
  pieces.flatMap fun p => if p.1 = channel then p.2 else []

theorem payload_append (pieces pieces' : List (ChannelId × Bytes)) :
    payload channel (pieces ++ pieces') = payload channel pieces ++ payload channel pieces' :=
  List.flatMap_append

theorem payload_bodies (channel' : ChannelId) (bodies : List Bytes) :
    payload channel (bodies.map fun body => (channel', body)) =
      if channel' = channel then bodies.flatten else [] := by
  induction bodies with
  | nil => simp [payload]
  | cons body bodies ih =>
    rw [payload] at ih
    rw [List.map_cons, payload, List.flatMap_cons, ih]
    split_ifs <;> rfl

def wirePackets (encode : Bytes → Bytes) (pieces : List (ChannelId × Bytes)) : Bytes :=
  pieces.flatMap fun p => wirePacket encode p.1 p.2

/-- What is on the wire are packets that say on each channel what was written. -/
theorem writeCalls_spec (hE : E.EncodesExactly encode) (hcode : Cobs.IsCode encode D)
    {calls : List (ChannelId × Bytes)} (h : writeCalls E accepts calls = some (wire, later)) :
    ∃ pieces, wire = wirePackets encode pieces ∧ (∀ p ∈ pieces, Fits encode p.1 p.2) ∧
      ∀ channel, payload channel pieces = payload channel calls := by
  induction calls generalizing accepts wire later with
  | nil =>
    obtain ⟨rfl, _⟩ := Prod.mk.inj (Option.some.inj h)
    exact ⟨[], rfl, List.forall_mem_nil _, fun _ => rfl⟩
  | cons call calls ih =>
    obtain ⟨channel, buf⟩ := call
    obtain ⟨⟨first, accepts₁⟩, hfirst, h⟩ := Option.bind_eq_some_iff.mp h
    obtain ⟨⟨rest, accepts₂⟩, hrest, h⟩ := Option.bind_eq_some_iff.mp h
    obtain ⟨rfl, _⟩ := Prod.mk.inj (Option.some.inj h)
    obtain ⟨bodies, hpackets, hflat, hall⟩ :=
      packetsWithin_spec hE hcode buf.length channel buf le_rfl
    rw [writeAll, hpackets] at hfirst
    obtain ⟨pieces, hwire, hfits, hpayload⟩ := ih hrest
    refine ⟨bodies.map (fun body => (channel, body)) ++ pieces, ?_, ?_, ?_⟩
    · have hbodies : wirePackets encode (bodies.map fun body => (channel, body)) =
          (bodies.map (wirePacket encode channel)).flatten := by
        rw [wirePackets, List.flatMap_map, List.flatMap_def]
      rw [writePackets_eq hfirst, hwire, ← hbodies, wirePackets, wirePackets, wirePackets,
        List.flatMap_append]
    · rw [List.forall_mem_append]
      refine ⟨?_, hfits⟩
      intro p hp
      obtain ⟨body, hbody, rfl⟩ := List.mem_map.mp hp
      exact (hall body hbody).2
    · intro c
      rw [payload_append, hpayload, payload_bodies, hflat]
      rfl

end Mux

namespace Host

variable {δ : Type*} {encode : Bytes → Bytes} {D : ℕ → Decoder δ (BitVec 8)}
  {channel : ChannelId} {body : Bytes}

def outputOf (channel : ChannelId) (body : Bytes) : HostOutput :=
  match channel with
  | .user => ⟨[], body⟩
  | .debug => ⟨body, []⟩

theorem handlePacket_channel (channel : ChannelId) (body : Bytes) :
    handlePacket (channel.toByte :: body) = some (outputOf channel body) := by
  cases channel <;> rfl

/-- A packet is clean and is delivered, and leaves nothing behind. -/
theorem scan_wirePacket (hcode : Cobs.IsCode encode D) (hfits : Mux.Fits encode channel body) :
    Clean (D 2048) (fresh (D 2048)) (Mux.wirePacket encode channel body) ∧
      scan (D 2048) (fresh (D 2048)) (Mux.wirePacket encode channel body) =
        (fresh (D 2048),
          [.packet (Mux.wirePacket encode channel body) (outputOf channel body)]) := by
  have hlen := hcode.longer (channel.toByte :: body)
  have hsize : OUT_BUF_SIZE = 2048 := rfl
  rw [Mux.Fits] at hfits
  obtain ⟨s, hwaits, hframe⟩ := hcode.decodes
    (show (channel.toByte :: body).length ≤ 2048 by omega)
  have hheld : scan (D 2048) (fresh (D 2048)) (encode (channel.toByte :: body)) =
      (⟨s, encode (channel.toByte :: body)⟩, []) := scan_of_waits hwaits
  have hstep : step (D 2048) ⟨s, encode (channel.toByte :: body)⟩ 0 =
      (fresh (D 2048),
        [.packet (Mux.wirePacket encode channel body) (outputOf channel body)]) := by
    rw [step, hframe]
    simp only [handlePacket_channel]
    rfl
  have hrejects : rejects (D 2048) ⟨s, encode (channel.toByte :: body)⟩ 0 = false := by
    rw [rejects, hframe]
    simp only [handlePacket_channel, Option.isNone_some]
  constructor
  · rw [Mux.wirePacket, clean_append, hheld]
    refine ⟨clean_of_waits hwaits, ?_, trivial⟩
    intro h
    rw [hrejects] at h
    cases h
  · rw [Mux.wirePacket, scan_append, hheld, scan_cons, hstep]
    rfl

def deliveryOf (encode : Bytes → Bytes) (p : ChannelId × Bytes) : Delivery :=
  .packet (Mux.wirePacket encode p.1 p.2) (outputOf p.1 p.2)

theorem scan_wirePackets (hcode : Cobs.IsCode encode D) {pieces : List (ChannelId × Bytes)}
    (hfits : ∀ p ∈ pieces, Mux.Fits encode p.1 p.2) :
    Clean (D 2048) (fresh (D 2048)) (Mux.wirePackets encode pieces) ∧
      scan (D 2048) (fresh (D 2048)) (Mux.wirePackets encode pieces) =
        (fresh (D 2048), pieces.map (deliveryOf encode)) := by
  induction pieces with
  | nil => exact ⟨trivial, rfl⟩
  | cons p pieces ih =>
    obtain ⟨hfirst, hrest⟩ := List.forall_mem_cons.mp hfits
    obtain ⟨hclean, hscan⟩ := scan_wirePacket hcode hfirst
    obtain ⟨hcleans, hscans⟩ := ih hrest
    rw [Mux.wirePackets, List.flatMap_cons, ← Mux.wirePackets]
    constructor
    · rw [clean_append, hscan]
      exact ⟨hclean, hcleans⟩
    · rw [scan_append, hscan, hscans]
      rfl

theorem gdbOutput_pieces (encode : Bytes → Bytes) (pieces : List (ChannelId × Bytes)) :
    gdbOutput (pieces.map (deliveryOf encode)) = Mux.payload .debug pieces := by
  rw [gdbOutput, List.flatMap_map, Mux.payload]
  congr 1
  funext p
  obtain ⟨channel, body⟩ := p
  cases channel <;> rfl

theorem stderrOutput_pieces (encode : Bytes → Bytes) (pieces : List (ChannelId × Bytes)) :
    stderrOutput (pieces.map (deliveryOf encode)) = Mux.payload .user pieces := by
  rw [stderrOutput, List.flatMap_map, Mux.payload]
  congr 1
  funext p
  obtain ⟨channel, body⟩ := p
  cases channel <;> rfl

end Host

namespace Mux

/-- A write ends, with packets that each take some of the buffer and leave room for
their delimiter; and however the port takes the bytes and the host reads them, each
channel's data comes out as it went in. -/
theorem multiplexing_lossless {ε δ : Type*} {E : Encoder ε (BitVec 8)}
    {encode : Bytes → Bytes} {D : ℕ → Decoder δ (BitVec 8)} (hE : E.EncodesExactly encode)
    (hcode : Cobs.IsCode encode D) (calls : List (ChannelId × Bytes)) (accepts later : List ℕ)
    (wire : Bytes) (hwritten : writeCalls E accepts calls = some (wire, later))
    (reads : List Bytes) (hreads : reads.flatten = wire) :
    (∀ channel buf, ∃ bodies : List Bytes,
      packetsWithin E buf.length channel buf = some (bodies.map (wirePacket encode channel)) ∧
        bodies.flatten = buf ∧ ∀ body ∈ bodies, body ≠ [] ∧ Fits encode channel body) ∧
    gdbOutput (Host.serve (D 2048) (Host.fresh (D 2048)) reads).2 = payload .debug calls ∧
    stderrOutput (Host.serve (D 2048) (Host.fresh (D 2048)) reads).2 = payload .user calls := by
  obtain ⟨pieces, rfl, hfits, hpayload⟩ := writeCalls_spec hE hcode hwritten
  obtain ⟨hclean, hscan⟩ := Host.scan_wirePackets hcode hfits
  rw [← hreads] at hclean hscan
  rw [Host.serve_eq_scan hclean, hscan]
  refine ⟨fun channel buf => packetsWithin_spec hE hcode buf.length channel buf le_rfl, ?_, ?_⟩
  · rw [Host.gdbOutput_pieces, hpayload]
  · rw [Host.stderrOutput_pieces, hpayload]

/-- A print with a zero and an acknowledgement, in five partial writes and three reads. -/
theorem multiplexing_lossless_cut :
    gdbOutput (Host.serve (Cobs.decoder 2048) (Host.fresh (Cobs.decoder 2048))
        [[3, 0x75], [0x68, 2, 0x69, 0, 3], [0x64, 0x2b, 0]]).2 = [0x2b] ∧
      stderrOutput (Host.serve (Cobs.decoder 2048) (Host.fresh (Cobs.decoder 2048))
        [[3, 0x75], [0x68, 2, 0x69, 0, 3], [0x64, 0x2b, 0]]).2 = [0x68, 0, 0x69] :=
  (multiplexing_lossless Cobs.encodesExactly Cobs.isCode
    [(.user, [0x68, 0, 0x69]), (.debug, [0x2b])] [2, 0, 4, 1, 3] []
    [3, 0x75, 0x68, 2, 0x69, 0, 3, 0x64, 0x2b, 0] (by decide)
    [[3, 0x75], [0x68, 2, 0x69, 0, 3], [0x64, 0x2b, 0]] rfl).2

end Mux
end V5gdb
