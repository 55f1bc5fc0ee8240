import V5gdb.HostBridge

/-!
What the connection delivers.
As long as no write gets in between the parts of another packet, the stream to the host is
made of whole packets, in the order of each writer. So GDB has received what the debugger has
written and the user what the tasks have, and what is read on the device is what GDB has sent.
-/
namespace V5gdb

open Framing RecordLayouts Transitions

namespace Bridged

open BridgeEvent

variable {π δ τ ε : Type*}

structure Delivers [DecidableEq τ] (E : Encoder ε (BitVec 8)) (D : ℕ → Decoder δ (BitVec 8))
    (es : List (BridgeEvent τ)) (s : Bridged π δ τ) : Prop where
  short : ∀ e ∈ es, ∀ c ∈ e.calls, c.2.length ≤ 2037
  orderly : s.wire.Orderly (Mux.packets E) (es.flatMap wireEvents)
  behind : s.received <+: s.wire.accepted
  host : ∃ log, Host.scan (D 2048) (Host.fresh (D 2048)) s.received = (s.host, log) ∧
    s.gdb = gdbOutput log ∧ s.stderr = stderrOutput log

variable [DecidableEq τ] {table : TranslationTable} {P : SerialPort π}
  {E : Encoder ε (BitVec 8)} {D : ℕ → Decoder δ (BitVec 8)} {encode : Bytes → Bytes}
  {s s' : Bridged π δ τ} {e : BridgeEvent τ} {es : List (BridgeEvent τ)} {bytes : Bytes}

/-- Calls with short buffers write a packet for each that is not empty. -/
theorem packetsBy_ofCalls (hE : E.Encodes encode) (hcode : Cobs.IsCode encode D) (w : Option τ)
    (calls : List (Option τ × Bytes)) (hshort : ∀ c ∈ calls, c.2.length ≤ 2037) :
    packetsBy (Mux.packets E) w (ofCalls calls) =
      (Wire.sentBy w (calls.filter fun c => c.2 ≠ [])).map
        (Mux.wirePacket encode (channelOf w)) := by
  induction calls with
  | nil => rfl
  | cons c calls ih =>
    obtain ⟨v, buf⟩ := c
    obtain ⟨hfirst, hrest⟩ := List.forall_mem_cons.mp hshort
    have hcons : ofCalls ((v, buf) :: calls) =
        [.call v (channelOf v) buf] ++ ofCalls calls := rfl
    rw [hcons, Wire.packetsBy_append, Wire.packetsBy_singleton, ih hrest,
      ← List.singleton_append, List.filter_append, Wire.sentBy_append, List.map_append]
    congr 1
    simp only [WireEvent.packetsBy]
    by_cases hnil : buf = []
    · rw [hnil]
      split_ifs <;> rfl
    · have hkept : ([(v, buf)] : List (Option τ × Bytes)).filter (fun c => c.2 ≠ []) =
          [(v, buf)] := by simp [hnil]
      rw [Mux.packets_short hE hcode (channelOf v) hnil hfirst, hkept, Wire.sentBy_singleton]
      split_ifs with hv
      · rw [hv, List.map_singleton]
      · rfl

theorem packetsBy_wireEvents (hE : E.Encodes encode) (hcode : Cobs.IsCode encode D)
    (w : Option τ) (es : List (BridgeEvent τ))
    (hshort : ∀ e ∈ es, ∀ c ∈ e.calls, c.2.length ≤ 2037) :
    packetsBy (Mux.packets E) w (es.flatMap wireEvents) =
      (Wire.sentBy w (written es)).map (Mux.wirePacket encode (channelOf w)) := by
  induction es with
  | nil => rfl
  | cons e es ih =>
    obtain ⟨hfirst, hrest⟩ := List.forall_mem_cons.mp hshort
    have hcalls : packetsBy (Mux.packets E) w e.wireEvents =
        packetsBy (Mux.packets E) w (ofCalls e.calls) := by
      cases e <;> rfl
    rw [List.flatMap_cons, Wire.packetsBy_append, hcalls,
      packetsBy_ofCalls hE hcode w e.calls hfirst, ih hrest, written_cons, Wire.sentBy_append,
      List.map_append]

/-- The stream is the beginning of the packets of calls, in an order that is the order of each
writer. -/
theorem Delivers.pieces (h : s.Delivers E D es) (hE : E.Encodes encode)
    (hcode : Cobs.IsCode encode D) :
    ∃ order : List (Option τ × Bytes), (∀ w, Wire.sentBy w order <+: Wire.sentBy w (written es)) ∧
      (∀ p ∈ order.map piece, Mux.Fits encode p.1 p.2) ∧
      s.wire.accepted <+: Mux.wirePackets encode (order.map piece) ∧
      ((∀ w, (s.wire.writers w).todo = []) →
        (∀ w, Wire.sentBy w order = Wire.sentBy w (written es)) ∧
        s.wire.accepted = Mux.wirePackets encode (order.map piece)) := by
  obtain ⟨packets, hpackets, hstream, hdone⟩ := h.orderly.in_order
  simp only [packetsBy_wireEvents hE hcode _ es h.short] at hpackets hdone
  have hbodies : packets ∈ Set.range (List.map fun p : Option τ × Bytes =>
      (p.1, Mux.wirePacket encode (channelOf p.1) p.2)) := by
    rw [Set.range_list_map]
    intro p hp
    obtain ⟨w, packet⟩ := p
    obtain ⟨body, _, rfl⟩ := List.mem_map.mp ((hpackets w).subset (Wire.mem_sentBy.mpr hp))
    exact ⟨(w, body), rfl⟩
  obtain ⟨order, rfl⟩ := hbodies
  have hflat : ((order.map fun p : Option τ × Bytes =>
      (p.1, Mux.wirePacket encode (channelOf p.1) p.2)).map Prod.snd).flatten =
        Mux.wirePackets encode (order.map piece) := by
    rw [Mux.wirePackets, List.flatMap_def, List.map_map, List.map_map]
    rfl
  have hmap : ∀ w, Wire.sentBy w (order.map fun p : Option τ × Bytes =>
      (p.1, Mux.wirePacket encode (channelOf p.1) p.2)) =
        (Wire.sentBy w order).map (Mux.wirePacket encode (channelOf w)) := fun w =>
    Wire.sentBy_map w order fun v => Mux.wirePacket encode (channelOf v)
  simp only [hmap] at hpackets hdone
  rw [hflat] at hstream hdone
  have horder : ∀ w, Wire.sentBy w order <+: Wire.sentBy w (written es) := fun w =>
    (List.prefix_map_iff_of_injective (Mux.wirePacket_injective hcode _)).mp (hpackets w)
  refine ⟨order, horder, ?_, hstream, ?_⟩
  · intro p hp
    obtain ⟨c, hc, rfl⟩ := List.mem_map.mp hp
    have hwritten := Wire.mem_sentBy.mp ((horder c.1).subset (Wire.mem_sentBy.mpr hc))
    obtain ⟨e, he, hcall⟩ := mem_written hwritten
    exact Mux.fits_of_length hcode _ (h.short e he _ hcall)
  · intro hall
    obtain ⟨hsame, hwhole⟩ := hdone hall
    exact ⟨fun w => (Mux.wirePacket_injective hcode _).list_map (hsame w), hwhole⟩

theorem Delivers.reads (h : s.Delivers E D es) (hE : E.Encodes encode)
    (hcode : Cobs.IsCode encode D) (haccepted : s.received ++ bytes <+: s.wire.accepted) :
    (s.serveOutput D bytes).Delivers E D es := by
  obtain ⟨order, _, hfits, hstream, _⟩ := h.pieces hE hcode
  obtain ⟨hclean, _⟩ := Host.scan_wirePackets hcode hfits
  obtain ⟨rest, hrest⟩ := haccepted.trans hstream
  obtain ⟨log, hscan, hgdb, hstderr⟩ := h.host
  rw [← hrest, Host.clean_append, Host.clean_append, hscan] at hclean
  obtain ⟨⟨_, hclean⟩, _⟩ := hclean
  have hserve : Host.serveRead (D 2048) s.host bytes = Host.scan (D 2048) s.host bytes :=
    Host.decodeLoop_eq_scan hclean le_rfl
  refine ⟨h.short, h.orderly, haccepted, log ++ (Host.scan (D 2048) s.host bytes).2, ?_, ?_, ?_⟩
  · simp only [serveOutput, hserve]
    rw [Host.scan_append, hscan]
  · simp only [serveOutput, hserve]
    rw [gdbOutput_append, hgdb]
  · simp only [serveOutput, hserve]
    rw [stderrOutput_append, hstderr]

theorem Delivers.step (h : s.Delivers E D es) (hE : E.Encodes encode)
    (hcode : Cobs.IsCode encode D) (hstep : QuietStep table P E D s e s') :
    s'.Delivers E D (es ++ [e]) := by
  have hshort : ∀ e' ∈ es ++ [e], ∀ c ∈ e'.calls, c.2.length ≤ 2037 :=
    List.forall_mem_append.mpr ⟨h.short, List.forall_mem_singleton.mpr hstep.short⟩
  have hwire := hstep.wire
  have horderly := h.orderly.run (Mux.packets_ne_nil E) hwire
  rw [← List.flatMap_singleton wireEvents e, ← List.flatMap_append] at horderly
  have hgrows : s.wire.accepted <+: s'.wire.accepted := by
    refine hwire.invariant (P := fun _ t => s.wire.accepted <+: t.accepted)
      (List.prefix_refl _) ?_
    intro _ t e t' ht hlast
    exact ht.trans hlast.1.accepted_grows
  have hsame : s'.received = s.received → s'.host = s.host → s'.gdb = s.gdb →
      s'.stderr = s.stderr → s'.Delivers E D (es ++ [e]) := by
    intro hreceived hhost hgdb hstderr
    refine ⟨hshort, horderly, hreceived ▸ h.behind.trans hgrows, ?_⟩
    rw [hreceived, hhost, hgdb, hstderr]
    exact h.host
  obtain ⟨hstep, hframed, _, _⟩ := hstep
  cases hstep with
  | directWrite => cases hframed
  | hostReads haccepted =>
    have hread := h.reads hE hcode haccepted
    exact ⟨hshort, horderly, hread.behind, hread.host⟩
  | _ => exact hsame rfl rfl rfl rfl

/-- On a channel that one writer has for itself the order is that writer's. -/
theorem payload_alone {w : Option τ} (halone : ∀ v : Option τ, channelOf v = channelOf w → v = w)
    (order : List (Option τ × Bytes)) :
    Mux.payload (channelOf w) (order.map piece) = (Wire.sentBy w order).flatten := by
  induction order with
  | nil => rfl
  | cons c order ih =>
    obtain ⟨v, buf⟩ := c
    rw [List.map_cons, ← List.singleton_append, Mux.payload_append, ih,
      ← List.singleton_append (l := order), Wire.sentBy_append, List.flatten_append,
      Wire.sentBy_singleton]
    congr 1
    by_cases hv : v = w
    · rw [if_pos hv, hv]
      simp [Mux.payload, piece]
    · have hother : channelOf v ≠ channelOf w := fun h => hv (halone v h)
      rw [if_neg hv]
      simp [Mux.payload, piece, hother]

omit [DecidableEq τ] in
theorem debugger_alone (v : Option τ) (h : channelOf v = channelOf (none : Option τ)) :
    v = none := by
  cases v with
  | none => rfl
  | some t => cases h

/-- What has come out on the host's side is the beginning of what was written, and all of it
once the host has read everything. -/
theorem Delivers.received (h : s.Delivers E D es) (hE : E.Encodes encode)
    (hcode : Cobs.IsCode encode D) :
    ∃ order : List (Option τ × Bytes), (∀ w, Wire.sentBy w order <+: Wire.sentBy w (written es)) ∧
      s.gdb <+: (Wire.sentBy none (written es)).flatten ∧
      s.stderr <+: Mux.payload .user (order.map piece) ∧
      (s.Drained → (∀ w, Wire.sentBy w order = Wire.sentBy w (written es)) ∧
        s.gdb = (Wire.sentBy none (written es)).flatten ∧
        s.stderr = Mux.payload .user (order.map piece)) := by
  obtain ⟨order, horder, hfits, hstream, hdone⟩ := h.pieces hE hcode
  obtain ⟨_, hall⟩ := Host.scan_wirePackets hcode hfits
  obtain ⟨log, hscan, hgdb, hstderr⟩ := h.host
  obtain ⟨rest, hrest⟩ := h.behind.trans hstream
  rw [← hrest, Host.scan_append, hscan] at hall
  have hlog : log ++ (Host.scan (D 2048) s.host rest).2 = (order.map piece).map
      (Host.deliveryOf encode) := congrArg Prod.snd hall
  have hdebug : (Wire.sentBy none order).flatten =
      s.gdb ++ gdbOutput (Host.scan (D 2048) s.host rest).2 := by
    rw [← payload_alone debugger_alone]
    change Mux.payload .debug (order.map piece) = _
    rw [← Host.gdbOutput_pieces encode, ← hlog, gdbOutput_append, hgdb]
  have huser : Mux.payload .user (order.map piece) =
      s.stderr ++ stderrOutput (Host.scan (D 2048) s.host rest).2 := by
    rw [← Host.stderrOutput_pieces encode, ← hlog, stderrOutput_append, hstderr]
  refine ⟨order, horder, ?_, ⟨_, huser.symm⟩, ?_⟩
  · have hbegun : s.gdb <+: (Wire.sentBy none order).flatten := ⟨_, hdebug.symm⟩
    exact hbegun.trans (horder none).flatten
  · intro hdrained
    obtain ⟨hsame, hwhole⟩ := hdone hdrained.1
    rw [hdrained.2, hwhole] at hrest
    obtain rfl := List.append_right_eq_self.mp hrest
    rw [← hsame none, hdebug, huser]
    exact ⟨hsame, (List.append_nil _).symm, (List.append_nil _).symm⟩

/-- A step in which no packet is written is quiet. -/
theorem QuietStep.silent (hstep : Step table P E D s e s') (hframed : e.isUnframed = false)
    (hcalls : e.calls = []) (hwire : e.wireEvents = []) : QuietStep table P E D s e s' where
  step := hstep
  framed := hframed
  short := by
    rw [hcalls]
    exact List.forall_mem_nil _
  apart := by
    rw [hwire]
    exact List.forall_mem_nil _

theorem QuietStep.writes {f : WireEvent (Option τ)} (hstep : Step table P E D s e s')
    (hframed : e.isUnframed = false) (hshort : ∀ c ∈ e.calls, c.2.length ≤ 2037)
    (hwire : e.wireEvents = [f]) (hquiet : ¬ s.wire.Overtakes f) :
    QuietStep table P E D s e s' where
  step := hstep
  framed := hframed
  short := hshort
  apart := by
    rw [hwire]
    exact List.forall_mem_singleton.mpr hquiet

end Bridged
end V5gdb
