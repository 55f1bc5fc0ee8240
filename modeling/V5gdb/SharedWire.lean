import V5gdb.Multiplexing
import V5gdb.Transitions

/-!
The serial channel that the program, its tasks and the debugger write to.
A packet may be taken in several parts. Between two of them the writer gives up the
processor or is stopped by the debugger, and others may write their own packets.
How a buffer is cut into packets makes no difference here, as long as none is empty.
-/
namespace V5gdb

open RecordLayouts Transitions

/-- A task or the debugger, as far as it is with its writes: what was accepted of the packet
at hand, and what is left of it, with the packets after it. -/
structure Writer where
  sent : Bytes
  todo : List Bytes
  deriving DecidableEq, Repr

structure Wire (τ : Type*) where
  accepted : Bytes
  writers : τ → Writer

/-- A call of `mux::write_all`, or at most `written` bytes of a slice that are accepted. -/
inductive WireEvent (τ : Type*)
  | call (w : τ) (channel : ChannelId) (buf : Bytes)
  | write (w : τ) (written : ℕ)

def Writer.advance (sent slice : Bytes) (rest : List Bytes) (written : ℕ) : Writer :=
  if (slice.drop written).isEmpty then ⟨[], rest⟩
  else ⟨sent ++ slice.take written, slice.drop written :: rest⟩

def Writer.pending (x : Writer) : List Bytes :=
  match x.todo with
  | [] => []
  | slice :: rest => (x.sent ++ slice) :: rest

section Packets

variable {τ : Type*} (packetize : ChannelId → Bytes → List Bytes)

def WireEvent.packets : WireEvent τ → List Bytes
  | call _ channel buf => packetize channel buf
  | write _ _ => []

def packetsOf (es : List (WireEvent τ)) : List Bytes := es.flatMap (WireEvent.packets packetize)

def WireEvent.packetsBy [DecidableEq τ] (w : τ) : WireEvent τ → List Bytes
  | call v channel buf => if v = w then packetize channel buf else []
  | write _ _ => []

def packetsBy [DecidableEq τ] (w : τ) (es : List (WireEvent τ)) : List Bytes :=
  es.flatMap (WireEvent.packetsBy packetize w)

end Packets

namespace Wire

variable {τ : Type*} [DecidableEq τ]

inductive Step (packetize : ChannelId → Bytes → List Bytes) :
    Wire τ → WireEvent τ → Wire τ → Prop
  | call (s : Wire τ) (w : τ) (channel : ChannelId) (buf : Bytes)
      (hidle : (s.writers w).todo = []) :
      Step packetize s (.call w channel buf)
        { s with writers := Function.update s.writers w ⟨[], packetize channel buf⟩ }
  | write (s : Wire τ) (w : τ) (written : ℕ) (sent slice : Bytes) (rest : List Bytes)
      (hwriter : s.writers w = ⟨sent, slice :: rest⟩) :
      Step packetize s (.write w written)
        { accepted := s.accepted ++ slice.take written
          writers := Function.update s.writers w (Writer.advance sent slice rest written) }

def start : Wire τ := ⟨[], fun _ => ⟨[], []⟩⟩

def Framed (packets : List Bytes) (bytes : Bytes) : Prop :=
  ∃ (whole : List Bytes) (part : Bytes), bytes = whole.flatten ++ part ∧
    (∀ f ∈ whole, f ∈ packets) ∧ (part = [] ∨ ∃ f ∈ packets, part <+: f ∧ part ≠ f)

/-- A write gets in between the parts of another writer's packet. -/
def Overtakes (s : Wire τ) : WireEvent τ → Prop
  | .call _ _ _ => False
  | .write w written => written ≠ 0 ∧ ∃ v, v ≠ w ∧ (s.writers v).sent ≠ []

def QuietStep (packetize : ChannelId → Bytes → List Bytes) (s : Wire τ) (e : WireEvent τ)
    (s' : Wire τ) : Prop :=
  Step packetize s e s' ∧ ¬ s.Overtakes e

def sentBy (w : τ) (order : List (τ × Bytes)) : List Bytes :=
  (order.filter fun p => p.1 = w).map Prod.snd

/-- All writers but at most one are between packets. The stream is the packets that were
accepted whole, those of each writer in its order, and then what that one has sent. -/
structure Orderly (packetize : ChannelId → Bytes → List Bytes) (es : List (WireEvent τ))
    (s : Wire τ) : Prop where
  idle : ∀ w, (s.writers w).todo = [] → (s.writers w).sent = []
  left : ∀ w, ∀ slice ∈ (s.writers w).todo, slice ≠ []
  stream : ∃ order : List (τ × Bytes),
    (∀ w, sentBy w order ++ (s.writers w).pending = packetsBy packetize w es) ∧
    ((s.accepted = (order.map Prod.snd).flatten ∧ ∀ v, (s.writers v).sent = []) ∨
      ∃ w, s.accepted = (order.map Prod.snd).flatten ++ (s.writers w).sent ∧
        ∀ v, v ≠ w → (s.writers v).sent = [])

variable {packetize : ChannelId → Bytes → List Bytes} {s s' : Wire τ} {e : WireEvent τ}
  {es : List (WireEvent τ)}

theorem packetsBy_append (w : τ) (es es' : List (WireEvent τ)) :
    packetsBy packetize w (es ++ es') = packetsBy packetize w es ++ packetsBy packetize w es' :=
  List.flatMap_append

theorem packetsBy_singleton (w : τ) (e : WireEvent τ) :
    packetsBy packetize w [e] = e.packetsBy packetize w := List.flatMap_singleton ..

theorem mem_packetsOf {w : τ} {f : Bytes} (hf : f ∈ packetsBy packetize w es) :
    f ∈ packetsOf packetize es := by
  obtain ⟨e, he, hf⟩ := List.mem_flatMap.mp hf
  refine List.mem_flatMap.mpr ⟨e, he, ?_⟩
  cases e with
  | write => cases hf
  | call v channel buf =>
    simp only [WireEvent.packetsBy] at hf
    split_ifs at hf
    · exact hf
    · cases hf

theorem sentBy_append (w : τ) (order order' : List (τ × Bytes)) :
    sentBy w (order ++ order') = sentBy w order ++ sentBy w order' := by
  unfold sentBy
  rw [List.filter_append, List.map_append]

theorem sentBy_singleton (w v : τ) (f : Bytes) :
    sentBy w [(v, f)] = if v = w then [f] else [] := by
  unfold sentBy
  by_cases hv : v = w <;> simp [hv]

theorem mem_sentBy {w : τ} {order : List (τ × Bytes)} {f : Bytes} :
    f ∈ sentBy w order ↔ (w, f) ∈ order := by
  simp [sentBy]

theorem sentBy_map (w : τ) (order : List (τ × Bytes)) (g : τ → Bytes → Bytes) :
    sentBy w (order.map fun p => (p.1, g p.1 p.2)) = (sentBy w order).map (g w) := by
  induction order with
  | nil => rfl
  | cons p order ih =>
    have hcons : ∀ (q : τ × Bytes) (l : List (τ × Bytes)),
        sentBy w (q :: l) = sentBy w [q] ++ sentBy w l := fun q l => sentBy_append w [q] l
    rw [List.map_cons, hcons, ih, hcons p order, List.map_append, sentBy_singleton,
      sentBy_singleton]
    congr 1
    split_ifs with hv
    · rw [hv]
      rfl
    · rfl

theorem pending_of_sent_nil {x : Writer} (h : x.sent = []) : x.pending = x.todo := by
  obtain ⟨sent, todo⟩ := x
  obtain rfl : sent = [] := h
  cases todo <;> rfl

theorem Step.accepted_grows (h : Step packetize s e s') : s.accepted <+: s'.accepted := by
  cases h with
  | call => exact List.prefix_refl _
  | write => exact List.prefix_append _ _

/-- Where no other writer is inside a packet, the stream ends with what this one sent. -/
theorem Orderly.stream_of (h : s.Orderly packetize es) {w : τ}
    (hothers : ∀ v, v ≠ w → (s.writers v).sent = []) :
    ∃ order : List (τ × Bytes),
      (∀ v, sentBy v order ++ (s.writers v).pending = packetsBy packetize v es) ∧
      s.accepted = (order.map Prod.snd).flatten ++ (s.writers w).sent := by
  obtain ⟨order, horder, ⟨hstream, hnone⟩ | ⟨v, hstream, hnone⟩⟩ := h.stream
  · exact ⟨order, horder, by rw [hstream, hnone w, List.append_nil]⟩
  · by_cases hv : v = w
    · exact ⟨order, horder, hv ▸ hstream⟩
    · refine ⟨order, horder, ?_⟩
      rw [hstream, hothers v hv, hnone w (Ne.symm hv)]

theorem Orderly.call (h : s.Orderly packetize es)
    (hne : ∀ channel buf, ∀ f ∈ packetize channel buf, f ≠ []) {w : τ} (channel : ChannelId)
    (buf : Bytes) (hidle : (s.writers w).todo = []) :
    Orderly packetize (es ++ [.call w channel buf])
      { s with writers := Function.update s.writers w ⟨[], packetize channel buf⟩ } := by
  have hnil := h.idle w hidle
  have hsent : ∀ v, (Function.update s.writers w ⟨[], packetize channel buf⟩ v).sent =
      (s.writers v).sent := by
    intro v
    by_cases hv : v = w
    · rw [hv, Function.update_self, hnil]
    · rw [Function.update_of_ne hv]
  constructor
  · intro v htodo
    simp only [hsent]
    by_cases hv : v = w
    · rw [hv, hnil]
    · simp only [Function.update_of_ne hv] at htodo
      exact h.idle v htodo
  · exact (Function.forall_update_iff s.writers fun _ x => ∀ slice ∈ x.todo, slice ≠ []).mpr
      ⟨hne channel buf, fun v _ => h.left v⟩
  · obtain ⟨order, horder, hcase⟩ := h.stream
    refine ⟨order, ?_, by simpa only [hsent] using hcase⟩
    intro v
    rw [packetsBy_append, packetsBy_singleton, ← horder v, WireEvent.packetsBy]
    by_cases hv : v = w
    · simp only [hv, if_true, Function.update_self]
      rw [pending_of_sent_nil hnil, hidle, pending_of_sent_nil rfl, List.append_nil]
    · simp only [if_neg (Ne.symm hv), Function.update_of_ne hv, List.append_nil]

theorem packetsBy_write (v w : τ) (written : ℕ) :
    packetsBy packetize v (es ++ [.write w written]) = packetsBy packetize v es := by
  rw [packetsBy_append, packetsBy_singleton, WireEvent.packetsBy, List.append_nil]

/-- The rest of a packet is accepted. -/
theorem Orderly.finish (h : s.Orderly packetize es) {w : τ} (written : ℕ) {sent slice : Bytes}
    {rest : List Bytes} (hwriter : s.writers w = ⟨sent, slice :: rest⟩)
    (hothers : ∀ v, v ≠ w → (s.writers v).sent = []) :
    Orderly packetize (es ++ [.write w written])
      { accepted := s.accepted ++ slice
        writers := Function.update s.writers w ⟨[], rest⟩ } := by
  have hleft := h.left w
  rw [hwriter, List.forall_mem_cons] at hleft
  have hnone : ∀ v, (Function.update s.writers w ⟨[], rest⟩ v).sent = [] :=
    (Function.forall_update_iff s.writers fun _ x => x.sent = []).mpr ⟨rfl, hothers⟩
  obtain ⟨order, horder, hstream⟩ := h.stream_of hothers
  have hself := horder w
  rw [hwriter, Writer.pending] at hself
  refine ⟨fun v _ => hnone v, ?_, order ++ [(w, sent ++ slice)], ?_, .inl ⟨?_, hnone⟩⟩
  · exact (Function.forall_update_iff s.writers fun _ x => ∀ slice ∈ x.todo, slice ≠ []).mpr
      ⟨hleft.2, fun v _ => h.left v⟩
  · intro v
    rw [packetsBy_write, sentBy_append, sentBy_singleton]
    by_cases hv : v = w
    · simp only [hv, if_true, Function.update_self]
      rw [pending_of_sent_nil rfl, List.append_assoc]
      exact hself
    · simp only [if_neg (Ne.symm hv), List.append_nil, Function.update_of_ne hv]
      exact horder v
  · rw [hstream, hwriter]
    simp

/-- A packet is accepted as far as `written`, and more of it is left. -/
theorem Orderly.part (h : s.Orderly packetize es) {w : τ} {written : ℕ} {sent slice : Bytes}
    {rest : List Bytes} (hwriter : s.writers w = ⟨sent, slice :: rest⟩)
    (hothers : ∀ v, v ≠ w → (s.writers v).sent = []) (hmore : slice.drop written ≠ []) :
    Orderly packetize (es ++ [.write w written])
      { accepted := s.accepted ++ slice.take written
        writers := Function.update s.writers w
          ⟨sent ++ slice.take written, slice.drop written :: rest⟩ } := by
  have hleft := h.left w
  rw [hwriter, List.forall_mem_cons] at hleft
  obtain ⟨order, horder, hstream⟩ := h.stream_of hothers
  have hself := horder w
  rw [hwriter, Writer.pending] at hself
  refine ⟨?_, ?_, order, ?_, .inr ⟨w, ?_, ?_⟩⟩
  · exact (Function.forall_update_iff s.writers fun _ x => x.todo = [] → x.sent = []).mpr
      ⟨fun htodo => (List.cons_ne_nil _ _ htodo).elim, fun v hv _ => hothers v hv⟩
  · exact (Function.forall_update_iff s.writers fun _ x => ∀ slice ∈ x.todo, slice ≠ []).mpr
      ⟨List.forall_mem_cons.mpr ⟨hmore, hleft.2⟩, fun v _ => h.left v⟩
  · intro v
    rw [packetsBy_write]
    by_cases hv : v = w
    · simp only [hv, Function.update_self, Writer.pending]
      rw [List.append_assoc, List.take_append_drop]
      exact hself
    · simp only [Function.update_of_ne hv]
      exact horder v
  · simp only [hstream, hwriter, Function.update_self, List.append_assoc]
  · intro v hv
    simp only [Function.update_of_ne hv]
    exact hothers v hv

theorem Orderly.write (h : s.Orderly packetize es) {w : τ} {written : ℕ} {sent slice : Bytes}
    {rest : List Bytes} (hwriter : s.writers w = ⟨sent, slice :: rest⟩)
    (hothers : ∀ v, v ≠ w → (s.writers v).sent = []) :
    Orderly packetize (es ++ [.write w written])
      { accepted := s.accepted ++ slice.take written
        writers := Function.update s.writers w (Writer.advance sent slice rest written) } := by
  unfold Writer.advance
  split_ifs with hdone
  · have htake : slice.take written = slice := by
      conv_rhs => rw [← List.take_append_drop written slice, List.isEmpty_iff.mp hdone,
        List.append_nil]
    rw [htake]
    exact h.finish written hwriter hothers
  · exact h.part hwriter hothers fun hnil => hdone (List.isEmpty_iff.mpr hnil)

theorem Orderly.step (h : s.Orderly packetize es)
    (hne : ∀ channel buf, ∀ f ∈ packetize channel buf, f ≠ [])
    (hstep : QuietStep packetize s e s') : s'.Orderly packetize (es ++ [e]) := by
  obtain ⟨hstep, hquiet⟩ := hstep
  cases hstep with
  | call w channel buf hidle => exact h.call hne channel buf hidle
  | write w written sent slice rest hwriter =>
    by_cases hzero : written = 0
    · have hleft := h.left w
      rw [hwriter, List.forall_mem_cons] at hleft
      have hsame : Writer.advance sent slice rest written = s.writers w := by
        rw [hwriter, hzero, Writer.advance, List.drop_zero, List.take_zero, List.append_nil,
          if_neg (by rw [List.isEmpty_iff]; exact hleft.1)]
      rw [hsame, Function.update_eq_self, hzero, List.take_zero, List.append_nil]
      refine ⟨h.idle, h.left, ?_⟩
      simp only [packetsBy_append, packetsBy_singleton, WireEvent.packetsBy, List.append_nil]
      exact h.stream
    · refine h.write hwriter ?_
      intro v hv
      by_contra hsent
      exact hquiet ⟨hzero, v, hv, hsent⟩

theorem orderly_start : (start : Wire τ).Orderly packetize [] where
  idle := fun _ _ => rfl
  left := fun _ => List.forall_mem_nil _
  stream := ⟨[], fun _ => rfl, .inl ⟨rfl, fun _ => rfl⟩⟩

theorem Orderly.run {fs : List (WireEvent τ)} (h : s.Orderly packetize es)
    (hne : ∀ channel buf, ∀ f ∈ packetize channel buf, f ≠ [])
    (hrun : Run (QuietStep packetize) s fs s') : s'.Orderly packetize (es ++ fs) := by
  refine hrun.invariant (P := fun fs t => t.Orderly packetize (es ++ fs)) ?_ ?_
  · rwa [List.append_nil]
  · intro fs t e t' ht hstep
    rw [← List.append_assoc]
    exact ht.step hne hstep

theorem Orderly.framed (h : s.Orderly packetize es) :
    Framed (packetsOf packetize es) s.accepted := by
  obtain ⟨order, horder, hcase⟩ := h.stream
  have hwhole : ∀ f ∈ order.map Prod.snd, f ∈ packetsOf packetize es := by
    intro f hf
    obtain ⟨⟨w, f⟩, hmem, rfl⟩ := List.mem_map.mp hf
    apply mem_packetsOf (w := w)
    rw [← horder w]
    exact List.mem_append_left _ (mem_sentBy.mpr hmem)
  obtain ⟨hstream, _⟩ | ⟨w, hstream, _⟩ := hcase
  · exact ⟨_, [], by rw [hstream, List.append_nil], hwhole, .inl rfl⟩
  · refine ⟨_, (s.writers w).sent, hstream, hwhole, ?_⟩
    cases htodo : (s.writers w).todo with
    | nil => exact .inl (h.idle w htodo)
    | cons slice rest =>
      have hne := h.left w slice (by rw [htodo]; exact List.mem_cons_self ..)
      refine .inr ⟨(s.writers w).sent ++ slice, ?_, List.prefix_append _ _, ?_⟩
      · apply mem_packetsOf (w := w)
        rw [← horder w, Writer.pending, htodo]
        exact List.mem_append_right _ (List.mem_cons_self ..)
      · exact fun heq => hne (List.self_eq_append_right.mp heq)

/-- The stream is the beginning of packets that are in the order of each writer. -/
theorem Orderly.in_order (h : s.Orderly packetize es) :
    ∃ order : List (τ × Bytes), (∀ w, sentBy w order <+: packetsBy packetize w es) ∧
      s.accepted <+: (order.map Prod.snd).flatten ∧
      ((∀ w, (s.writers w).todo = []) → (∀ w, sentBy w order = packetsBy packetize w es) ∧
        s.accepted = (order.map Prod.snd).flatten) := by
  obtain ⟨order, horder, hcase⟩ := h.stream
  have hwhole : s.accepted = (order.map Prod.snd).flatten →
      ∃ order : List (τ × Bytes), (∀ w, sentBy w order <+: packetsBy packetize w es) ∧
        s.accepted <+: (order.map Prod.snd).flatten ∧
        ((∀ w, (s.writers w).todo = []) → (∀ w, sentBy w order = packetsBy packetize w es) ∧
          s.accepted = (order.map Prod.snd).flatten) := by
    intro hstream
    refine ⟨order, fun w => ⟨_, horder w⟩, by rw [hstream], fun hdone => ⟨?_, hstream⟩⟩
    intro w
    rw [← horder w, Writer.pending, hdone w, List.append_nil]
  obtain ⟨hstream, _⟩ | ⟨w, hstream, _⟩ := hcase
  · exact hwhole hstream
  · cases htodo : (s.writers w).todo with
    | nil =>
      rw [h.idle w htodo, List.append_nil] at hstream
      exact hwhole hstream
    | cons slice rest =>
      -- the packet at hand is the last one that was begun
      refine ⟨order ++ [(w, (s.writers w).sent ++ slice)], ?_, ?_, ?_⟩
      · intro v
        rw [sentBy_append, sentBy_singleton, ← horder v]
        by_cases hv : w = v
        · rw [if_pos hv, ← hv, Writer.pending, htodo, List.prefix_append_right_inj]
          exact List.prefix_append [_] rest
        · rw [if_neg hv, List.append_nil]
          exact List.prefix_append _ _
      · rw [hstream, List.map_append, List.flatten_append, List.prefix_append_right_inj]
        simp
      · intro hdone
        rw [hdone w] at htodo
        cases htodo

/-- While no write gets in between the parts of another writer's packet, what the
channel has accepted is whole packets and at most a part of one. -/
theorem framed_of_run (packetize : ChannelId → Bytes → List Bytes)
    (hne : ∀ channel buf, ∀ f ∈ packetize channel buf, f ≠ []) (es : List (WireEvent τ))
    (s : Wire τ) (hrun : Run (QuietStep packetize) (start : Wire τ) es s) :
    Framed (packetsOf packetize es) s.accepted := (orderly_start.run hne hrun).framed

/-- A print, and an acknowledgement once all of it was accepted. -/
theorem framed_of_run_in_turn :
    ∃ s : Wire Bool, Run (QuietStep (Mux.packets Cobs.encoder)) start
        [.call false .user [0x41], .write false 2, .write false 2, .call true .debug [0x2b],
          .write true 3] s ∧
      Framed (packetsOf (Mux.packets Cobs.encoder) [.call false .user [0x41], .write false 2,
        .write false 2, .call true .debug [0x2b], .write true 3]) s.accepted := by
  obtain ⟨s, hrun⟩ : ∃ s : Wire Bool, Run (QuietStep (Mux.packets Cobs.encoder)) start
      [.call false .user [0x41], .write false 2, .write false 2, .call true .debug [0x2b],
        .write true 3] s :=
    ⟨_, Run.cons ⟨.call start false .user [0x41] rfl, fun h => h⟩
      (.cons ⟨.write _ false 2 [] [3, 0x75, 0x41, 0] [] (by decide), by simp [Overtakes, start]⟩
        (.cons ⟨.write _ false 2 [3, 0x75] [0x41, 0] [] (by decide), by simp [Overtakes, start]⟩
          (.cons ⟨.call _ true .debug [0x2b] (by decide), fun h => h⟩
            (.single ⟨.write _ true 3 [] [3, 0x64, 0x2b, 0] [] (by decide), by
              simp [Overtakes, start, Writer.advance]⟩))))⟩
  exact ⟨s, hrun, framed_of_run _ (Mux.packets_ne_nil Cobs.encoder) _ s hrun⟩

/-- The program is stopped inside a print, and the debugger sends an acknowledgement. -/
theorem packet_inside_packet :
    ∃ s : Wire Bool, Run (Step (Mux.packets Cobs.encoder)) start
        [.call false .user [0x41], .write false 2, .call true .debug [0x2b], .write true 4] s ∧
      s.accepted = [3, 0x75, 3, 0x64, 0x2b, 0] ∧
      ¬ Framed (packetsOf (Mux.packets Cobs.encoder) [.call false .user [0x41], .write false 2,
        .call true .debug [0x2b], .write true 4]) s.accepted := by
  have hpackets : packetsOf (Mux.packets Cobs.encoder) [.call false .user [0x41], .write false 2,
      .call true .debug [0x2b], .write true 4] = [[3, 0x75, 0x41, 0], [3, 0x64, 0x2b, 0]] := by
    decide
  refine ⟨_, Run.cons (.call (start : Wire Bool) false .user [0x41] rfl)
    (.cons (.write _ false 2 [] [3, 0x75, 0x41, 0] [] (by decide))
      (.cons (.call _ true .debug [0x2b] (by decide))
        (.single (.write _ true 4 [] [3, 0x64, 0x2b, 0] [] (by decide))))), rfl, ?_⟩
  rw [hpackets]
  rintro ⟨whole, part, hbytes, hwhole, hpart⟩
  have hshort : ∀ f ∈ ([[3, 0x75, 0x41, 0], [3, 0x64, 0x2b, 0]] : List Bytes), f.length = 4 := by
    decide
  cases whole with
  | nil =>
    rcases hpart with rfl | ⟨f, hf, hshorter, _⟩
    · cases hbytes
    · have hlen := hshorter.length_le
      rw [hshort f hf, ← List.nil_append part, ← List.flatten_nil, ← hbytes] at hlen
      exact absurd hlen (by decide)
  | cons f whole =>
    rw [List.flatten_cons] at hbytes
    rcases List.mem_cons.mp (hwhole f (List.mem_cons_self ..)) with rfl | hf
    · simp [start] at hbytes
    · rw [List.mem_singleton.mp hf] at hbytes
      simp [start] at hbytes

end Wire
end V5gdb
