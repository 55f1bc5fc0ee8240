import V5gdb.Framing
import Mathlib.Data.BitVec

/-!
Consistent overhead byte stuffing.
Data is cut into blocks at its zeros, and after 254 bytes without one. Each block
starts with a code byte that tells its length, so the encoding has no zeros and a
zero can end a frame. A full block at the very end stands alone.
What is relied on of a library for it is stated first; the encoder and the decoder
after it are one that meets all of this.
-/
namespace V5gdb.Cobs

open Framing

/-- The encoding takes a byte more than the data and one for every 254, and a decoder with room
for the data gets it back from the encoding and a zero. -/
structure IsCode {δ : Type*} (encode : List (BitVec 8) → List (BitVec 8))
    (D : ℕ → Decoder δ (BitVec 8)) : Prop where
  longer : ∀ data, data.length < (encode data).length
  bounded : ∀ data, (encode data).length ≤ data.length + data.length / 254 + 1
  decodes : ∀ {capacity : ℕ} {data : List (BitVec 8)}, data.length ≤ capacity →
    ∃ d, (D capacity).Waits (D capacity).start (encode data) d ∧
      (D capacity).feed d 0 = .frame data

def block (data : List (BitVec 8)) : List (BitVec 8) := BitVec.ofNat 8 (data.length + 1) :: data

def encodeFrom : List (BitVec 8) → List (BitVec 8) → List (BitVec 8)
  | pending, [] => block pending
  | pending, b :: bs =>
    if b = 0 then block pending ++ encodeFrom [] bs
    else if pending.length = 253 then
      block (pending ++ [b]) ++ if bs.isEmpty then [] else encodeFrom [] bs
    else encodeFrom (pending ++ [b]) bs

def encode (data : List (BitVec 8)) : List (BitVec 8) := encodeFrom [] data

/-- Where the decoder is: before a frame, or with some bytes of a block to come. -/
inductive Phase
  | idle
  | grab (full : Bool) (left : ℕ)
  deriving DecidableEq, Repr

structure State where
  phase : Phase
  out : List (BitVec 8)
  deriving DecidableEq, Repr

def Phase.ofCode (code : BitVec 8) : Phase := .grab (code = 255) (code.toNat - 1)

def State.put (s : State) (capacity : ℕ) (phase : Phase) (b : BitVec 8) :
    Fed State (BitVec 8) :=
  if s.out.length < capacity then .more ⟨phase, s.out ++ [b]⟩ else .invalid

def feed (capacity : ℕ) (s : State) (b : BitVec 8) : Fed State (BitVec 8) :=
  match s.phase with
  | .idle => if b = 0 then .more s else .more { s with phase := .ofCode b }
  | .grab full 0 =>
    if b = 0 then .frame s.out
    else if full then .more { s with phase := .ofCode b }
    else s.put capacity (.ofCode b) 0
  | .grab full (left + 1) => if b = 0 then .invalid else s.put capacity (.grab full left) b

def decoder (capacity : ℕ) : Decoder State (BitVec 8) where
  start := ⟨.idle, []⟩
  feed := feed capacity

namespace State

def AtBlock (s : State) : Prop := s.phase = .idle ∨ ∃ full, s.phase = .grab full 0

/-- What is decoded once another block starts: a zero follows a block that is not full. -/
def flushed (s : State) : List (BitVec 8) :=
  if s.phase = .grab false 0 then s.out ++ [0] else s.out

end State

variable {capacity : ℕ} {s : State} {data pending bs : List (BitVec 8)}

theorem waits_data {full : Bool} {out : List (BitVec 8)} (hdata : ∀ b ∈ data, b ≠ 0)
    (hroom : out.length + data.length ≤ capacity) :
    (decoder capacity).Waits ⟨.grab full data.length, out⟩ data ⟨.grab full 0, out ++ data⟩ := by
  induction data generalizing out with
  | nil =>
    rw [List.append_nil]
    exact .nil _
  | cons b data ih =>
    rw [List.length_cons] at hroom
    obtain ⟨hb, hrest⟩ := List.forall_mem_cons.mp hdata
    have hfeed : (decoder capacity).feed ⟨.grab full (data.length + 1), out⟩ b =
        .more ⟨.grab full data.length, out ++ [b]⟩ := by
      simp only [decoder, feed, if_neg hb, State.put]
      exact if_pos (by omega)
    refine .cons hfeed ?_
    have hlater := ih hrest (show (out ++ [b]).length + data.length ≤ capacity by
      rw [List.length_append, List.length_singleton]
      omega)
    rwa [List.append_assoc, List.singleton_append] at hlater

theorem feed_code (hs : s.AtBlock) {code : BitVec 8} (hcode : code ≠ 0)
    (hroom : s.flushed.length ≤ capacity) :
    (decoder capacity).feed s code = .more ⟨.ofCode code, s.flushed⟩ := by
  obtain ⟨phase, out⟩ := s
  rcases hs with hidle | ⟨full, hgrab⟩
  · obtain rfl : phase = .idle := hidle
    exact if_neg hcode
  · obtain rfl : phase = .grab full 0 := hgrab
    simp only [decoder, feed, if_neg hcode]
    cases full with
    | true => rfl
    | false =>
      have hput : (out ++ [0]).length ≤ capacity := hroom
      rw [List.length_append, List.length_singleton] at hput
      exact if_pos (Nat.lt_of_succ_le hput)

/-- A block adds its data to what is decoded. -/
theorem waits_block (hs : s.AtBlock) (hdata : ∀ b ∈ data, b ≠ 0) (hlen : data.length ≤ 254)
    (hroom : s.flushed.length + data.length ≤ capacity) :
    (decoder capacity).Waits s (block data)
      ⟨.grab (data.length = 254) 0, s.flushed ++ data⟩ := by
  have hnat : (BitVec.ofNat 8 (data.length + 1)).toNat = data.length + 1 := by
    rw [BitVec.toNat_ofNat]
    omega
  have hcode : BitVec.ofNat 8 (data.length + 1) ≠ 0 := by
    intro h
    rw [h] at hnat
    cases hnat
  have hphase : Phase.ofCode (BitVec.ofNat 8 (data.length + 1)) =
      .grab (data.length = 254) data.length := by
    have hfull : BitVec.ofNat 8 (data.length + 1) = 255 ↔ data.length = 254 := by
      rw [← BitVec.toNat_inj, hnat]
      change data.length + 1 = 255 ↔ _
      omega
    rw [Phase.ofCode, hnat, Nat.add_sub_cancel, decide_eq_decide.mpr hfull]
  refine .cons (feed_code hs hcode (by omega)) ?_
  rw [hphase]
  exact waits_data hdata hroom

theorem flushed_after (out : List (BitVec 8)) (hlen : data.length < 254) :
    State.flushed ⟨.grab (data.length = 254) 0, out⟩ = out ++ [0] := by
  have hfull : decide (data.length = 254) = false := decide_eq_false (by omega)
  rw [hfull]
  exact if_pos rfl

theorem flushed_full (out : List (BitVec 8)) (hlen : data.length = 254) :
    State.flushed ⟨.grab (data.length = 254) 0, out⟩ = out := by
  rw [decide_eq_true hlen]
  rfl

/-- All that was encoded is decoded, up to the end of a block. -/
theorem waits_encodeFrom (hs : s.AtBlock) (hpending : ∀ b ∈ pending, b ≠ 0)
    (hlen : pending.length < 254)
    (hroom : s.flushed.length + pending.length + bs.length ≤ capacity) :
    ∃ full, (decoder capacity).Waits s (encodeFrom pending bs)
      ⟨.grab full 0, s.flushed ++ pending ++ bs⟩ := by
  induction bs generalizing s pending with
  | nil =>
    rw [List.append_nil]
    exact ⟨_, waits_block hs hpending (by omega) (by omega)⟩
  | cons b bs ih =>
    rw [List.length_cons] at hroom
    rw [encodeFrom]
    by_cases hb : b = 0
    · have hfirst : (decoder capacity).Waits s (block pending) _ :=
        waits_block hs hpending (by omega) (by omega)
      have hflushed := flushed_after (s.flushed ++ pending) hlen
      obtain ⟨full, hrest⟩ := ih (s := ⟨.grab (pending.length = 254) 0, s.flushed ++ pending⟩)
        (.inr ⟨_, rfl⟩) (List.forall_mem_nil _) (by decide) (by
          rw [hflushed]
          simp only [List.length_append, List.length_singleton, List.length_nil]
          omega)
      rw [hflushed, List.append_nil, List.append_assoc, List.singleton_append] at hrest
      rw [if_pos hb, hb]
      exact ⟨full, hfirst.append hrest⟩
    · rw [if_neg hb]
      have hnonzero : ∀ x ∈ pending ++ [b], x ≠ 0 :=
        List.forall_mem_append.mpr ⟨hpending, List.forall_mem_singleton.mpr hb⟩
      have hgrown : (pending ++ [b]).length = pending.length + 1 := List.length_append
      by_cases hfull : pending.length = 253
      · rw [if_pos hfull]
        have hfirst : (decoder capacity).Waits s (block (pending ++ [b])) _ :=
          waits_block hs hnonzero (by omega) (by omega)
        have hflushed := flushed_full (s.flushed ++ (pending ++ [b]))
          (show (pending ++ [b]).length = 254 by omega)
        cases bs with
        | nil =>
          rw [List.isEmpty_nil, if_pos rfl, List.append_nil, List.append_assoc]
          exact ⟨_, hfirst⟩
        | cons c bs =>
          obtain ⟨full, hrest⟩ := ih
            (s := ⟨.grab ((pending ++ [b]).length = 254) 0, s.flushed ++ (pending ++ [b])⟩)
            (.inr ⟨_, rfl⟩) (List.forall_mem_nil _) (by decide) (by
              rw [hflushed]
              simp only [List.length_append, List.length_singleton, List.length_nil]
              omega)
          rw [hflushed, List.append_nil] at hrest
          have hall := hfirst.append hrest
          refine ⟨full, ?_⟩
          simpa [List.append_assoc] using hall
      · rw [if_neg hfull]
        obtain ⟨full, hrest⟩ := ih hs hnonzero (by omega) (by omega)
        refine ⟨full, ?_⟩
        simpa [List.append_assoc] using hrest

/-- A frame is the encoding and a zero; the decoder takes it as a whole. -/
theorem decode_encode (hroom : data.length ≤ capacity) :
    ∃ s, (decoder capacity).Waits (decoder capacity).start (encode data) s ∧
      (decoder capacity).feed s 0 = .frame data := by
  have hstart : (decoder capacity).start.flushed = [] := rfl
  obtain ⟨full, hwaits⟩ := waits_encodeFrom (s := (decoder capacity).start)
    (.inl rfl) (List.forall_mem_nil _) (by decide) (show _ + _ + data.length ≤ capacity by
      rw [hstart, List.length_nil]
      omega)
  rw [hstart, List.nil_append, List.nil_append] at hwaits
  exact ⟨_, hwaits, rfl⟩

theorem length_block (data : List (BitVec 8)) : (block data).length = data.length + 1 := rfl

theorem length_encodeFrom (pending bs : List (BitVec 8)) :
    pending.length + bs.length < (encodeFrom pending bs).length := by
  induction bs generalizing pending with
  | nil =>
    rw [encodeFrom, length_block, List.length_nil]
    omega
  | cons b bs ih =>
    have hnil := ih []
    rw [List.length_nil] at hnil
    rw [encodeFrom, List.length_cons]
    by_cases hb : b = 0
    · rw [if_pos hb, List.length_append, length_block]
      omega
    · rw [if_neg hb]
      by_cases hfull : pending.length = 253
      · rw [if_pos hfull, List.length_append, length_block, List.length_append,
          List.length_singleton]
        cases bs with
        | nil =>
          rw [List.length_nil]
          omega
        | cons c bs =>
          rw [List.isEmpty_cons, if_neg Bool.false_ne_true]
          omega
      · rw [if_neg hfull]
        have hgrown := ih (pending ++ [b])
        rw [List.length_append, List.length_singleton] at hgrown
        omega

theorem length_encodeFrom_le (hlen : pending.length < 254) :
    (encodeFrom pending bs).length ≤
      pending.length + bs.length + (pending.length + bs.length) / 254 + 1 := by
  induction bs generalizing pending with
  | nil =>
    rw [encodeFrom, length_block]
    omega
  | cons b bs ih =>
    have hnil := @ih [] (by decide)
    rw [List.length_nil] at hnil
    rw [encodeFrom, List.length_cons]
    by_cases hb : b = 0
    · rw [if_pos hb, List.length_append, length_block]
      omega
    · rw [if_neg hb]
      by_cases hfull : pending.length = 253
      · rw [if_pos hfull, List.length_append, length_block, List.length_append,
          List.length_singleton]
        cases bs with
        | nil =>
          rw [List.isEmpty_nil, if_pos rfl, List.length_nil]
          omega
        | cons c bs =>
          rw [List.isEmpty_cons, if_neg Bool.false_ne_true]
          omega
      · rw [if_neg hfull]
        have hgrown := @ih (pending ++ [b]) (by
          rw [List.length_append, List.length_singleton]
          omega)
        rw [List.length_append, List.length_singleton] at hgrown
        omega

theorem isCode : IsCode encode decoder where
  longer := by
    intro data
    have hlen := length_encodeFrom [] data
    rwa [List.length_nil, Nat.zero_add] at hlen
  bounded := by
    intro data
    have hlen := @length_encodeFrom_le [] data (by decide)
    rwa [List.length_nil, Nat.zero_add] at hlen
  decodes := decode_encode

structure EncoderState where
  maxLen : ℕ
  accepted : List (BitVec 8)
  deriving DecidableEq, Repr

def encoder : Encoder EncoderState (BitVec 8) where
  new maxLen := ⟨maxLen, []⟩
  push e b :=
    if (encode (e.accepted ++ [b])).length ≤ e.maxLen then
      ({ e with accepted := e.accepted ++ [b] }, true)
    else (e, false)
  finalize e := encode e.accepted

theorem accepted_encoder {maxLen : ℕ} {e : EncoderState} (h : encoder.Accepted maxLen e data) :
    e = ⟨maxLen, data⟩ := by
  induction h with
  | new => rfl
  | push _ hpush ih =>
    subst ih
    simp only [encoder] at hpush ⊢
    split_ifs at hpush ⊢
    rfl

theorem encodesExactly : encoder.EncodesExactly encode where
  accepts := by
    intro maxLen e data b h hfits
    obtain rfl := accepted_encoder h
    simp only [encoder, if_pos hfits]
  finalize := by
    intro maxLen e data h _
    obtain rfl := accepted_encoder h
    rfl
  fits := by
    intro maxLen e data b h hpush
    obtain rfl := accepted_encoder h
    by_contra hroom
    simp only [encoder, if_neg hroom] at hpush
    cases hpush
  unchanged := by
    intro e b hpush
    simp only [encoder] at hpush ⊢
    split_ifs at hpush ⊢
    rfl

end V5gdb.Cobs
