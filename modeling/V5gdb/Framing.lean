import Mathlib.Data.List.Basic
import Mathlib.Tactic.Common

/-!
Encoders and decoders of framed streams.
An encoder is given the symbols of a frame one at a time, until the next one does not
fit the slice that the encoding goes to. A decoder is a state machine that is fed one
symbol at a time. It is given slices, and it stops inside a slice where a frame ends
or where it rejects a symbol.
-/
namespace V5gdb.Framing

variable {ε δ α : Type*}

/-- A push says whether the symbol was accepted, and may leave its traces if not. -/
structure Encoder (ε α : Type*) where
  new : ℕ → ε
  push : ε → α → ε × Bool
  finalize : ε → List α

namespace Encoder

/-- The symbols that were accepted for a slice of some length, by pushes that all succeeded. -/
inductive Accepted (E : Encoder ε α) (maxLen : ℕ) : ε → List α → Prop
  | new : Accepted E maxLen (E.new maxLen) []
  | push {e : ε} {data : List α} {x : α} (h : Accepted E maxLen e data)
      (hpush : (E.push e x).2 = true) : Accepted E maxLen (E.push e x).1 (data ++ [x])

/-- Whatever fits is accepted, and is encoded. -/
structure Encodes (E : Encoder ε α) (encode : List α → List α) : Prop where
  accepts : ∀ {maxLen : ℕ} {e : ε} {data : List α} {x : α}, E.Accepted maxLen e data →
    (encode (data ++ [x])).length ≤ maxLen → (E.push e x).2 = true
  finalize : ∀ {maxLen : ℕ} {e : ε} {data : List α}, E.Accepted maxLen e data →
    (encode data).length ≤ maxLen → E.finalize e = encode data

/-- Nothing else is accepted either, and a push that fails leaves the encoder as it was. -/
structure EncodesExactly (E : Encoder ε α) (encode : List α → List α) : Prop
    extends Encodes E encode where
  fits : ∀ {maxLen : ℕ} {e : ε} {data : List α} {x : α}, E.Accepted maxLen e data →
    (E.push e x).2 = true → (encode (data ++ [x])).length ≤ maxLen
  unchanged : ∀ {e : ε} {x : α}, (E.push e x).2 = false → (E.push e x).1 = e

end Encoder

inductive Fed (δ α : Type*)
  | more (d : δ)
  | frame (packet : List α)
  | invalid

/-- It starts, and starts anew after a reset, in the same state. -/
structure Decoder (δ α : Type*) where
  start : δ
  feed : δ → α → Fed δ α

inductive Pushed (δ α : Type*)
  | more (d : δ)
  | frame (packet : List α) (parsedSize : ℕ)
  | invalid

namespace Decoder

def push (D : Decoder δ α) : δ → List α → Pushed δ α
  | d, [] => .more d
  | d, x :: xs =>
    match D.feed d x with
    | .invalid => .invalid
    | .frame packet => .frame packet 1
    | .more d' =>
      match D.push d' xs with
      | .more d'' => .more d''
      | .frame packet parsedSize => .frame packet (parsedSize + 1)
      | .invalid => .invalid

inductive Waits (D : Decoder δ α) : δ → List α → δ → Prop
  | nil (d : δ) : Waits D d [] d
  | cons {d d' d'' : δ} {x : α} {xs : List α} (hfeed : D.feed d x = .more d')
      (hrest : Waits D d' xs d'') : Waits D d (x :: xs) d''

variable {D : Decoder δ α} {d d' d'' : δ} {xs ys : List α}

theorem Waits.append (h : D.Waits d xs d') (h' : D.Waits d' ys d'') :
    D.Waits d (xs ++ ys) d'' := by
  induction h with
  | nil => exact h'
  | cons hfeed _ ih => exact .cons hfeed (ih h')

/-- Where the decoder is after some symbols is determined by them. -/
theorem Waits.unique (h : D.Waits d xs d') (h' : D.Waits d xs d'') : d' = d'' := by
  induction h with
  | nil =>
    cases h'
    rfl
  | cons hfeed _ ih =>
    cases h' with
    | cons hfeed' hrest =>
      obtain rfl := Fed.more.inj (hfeed.symm.trans hfeed')
      exact ih hrest

/-- The last symbol of a list that was waited through. -/
theorem Waits.snoc_inv {x : α} (h : D.Waits d (xs ++ [x]) d'') :
    ∃ d', D.Waits d xs d' ∧ D.feed d' x = .more d'' := by
  induction xs generalizing d with
  | nil =>
    cases h with
    | cons hfeed hrest =>
      cases hrest
      exact ⟨d, .nil d, hfeed⟩
  | cons y xs ih =>
    cases h with
    | cons hfeed hrest =>
      obtain ⟨d', hwaits, hlast⟩ := ih hrest
      exact ⟨d', .cons hfeed hwaits, hlast⟩

def Tight (D : Decoder δ α) (xs : List α) : Prop :=
  ∀ pre, pre <+: xs → D.Waits D.start pre D.start → pre = []

theorem tight_nil : D.Tight [] := fun _ hpre _ => List.prefix_nil.mp hpre

theorem Tight.of_append (h : D.Tight (xs ++ ys)) : D.Tight xs :=
  fun pre hpre hwaits => h pre (hpre.trans (List.prefix_append xs ys)) hwaits

theorem Tight.snoc {x : α} (h : D.Tight xs) (hwaits : D.Waits D.start xs d)
    (hfeed : D.feed d x ≠ .more D.start) : D.Tight (xs ++ [x]) := by
  intro pre hpre hback
  rcases List.prefix_concat_iff.mp hpre with rfl | hpre
  · obtain ⟨d', hwaits', hlast⟩ := hback.snoc_inv
    rw [← hwaits.unique hwaits'] at hlast
    exact absurd hlast hfeed
  · exact h pre hpre hback

theorem not_tight_of_feed {x : α} (hwaits : D.Waits D.start xs d)
    (hfeed : D.feed d x = .more D.start) : ¬ D.Tight (xs ++ [x]) := by
  intro h
  have hnil := h (xs ++ [x]) (List.prefix_refl _) (hwaits.append (.cons hfeed (.nil _)))
  exact List.append_ne_nil_of_right_ne_nil xs (List.cons_ne_nil x []) hnil

theorem waits_of_push (h : D.push d xs = .more d') : D.Waits d xs d' := by
  induction xs generalizing d with
  | nil =>
    obtain rfl := Pushed.more.inj h
    exact .nil d
  | cons x xs ih =>
    cases hfeed : D.feed d x with
    | more d₁ =>
      rw [push, hfeed] at h
      cases hrest : D.push d₁ xs with
      | more d₂ =>
        simp only [hrest] at h
        obtain rfl := Pushed.more.inj h
        exact .cons hfeed (ih hrest)
      | frame | invalid =>
        simp only [hrest] at h
        cases h
    | frame | invalid =>
      rw [push, hfeed] at h
      cases h

/-- A frame ends in the slice after some symbols that were waited through. -/
theorem frame_of_push {packet : List α} {parsedSize : ℕ}
    (h : D.push d xs = .frame packet parsedSize) :
    ∃ pre x post d', xs = pre ++ x :: post ∧ D.Waits d pre d' ∧
      D.feed d' x = .frame packet ∧ parsedSize = pre.length + 1 := by
  induction xs generalizing d parsedSize with
  | nil => cases h
  | cons x xs ih =>
    cases hfeed : D.feed d x with
    | frame packet' =>
      rw [push, hfeed] at h
      obtain ⟨rfl, rfl⟩ := Pushed.frame.inj h
      exact ⟨[], x, xs, d, rfl, .nil d, hfeed, rfl⟩
    | invalid =>
      rw [push, hfeed] at h
      cases h
    | more d₁ =>
      rw [push, hfeed] at h
      cases hrest : D.push d₁ xs with
      | frame packet' n =>
        simp only [hrest] at h
        obtain ⟨rfl, rfl⟩ := Pushed.frame.inj h
        obtain ⟨pre, y, post, d', rfl, hwaits, hframe, rfl⟩ := ih hrest
        exact ⟨x :: pre, y, post, d', rfl, .cons hfeed hwaits, hframe, rfl⟩
      | more | invalid =>
        simp only [hrest] at h
        cases h

theorem invalid_of_push (h : D.push d xs = .invalid) :
    ∃ pre x post d', xs = pre ++ x :: post ∧ D.Waits d pre d' ∧ D.feed d' x = .invalid := by
  induction xs generalizing d with
  | nil => cases h
  | cons x xs ih =>
    cases hfeed : D.feed d x with
    | invalid => exact ⟨[], x, xs, d, rfl, .nil d, hfeed⟩
    | frame packet =>
      rw [push, hfeed] at h
      cases h
    | more d₁ =>
      rw [push, hfeed] at h
      cases hrest : D.push d₁ xs with
      | invalid =>
        obtain ⟨pre, y, post, d', rfl, hwaits, hinvalid⟩ := ih hrest
        exact ⟨x :: pre, y, post, d', rfl, .cons hfeed hwaits, hinvalid⟩
      | more | frame =>
        simp only [hrest] at h
        cases h

end Decoder
end V5gdb.Framing
