import Mathlib.Data.BitVec
import Mathlib.Algebra.Order.Group.Nat
import Mathlib.Algebra.BigOperators.Group.List.Basic
import Mathlib.Tactic.Common

/-!
Records that travel as a sequence of bytes.
A field is a fixed number of bytes that can be read from and stored into a
record; a layout is a list of fields. Fields that do not overlap in the record do
not overlap in its bytes either, and a layout whose fields determine the record
can be read back onto any other one.
-/
namespace V5gdb.RecordLayouts

abbrev Bytes := List (BitVec 8)

variable {σ : Type*}

structure ByteField (σ : Type*) where
  size : ℕ
  get : σ → Bytes
  set : Bytes → σ → σ
  length_get : ∀ s, (get s).length = size
  get_set : ∀ bs s, bs.length = size → get (set bs s) = bs

structure ByteField.Independent (f g : ByteField σ) : Prop where
  left : ∀ bs s, g.get (f.set bs s) = g.get s
  right : ∀ bs s, f.get (g.set bs s) = f.get s

def total (fs : List (ByteField σ)) : ℕ := (fs.map ByteField.size).sum

def serialize (fs : List (ByteField σ)) (s : σ) : Bytes := fs.flatMap fun f => f.get s

/-- Takes the fields off the front of the bytes one by one. What was stored
before the bytes ran out stays stored. -/
def deserialize : List (ByteField σ) → σ → Bytes → σ × Except Unit Unit
  | [], s, _ => (s, .ok ())
  | f :: fs, s, bs =>
    if f.size ≤ bs.length then deserialize fs (f.set (bs.take f.size) s) (bs.drop f.size)
    else (s, .error ())

@[simp] theorem total_nil : total ([] : List (ByteField σ)) = 0 := rfl

@[simp] theorem total_cons (f : ByteField σ) (fs : List (ByteField σ)) :
    total (f :: fs) = f.size + total fs := by
  simp [total]

@[simp] theorem serialize_cons (f : ByteField σ) (fs : List (ByteField σ)) (s : σ) :
    serialize (f :: fs) s = f.get s ++ serialize fs s := by
  simp [serialize]

theorem serialize_append (fs gs : List (ByteField σ)) (s : σ) :
    serialize (fs ++ gs) s = serialize fs s ++ serialize gs s := by
  simp [serialize]

@[simp] theorem length_serialize (fs : List (ByteField σ)) (s : σ) :
    (serialize fs s).length = total fs := by
  induction fs with
  | nil => rfl
  | cons f fs ih => simp [ih, f.length_get]

theorem serialize_congr {fs : List (ByteField σ)} {s s' : σ} (h : ∀ f ∈ fs, f.get s = f.get s') :
    serialize fs s = serialize fs s' := by
  induction fs with
  | nil => rfl
  | cons f fs ih =>
    rw [serialize_cons, serialize_cons, h f (List.mem_cons_self ..),
      ih fun g hg => h g (List.mem_cons_of_mem _ hg)]

theorem get_eq_of_serialize_eq {fs : List (ByteField σ)} {s s' : σ}
    (h : serialize fs s = serialize fs s') : ∀ f ∈ fs, f.get s = f.get s' := by
  induction fs with
  | nil => simp
  | cons f fs ih =>
    rw [serialize_cons, serialize_cons] at h
    have hlen : (f.get s).length = (f.get s').length := by rw [f.length_get, f.length_get]
    obtain ⟨hf, hfs⟩ := List.append_inj h hlen
    intro g hg
    rcases List.mem_cons.mp hg with rfl | hg
    · exact hf
    · exact ih hfs g hg

theorem deserialize_ok_iff (fs : List (ByteField σ)) (s : σ) (bs : Bytes) :
    (deserialize fs s bs).2 = .ok () ↔ total fs ≤ bs.length := by
  induction fs generalizing s bs with
  | nil => simp [deserialize]
  | cons f fs ih =>
    rw [deserialize, total_cons]
    split_ifs with hlen
    · rw [ih, List.length_drop]
      omega
    · constructor
      · intro h
        cases h
      · intro h
        omega

/-- A field that no later field touches keeps its bytes. -/
theorem get_deserialize {f : ByteField σ} {fs : List (ByteField σ)}
    (h : ∀ g ∈ fs, f.Independent g) (s : σ) (bs : Bytes) :
    f.get (deserialize fs s bs).1 = f.get s := by
  induction fs generalizing s bs with
  | nil => rfl
  | cons g fs ih =>
    rw [deserialize]
    split_ifs with hlen
    · rw [ih fun g' hg' => h g' (List.mem_cons_of_mem _ hg')]
      exact (h g (List.mem_cons_self ..)).right _ _
    · rfl

/-- What was read back is the front of the bytes it was read from. -/
theorem serialize_deserialize {fs : List (ByteField σ)} (hind : fs.Pairwise ByteField.Independent)
    (s : σ) {bs : Bytes} (hlen : total fs ≤ bs.length) :
    serialize fs (deserialize fs s bs).1 = bs.take (total fs) := by
  induction fs generalizing s bs with
  | nil => rfl
  | cons f fs ih =>
    obtain ⟨hf, hfs⟩ := List.pairwise_cons.mp hind
    rw [total_cons] at hlen
    rw [deserialize, if_pos (by omega), serialize_cons, total_cons,
      ih hfs _ (by rw [List.length_drop]; omega), get_deserialize hf,
      f.get_set _ _ (by rw [List.length_take]; omega), List.take_add]

/-- Fields that determine the record carry all of it. -/
theorem deserialize_serialize {fs : List (ByteField σ)} (hind : fs.Pairwise ByteField.Independent)
    (hdet : ∀ s s' : σ, (∀ f ∈ fs, f.get s = f.get s') → s = s') (d s : σ) :
    deserialize fs d (serialize fs s) = (s, .ok ()) := by
  have hlen : total fs ≤ (serialize fs s).length := by rw [length_serialize]
  have hback := serialize_deserialize hind d hlen
  rw [List.take_of_length_le (by rw [length_serialize])] at hback
  have hrec := hdet _ _ (get_eq_of_serialize_eq hback)
  exact Prod.ext hrec ((deserialize_ok_iff fs d _).mpr hlen)

section Slices

variable {fs : List (ByteField σ)} {f : ByteField σ} {k : ℕ}

def offset (fs : List (ByteField σ)) (k : ℕ) : ℕ := total (fs.take k)

theorem split_at (h : fs[k]? = some f) : fs = fs.take k ++ f :: fs.drop (k + 1) := by
  obtain ⟨hk, hf⟩ := List.getElem?_eq_some_iff.mp h
  rw [← hf, List.getElem_cons_drop, List.take_append_drop]

theorem serialize_split (h : fs[k]? = some f) (s : σ) :
    serialize fs s =
      serialize (fs.take k) s ++ (f.get s ++ serialize (fs.drop (k + 1)) s) := by
  conv_lhs => rw [split_at h]
  rw [serialize_append, serialize_cons]

/-- The bytes of a field are the slice at its offset. -/
theorem slice_serialize (h : fs[k]? = some f) (s : σ) :
    ((serialize fs s).drop (offset fs k)).take f.size = f.get s := by
  rw [serialize_split h, List.drop_left' (by rw [length_serialize]; rfl),
    List.take_left' (f.length_get s)]

/-- Storing a field changes its slice and nothing else. -/
theorem serialize_set (hind : fs.Pairwise ByteField.Independent) (h : fs[k]? = some f) (s : σ)
    {bs : Bytes} (hlen : bs.length = f.size) :
    serialize fs (f.set bs s) =
      (serialize fs s).take (offset fs k) ++ bs ++
        (serialize fs s).drop (offset fs k + f.size) := by
  have hpair := hind
  rw [split_at h, List.pairwise_append] at hpair
  obtain ⟨_, hright, hcross⟩ := hpair
  have hbefore : serialize (fs.take k) (f.set bs s) = serialize (fs.take k) s :=
    serialize_congr fun g hg => (hcross g hg f (List.mem_cons_self ..)).right _ _
  have hafter : serialize (fs.drop (k + 1)) (f.set bs s) = serialize (fs.drop (k + 1)) s :=
    serialize_congr fun g hg => ((List.pairwise_cons.mp hright).1 g hg).left _ _
  have hoff : (serialize (fs.take k) s).length = offset fs k := length_serialize ..
  have hskip : (serialize fs s).drop (offset fs k + f.size) =
      serialize (fs.drop (k + 1)) s := by
    rw [serialize_split h, ← List.append_assoc]
    exact List.drop_left' (by rw [List.length_append, hoff, f.length_get])
  rw [hskip, serialize_split h (f.set bs s), serialize_split h s, hbefore, hafter,
    f.get_set _ _ hlen, List.take_left' hoff, List.append_assoc]

end Slices
end V5gdb.RecordLayouts
