import Mathlib.Data.BitVec
import Mathlib.Data.List.Chain
import Mathlib.Tactic.Common

/-!
A rate limit by a clock that wraps around.
Only the low bits of the times are seen. As long as requests do not come too far
apart the limit works as with the times themselves: what is served is spaced, and
the latest service is never older than the interval at a request.
-/
namespace V5gdb.RateLimits

variable {w : ℕ}

def IsDue (interval : ℕ) (last now : BitVec w) : Prop := interval ≤ (now - last).toNat

instance (interval : ℕ) (last now : BitVec w) : Decidable (IsDue interval last now) :=
  inferInstanceAs (Decidable (_ ≤ _))

def served (interval : ℕ) : BitVec w → List (BitVec w) → List (BitVec w)
  | _, [] => []
  | last, now :: nows =>
    if IsDue interval last now then now :: served interval now nows
    else served interval last nows

variable {interval gap : ℕ}

theorem getLastD_append {α : Type*} (xs ys : List α) (x : α) :
    (xs ++ ys).getLastD x = ys.getLastD (xs.getLastD x) := by
  induction xs generalizing x with
  | nil => rfl
  | cons first xs ih => rw [List.cons_append, List.getLastD_cons, List.getLastD_cons, ih]

theorem served_append (interval : ℕ) (last : BitVec w) (nows nows' : List (BitVec w)) :
    served interval last (nows ++ nows') =
      served interval last nows ++
        served interval ((served interval last nows).getLastD last) nows' := by
  induction nows generalizing last with
  | nil => rfl
  | cons now nows ih =>
    rw [List.cons_append, served, served]
    split_ifs with hdue
    · rw [ih, List.cons_append, List.getLastD_cons]
    · exact ih last

theorem served_eq_nil_iff {last : BitVec w} {nows : List (BitVec w)} :
    served interval last nows = [] ↔ ∀ now ∈ nows, ¬IsDue interval last now := by
  induction nows with
  | nil => simp [served]
  | cons now nows ih =>
    rw [served]
    by_cases hdue : IsDue interval last now
    · simp [hdue]
    · simp [hdue, ih]

/-- The clock tells times right that are less than a turn apart. -/
theorem toNat_ofNat_sub {a b : ℕ} (hab : a ≤ b) (hturn : b - a < 2 ^ w) :
    (BitVec.ofNat w b - BitVec.ofNat w a).toNat = b - a := by
  have hsum : BitVec.ofNat w b = BitVec.ofNat w a + BitVec.ofNat w (b - a) := by
    rw [← BitVec.ofNat_add, Nat.add_sub_cancel' hab]
  rw [hsum, BitVec.add_comm, BitVec.add_sub_cancel, BitVec.toNat_ofNat, Nat.mod_eq_of_lt hturn]

theorem isDue_iff {a b : ℕ} (hab : a ≤ b) (hturn : b - a < 2 ^ w) :
    IsDue interval (BitVec.ofNat w a) (BitVec.ofNat w b) ↔ a + interval ≤ b := by
  rw [IsDue, toNat_ofNat_sub hab hturn]
  omega

/-- Times in order, with no two neighbours more than `gap` apart. -/
def Steady (gap : ℕ) (times : List ℕ) : Prop := times.IsChain fun a b => a ≤ b ∧ b ≤ a + gap

def Spaced (interval gap : ℕ) (times : List ℕ) : Prop :=
  times.IsChain fun a b => a + interval ≤ b ∧ b < a + interval + gap

/-- At the time `t` of the latest request the latest service was less than the interval ago. -/
theorem exists_served (hgap : interval + gap ≤ 2 ^ w) {last t : ℕ} {times : List ℕ}
    (hle : last ≤ t) (hlast : t < last + interval) (hsteady : Steady gap (t :: times)) :
    ∃ services : List ℕ,
      served interval (BitVec.ofNat w last) (times.map (BitVec.ofNat w)) =
        services.map (BitVec.ofNat w) ∧
      Spaced interval gap (last :: services) ∧ services.Sublist times ∧
      services.getLastD last ≤ times.getLastD t ∧
      times.getLastD t < services.getLastD last + interval := by
  induction times generalizing last t with
  | nil => exact ⟨[], rfl, List.isChain_singleton _, List.Sublist.refl _, hle, hlast⟩
  | cons time times ih =>
    obtain ⟨⟨hafter, hnear⟩, hrest⟩ := List.isChain_cons_cons.mp hsteady
    have hsince : last ≤ time := by omega
    have hdue := @isDue_iff w interval last time hsince (by omega)
    rw [List.map_cons, served, List.getLastD_cons]
    by_cases hpassed : last + interval ≤ time
    · rw [if_pos (hdue.mpr hpassed)]
      obtain ⟨services, hserved, hspaced, hsub, hold, hfresh⟩ :=
        ih (le_refl time) (by omega) hrest
      refine ⟨time :: services, by rw [hserved, List.map_cons], ?_, hsub.cons_cons time, ?_, ?_⟩
      · exact List.isChain_cons_cons.mpr ⟨⟨hpassed, by omega⟩, hspaced⟩
      · rwa [List.getLastD_cons]
      · rwa [List.getLastD_cons]
    · rw [if_neg (fun h => hpassed (hdue.mp h))]
      obtain ⟨services, hserved, hspaced, hsub, hold, hfresh⟩ :=
        ih hsince (by omega) hrest
      exact ⟨services, hserved, hspaced, hsub.cons time, hold, hfresh⟩

end V5gdb.RateLimits
