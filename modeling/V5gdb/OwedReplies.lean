import Mathlib.Data.List.Basic
import Mathlib.Tactic.Common

/-!
Requests that are answered in a later session.
A request ends the session that it is made in. Its reply is the first thing that
is said in the next session that is held, and it says what that session was
opened for. A final reply ends its session too.
-/
namespace V5gdb.OwedReplies

variable {ρ : Type*}

inductive Act (ρ : Type*)
  | enter (reason : ρ)
  /-- something happens that no session is held for -/
  | pass
  | turn
  | hangUp
  | request
  | reply (reason : ρ)
  | leave
  deriving DecidableEq, Repr

inductive State (ρ : Type*)
  | settled
  | serving
  | requested
  | owing
  | due (reason : ρ)
  | ending
  deriving DecidableEq, Repr

def State.pending : State ρ → ℕ
  | requested => 1
  | owing => 1
  | due _ => 1
  | _ => 0

variable [DecidableEq ρ]

def next (final : ρ → Bool) : State ρ → Act ρ → Option (State ρ)
  | .settled, .enter _ => some .serving
  | .settled, .pass => some .settled
  | .serving, .turn => some .serving
  | .serving, .hangUp => some .serving
  | .serving, .request => some .requested
  | .requested, .leave => some .owing
  | .owing, .pass => some .owing
  | .owing, .enter reason => some (.due reason)
  | .due reason, .reply reason' =>
    if reason' = reason then some (if final reason then .ending else .serving) else none
  | .ending, .leave => some .settled
  | _, _ => none

def run (final : ρ → Bool) : State ρ → List (Act ρ) → Option (State ρ)
  | p, [] => some p
  | p, a :: as => (next final p a).bind fun q => run final q as

variable {final : ρ → Bool} {p q : State ρ} {a : Act ρ} {as bs : List (Act ρ)}

end V5gdb.OwedReplies
