/-
Writes to the points of a function, one after the other.

The last write to a point stays.  Writes that each find what they write are idle:
they are the ones no step of which changes anything, while writes that undo each
other change the function on the way and not in the end.
-/

namespace PointWrites

universe u v

variable {κ : Type u} {ν : Type v} [DecidableEq κ]

def write (f : κ → ν) (w : κ × ν) : κ → ν := fun k => if k = w.1 then w.2 else f k

def run (f : κ → ν) : List (κ × ν) → κ → ν
  | [] => f
  | w :: ws => run (write f w) ws

/-- Some write finds another value than it writes. -/
def changes [DecidableEq ν] (f : κ → ν) : List (κ × ν) → Bool
  | [] => false
  | w :: ws => decide (f w.1 ≠ w.2) || changes (write f w) ws

/-- The last value written to a point. -/
def last : List (κ × ν) → κ → Option ν
  | [], _ => none
  | w :: ws, k => (last ws k).or (if k = w.1 then some w.2 else none)

def Idle (f : κ → ν) (ws : List (κ × ν)) : Prop := ∀ w ∈ ws, f w.1 = w.2

variable {f : κ → ν} {w : κ × ν}

theorem write_eq_self (h : f w.1 = w.2) : write f w = f := by
  funext k
  rw [write]
  split
  · rename_i hk
    rw [hk, h]
  · rfl

theorem run_apply (f : κ → ν) (ws : List (κ × ν)) (k : κ) :
    run f ws k = (last ws k).getD (f k) := by
  induction ws generalizing f with
  | nil => rfl
  | cons w ws ih =>
    rw [run, ih, last]
    cases hlast : last ws k with
    | some v => rfl
    | none =>
      rw [write]
      split <;> rfl

theorem run_append (f : κ → ν) (ws vs : List (κ × ν)) : run f (ws ++ vs) = run (run f ws) vs := by
  induction ws generalizing f with
  | nil => rfl
  | cons w ws ih => exact ih (write f w)

/-- Of two lists of writes the second decides. -/
theorem last_append (ws vs : List (κ × ν)) (k : κ) :
    last (ws ++ vs) k = (last vs k).or (last ws k) := by
  induction ws with
  | nil => exact Option.or_none.symm
  | cons w ws ih => rw [List.cons_append, last, ih, last, Option.or_assoc]

/-- Writes leave no trace in the end exactly if the last one to each point finds its
value there from the start. -/
theorem run_eq_self_iff (f : κ → ν) (ws : List (κ × ν)) :
    (∀ k, run f ws k = f k) ↔ ∀ k v, last ws k = some v → f k = v := by
  refine forall_congr' fun k => ?_
  rw [run_apply]
  cases last ws k with
  | none => exact iff_of_true rfl fun v hv => nomatch hv
  | some v =>
    constructor
    · intro h v' hv'
      exact h.symm.trans (Option.some.inj hv')
    · intro h
      exact (h v rfl).symm

theorem changes_eq_false_iff [DecidableEq ν] (f : κ → ν) (ws : List (κ × ν)) :
    changes f ws = false ↔ Idle f ws := by
  induction ws generalizing f with
  | nil => exact iff_of_true rfl fun w hw => nomatch hw
  | cons w ws ih =>
    rw [changes, Bool.or_eq_false_iff, decide_eq_false_iff_not, Decidable.not_not, ih, Idle, Idle,
      List.forall_mem_cons]
    refine and_congr_right fun hw => ?_
    rw [write_eq_self hw]

end PointWrites
