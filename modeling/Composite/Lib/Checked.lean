import Mathlib.Algebra.Order.Ring.Int

/-!
# Computations that may fault

Rules for taking apart a computation in `Except` that has returned.
-/

namespace Checked

universe u v

variable {Fault : Type u} {Alpha Beta : Type v}

theorem bind_eq_ok {first : Except Fault Alpha} {rest : Alpha → Except Fault Beta} {result : Beta} :
    first >>= rest = .ok result ↔ ∃ middle, first = .ok middle ∧ rest middle = .ok result := by
  cases first with
  | error fault => simp [bind, Except.bind]
  | ok middle => simp [bind, Except.bind]

theorem bind_eq_error {first : Except Fault Alpha} {rest : Alpha → Except Fault Beta}
    {fault : Fault} :
    first >>= rest = .error fault ↔
      first = .error fault ∨ ∃ middle, first = .ok middle ∧ rest middle = .error fault := by
  cases first with
  | error found => simp [bind, Except.bind]
  | ok middle => simp [bind, Except.bind]

@[simp]
theorem ok_bind (value : Alpha) (rest : Alpha → Except Fault Beta) :
    (Except.ok value >>= rest) = rest value := rfl

@[simp]
theorem error_bind (fault : Fault) (rest : Alpha → Except Fault Beta) :
    (Except.error fault >>= rest) = .error fault := rfl

instance decidableEqError [DecidableEq Fault] (computation : Except Fault Alpha) (fault : Fault) :
    Decidable (computation = .error fault) :=
  match computation with
  | .ok _ => .isFalse (by simp)
  | .error found => decidable_of_iff (found = fault) (by simp)

end Checked
