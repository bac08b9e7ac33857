import Mathlib.Algebra.BigOperators.Ring.Finset
import Mathlib.Tactic.Abel

/-!
# Counting places

Sums over a finite set of places, and the number of places with a property,
under a change of one place.
-/

namespace Counting

variable {Place : Type*} [DecidableEq Place] {places : Finset Place} {place : Place}

/-- Two sums that differ at one place only. -/
theorem sum_change {Amount : Type*} [AddCommGroup Amount] (before after : Place → Amount)
    (member : place ∈ places)
    (same : ∀ other ∈ places, other ≠ place → after other = before other) :
    ∑ x ∈ places, after x = ∑ x ∈ places, before x - before place + after place := by
  have rest : ∑ x ∈ places.erase place, after x = ∑ x ∈ places.erase place, before x :=
    Finset.sum_congr rfl fun x inside =>
      same x (Finset.mem_of_mem_erase inside) (Finset.ne_of_mem_erase inside)
  rw [← Finset.add_sum_erase places after member, ← Finset.add_sum_erase places before member,
    rest]
  abel

/-- An amount moves between two places, and something is added. -/
theorem sum_le_of_pair {other : Place} (before after : Place → Nat) (added : Nat)
    (member : place ∈ places) (otherMember : other ∈ places) (different : place ≠ other)
    (same : ∀ x, x ≠ place → x ≠ other → after x = before x)
    (pair : after place + after other ≤ before place + before other + added) :
    ∑ x ∈ places, after x ≤ ∑ x ∈ places, before x + added := by
  have otherInside : other ∈ places.erase place := Finset.mem_erase.mpr
    ⟨different.symm, otherMember⟩
  have rest : ∑ x ∈ (places.erase place).erase other, after x =
      ∑ x ∈ (places.erase place).erase other, before x := by
    refine Finset.sum_congr rfl fun x inside => ?_
    exact same x (Finset.ne_of_mem_erase (Finset.mem_of_mem_erase inside))
      (Finset.ne_of_mem_erase inside)
  rw [← Finset.add_sum_erase places after member, ← Finset.add_sum_erase _ after otherInside,
    ← Finset.add_sum_erase places before member, ← Finset.add_sum_erase _ before otherInside, rest]
  omega

end Counting
