import Mathlib.Logic.Function.Basic
import Mathlib.Logic.Relation

/-!
# Forests given by a parent function

A root is its own parent, and a node without a parent is not in the forest.  A node
that is linked to a root knows how far away the root is, which rules out cycles.
-/

namespace Forest

open Function Option

variable {Node : Type*} {parent : Node → Option Node} {node other above : Node} {depth : Nat}

def Linked (parent : Node → Option Node) : Nat → Node → Prop
  | 0, node => parent node = some node
  | depth + 1, node =>
    ∃ above, above ≠ node ∧ parent node = some above ∧ Linked parent depth above

def Below (parent : Node → Option Node) (node above : Node) : Prop :=
  parent node = some above ∧ above ≠ node

theorem Linked.ne_none (linked : Linked parent depth node) : parent node ≠ none := by
  cases depth with
  | zero => exact ne_none_iff_exists'.mpr ⟨node, linked⟩
  | succ depth =>
    obtain ⟨above, -, isParent, -⟩ := linked
    exact ne_none_iff_exists'.mpr ⟨above, isParent⟩

/-- The link from a node to its parent. -/
theorem Linked.up (linked : Linked parent depth node) (below : Below parent node above) :
    ∃ rest, depth = rest + 1 ∧ Linked parent rest above := by
  cases depth with
  | zero =>
    exact absurd (some.inj (below.1.symm.trans linked)) below.2
  | succ depth =>
    obtain ⟨next, -, isParent, rest⟩ := linked
    obtain rfl := some.inj (isParent.symm.trans below.1)
    exact ⟨depth, rfl, rest⟩

theorem Linked.unique {first second : Nat} (linked : Linked parent first node)
    (also : Linked parent second node) : first = second := by
  induction first generalizing second node with
  | zero =>
    cases second with
    | zero => rfl
    | succ second =>
      obtain ⟨above, different, isParent, -⟩ := also
      exact absurd (some.inj (isParent.symm.trans linked)) different
  | succ first ih =>
    obtain ⟨above, different, isParent, rest⟩ := linked
    obtain ⟨second, rfl, upper⟩ := also.up ⟨isParent, different⟩
    rw [ih rest upper]

theorem Linked.up_transGen (linked : Linked parent depth node)
    (below : Relation.TransGen (Below parent) node above) :
    ∃ rest < depth, Linked parent rest above := by
  induction below with
  | single step =>
    obtain ⟨rest, rfl, upper⟩ := linked.up step
    exact ⟨rest, Nat.lt_succ_self rest, upper⟩
  | tail _ step ih =>
    obtain ⟨middle, lower, reached⟩ := ih
    obtain ⟨rest, rfl, upper⟩ := reached.up step
    exact ⟨rest, by omega, upper⟩

/-- A node that is linked to a root is on no cycle. -/
theorem Linked.acyclic (linked : Linked parent depth node) :
    ¬Relation.TransGen (Below parent) node node := by
  intro cycle
  obtain ⟨rest, lower, again⟩ := linked.up_transGen cycle
  exact absurd (linked.unique again) (by omega)

variable [DecidableEq Node]

/-- The links of the others are as before when a node comes into the forest. -/
theorem Linked.attach (outside : parent node = none) (above : Node)
    (linked : Linked parent depth other) :
    Linked (update parent node (some above)) depth other := by
  induction depth generalizing other with
  | zero =>
    have different : other ≠ node := fun same => linked.ne_none (same ▸ outside)
    exact (update_of_ne different _ _).trans linked
  | succ depth ih =>
    have different : other ≠ node := fun same => linked.ne_none (same ▸ outside)
    obtain ⟨next, proper, isParent, rest⟩ := linked
    exact ⟨next, proper, (update_of_ne different _ _).trans isParent,
      ih rest⟩

theorem linked_attach (outside : parent node = none) (linked : Linked parent depth above) :
    Linked (update parent node (some above)) (depth + 1) node :=
  ⟨above, fun same => linked.ne_none (same ▸ outside), update_self .., linked.attach outside above⟩

/-- The links of the others are as before when a node without children leaves. -/
theorem Linked.detach (childless : ∀ child, parent child ≠ some node) (different : other ≠ node)
    (linked : Linked parent depth other) :
    Linked (update parent node none) depth other := by
  induction depth generalizing other with
  | zero => exact (update_of_ne different _ _).trans linked
  | succ depth ih =>
    obtain ⟨next, proper, isParent, rest⟩ := linked
    have remains : next ≠ node := fun same => childless other (same ▸ isParent)
    exact ⟨next, proper, (update_of_ne different _ _).trans isParent,
      ih remains rest⟩

end Forest
