import Mathlib.Logic.Equiv.Basic

/-!
# A binary tree laid out in an array

The entries lie at the places from one up to an end; the parent of a place is its half.  A tree is
ordered if no entry is below one that comes after it.  An exchange with the parent or with the
least child moves a misplaced entry through a tree that is otherwise in order.
-/

namespace TreeOrder

universe u

variable {Item : Type u} {before : Item → Item → Prop} {data : Nat → Item} {e c : Nat}

def Ordered (before : Item → Item → Prop) (data : Nat → Item) (e : Nat) : Prop :=
  ∀ i, 2 ≤ i → i < e → before (data (i / 2)) (data i)

/-- The tree would be in order if it were not for the entry at `c`. -/
structure OrderedExcept (before : Item → Item → Prop) (data : Nat → Item) (e c : Nat) : Prop where
  away : ∀ i, 2 ≤ i → i < e → i ≠ c → i / 2 ≠ c → before (data (i / 2)) (data i)
  across : 2 ≤ c → ∀ i, i < e → i / 2 = c → before (data (c / 2)) (data i)

/-- The entry at `c` comes after its parent. -/
def AboveFits (before : Item → Item → Prop) (data : Nat → Item) (c : Nat) : Prop :=
  2 ≤ c → before (data (c / 2)) (data c)

theorem exchange_other {i a b : Nat} (notFirst : i ≠ a) (notSecond : i ≠ b) :
    (data ∘ Equiv.swap a b) i = data i :=
  congrArg data (Equiv.swap_apply_of_ne_of_ne notFirst notSecond)

theorem exchange_left (a b : Nat) : (data ∘ Equiv.swap a b) a = data b :=
  congrArg data (Equiv.swap_apply_left a b)

theorem exchange_right (a b : Nat) : (data ∘ Equiv.swap a b) b = data a :=
  congrArg data (Equiv.swap_apply_right a b)

theorem OrderedExcept.ordered (except : OrderedExcept before data e c)
    (above : AboveFits before data c) (below : ∀ i, i < e → i / 2 = c → before (data c) (data i)) :
    Ordered before data e := by
  intro i notRoot inside
  by_cases isEntry : i = c
  · subst isEntry
    exact above notRoot
  by_cases isChild : i / 2 = c
  · rw [isChild]
    exact below i inside isChild
  · exact except.away i notRoot inside isEntry isChild

/-- The entry at `c` or its key changes, and the order of the others stays. -/
theorem Ordered.except [IsTrans Item before] (ordered : Ordered before data e) (inside : c < e)
    {after : Item → Item → Prop} {changed : Nat → Item} {e' : Nat} (shorter : e' ≤ e)
    (kept : ∀ i j, 0 < i ∧ i < e' ∧ i ≠ c → 0 < j ∧ j < e' ∧ j ≠ c → before (data i) (data j) →
      after (changed i) (changed j)) :
    OrderedExcept after changed e' c := by
  constructor
  · intro i notRoot inTree notEntry notChild
    exact kept _ _ (by omega) (by omega) (ordered i notRoot (by omega))
  · intro notRoot i inTree isChild
    have first := ordered c notRoot inside
    have second := ordered i (by omega) (by omega)
    rw [isChild] at second
    exact kept _ _ (by omega) (by omega) (IsTrans.trans _ _ _ first second)

/-- The first entry comes before every other. -/
theorem Ordered.root_before [Std.Refl before] [IsTrans Item before]
    (ordered : Ordered before data e) {i : Nat} (positive : 0 < i) (inside : i < e) :
    before (data 1) (data i) := by
  induction i using Nat.strongRecOn with
  | ind i ih =>
    by_cases isRoot : i = 1
    · rw [isRoot]
      exact Std.Refl.refl _
    · have parent := ih (i / 2) (by omega) (by omega) (by omega)
      exact IsTrans.trans _ _ _ parent (ordered i (by omega) inside)

/-- A misplaced entry takes the place of its parent. -/
theorem OrderedExcept.move_up [IsTrans Item before] (except : OrderedExcept before data e c)
    (notRoot : 2 ≤ c) (inside : c < e) :
    OrderedExcept before (data ∘ Equiv.swap (c / 2) c) e (c / 2) := by
  have grandparent : 2 ≤ c / 2 → before (data (c / 2 / 2)) (data (c / 2)) := fun deep =>
    except.away (c / 2) deep (by omega) (by omega) (by omega)
  constructor
  · intro i notFirst inTree notParent notSibling
    have notEntry : i ≠ c := fun same => notSibling (by rw [same])
    rw [exchange_other notParent notEntry]
    by_cases isChild : i / 2 = c
    · rw [isChild, exchange_right]
      exact except.across notRoot i inTree isChild
    · rw [exchange_other notSibling isChild]
      exact except.away i notFirst inTree notEntry isChild
  · intro deep i inTree isChild
    rw [exchange_other (by omega) (by omega)]
    by_cases isEntry : i = c
    · rw [isEntry, exchange_right]
      exact grandparent deep
    · rw [exchange_other (by omega) isEntry]
      have sibling := except.away i (by omega) inTree isEntry (by omega)
      rw [isChild] at sibling
      exact IsTrans.trans _ _ _ (grandparent deep) sibling

/-- A misplaced entry takes the place of its least child. -/
theorem OrderedExcept.move_down (except : OrderedExcept before data e c) {n : Nat}
    (isChild : n / 2 = c) (inside : n < e)
    (least : ∀ i, i < e → i / 2 = c → before (data n) (data i)) :
    OrderedExcept before (data ∘ Equiv.swap n c) e n := by
  constructor
  · intro i notFirst inTree notEntry notChild
    by_cases isOld : i = c
    · rw [isOld, exchange_right, exchange_other (by omega) (by omega)]
      exact except.across (by omega) n inside isChild
    · rw [exchange_other notEntry isOld]
      by_cases sibling : i / 2 = c
      · rw [sibling, exchange_right]
        exact least i inTree sibling
      · rw [exchange_other notChild sibling]
        exact except.away i notFirst inTree isOld sibling
  · intro _ i inTree grandchild
    rw [isChild, exchange_right, exchange_other (by omega) (by omega)]
    have below := except.away i (by omega) inTree (by omega) (by omega)
    rw [grandchild] at below
    exact below

theorem above_fits_moved [Std.Total before] {n : Nat} (isChild : n / 2 = c)
    (misplaced : ¬before (data c) (data n)) :
    AboveFits before (data ∘ Equiv.swap n c) n := by
  intro _
  rw [isChild, exchange_right, exchange_left]
  exact (Std.Total.total (data c) (data n)).resolve_left misplaced

end TreeOrder
