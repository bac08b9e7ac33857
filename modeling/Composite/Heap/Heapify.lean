import Composite.Heap.Model
import Composite.Lib.TreeOrder

/-!
# Moving an entry of the heap to its place

The entry goes up while it comes before its parent and then down while it comes after a child.  If
the rest of the heap was in order, all of it is, and every entry knows its place.
-/

namespace Composite

open TreeOrder Function

universe u

variable {Item : Type u}

abbrev Before (cmp : Item → Item → Bool) (a b : Item) : Prop := cmp a b = true

def Heap.Holds (h : Heap Item) (entry : Item) : Prop := ∃ i, 0 < i ∧ i < h.e ∧ h.data i = entry

def Heap.Indexed (h : Heap Item) : Prop := ∀ i, 0 < i → i < h.e → h.idx (h.data i) = i

structure Heap.Sound (cmp : Item → Item → Bool) (h : Heap Item) : Prop where
  nonempty : 1 ≤ h.e
  indexed : h.Indexed
  ordered : Ordered (Before cmp) h.data h.e

structure Heap.Rearranged (h h' : Heap Item) : Prop where
  sameEnd : h'.e = h.e
  sameMax : h'.maxSz = h.maxSz
  indexed : h'.Indexed
  holds : ∀ entry, h'.Holds entry ↔ h.Holds entry
  others : ∀ entry, ¬h.Holds entry → h'.idx entry = h.idx entry

theorem Heap.Indexed.place_unique {h : Heap Item} (indexed : h.Indexed) {i j : Nat}
    (positive : 0 < i) (inside : i < h.e) (positive' : 0 < j) (inside' : j < h.e)
    (same : h.data i = h.data j) : i = j := by
  have first := indexed i positive inside
  have second := indexed j positive' inside'
  rw [same, second] at first
  omega

theorem Heap.Indexed.data_idx {h : Heap Item} (indexed : h.Indexed) {entry : Item}
    (held : h.Holds entry) :
    0 < h.idx entry ∧ h.idx entry < h.e ∧ h.data (h.idx entry).toNat = entry := by
  obtain ⟨i, positive, inside, rfl⟩ := held
  rw [indexed i positive inside]
  exact ⟨by omega, by omega, rfl⟩

theorem Heap.Rearranged.refl {h : Heap Item} (indexed : h.Indexed) : h.Rearranged h :=
  ⟨rfl, rfl, indexed, fun _ => .rfl, fun _ _ => rfl⟩

theorem Heap.Rearranged.trans {first second third : Heap Item}
    (earlier : first.Rearranged second) (later : second.Rearranged third) :
    first.Rearranged third where
  sameEnd := later.sameEnd.trans earlier.sameEnd
  sameMax := later.sameMax.trans earlier.sameMax
  indexed := later.indexed
  holds entry := (later.holds entry).trans (earlier.holds entry)
  others entry absent :=
    (later.others entry (mt (earlier.holds entry).mp absent)).trans (earlier.others entry absent)

section Exchange

variable [DecidableEq Item]

theorem swapEntries_data (h : Heap Item) (a b : Nat) :
    (swapEntries h a b).data = h.data ∘ Equiv.swap a b := by
  funext i
  by_cases isSecond : i = b
  · subst isSecond
    rw [exchange_right]
    exact update_self ..
  by_cases isFirst : i = a
  · subst isFirst
    rw [exchange_left]
    exact (update_of_ne isSecond ..).trans (update_self ..)
  · rw [exchange_other isFirst isSecond]
    exact (update_of_ne isSecond ..).trans (update_of_ne isFirst ..)

theorem swapEntries_idx (h : Heap Item) (a b : Nat) :
    (swapEntries h a b).idx =
      update (update h.idx (h.data b) a) (h.data a) b := by
  have left : (swapEntries h a b).data a = h.data b := by
    rw [swapEntries_data, exchange_left]
  have right : (swapEntries h a b).data b = h.data a := by
    rw [swapEntries_data, exchange_right]
  rw [← left, ← right]
  rfl

variable {h : Heap Item} {a b : Nat}

theorem swapEntries_indexed (indexed : h.Indexed) (positiveA : 0 < a) (insideA : a < h.e)
    (positiveB : 0 < b) (insideB : b < h.e) : (swapEntries h a b).Indexed := by
  intro i positive inside
  rw [swapEntries_data, swapEntries_idx]
  by_cases isSecond : i = b
  · rw [isSecond, exchange_right, update_self]
  by_cases isFirst : i = a
  · subst isFirst
    have apart : h.data b ≠ h.data i := fun same =>
      isSecond (indexed.place_unique positiveB insideB positiveA insideA same).symm
    rw [exchange_left, update_of_ne apart, update_self]
  · have apartA : h.data i ≠ h.data a := fun same =>
      isFirst (indexed.place_unique positive inside positiveA insideA same)
    have apartB : h.data i ≠ h.data b := fun same =>
      isSecond (indexed.place_unique positive inside positiveB insideB same)
    rw [exchange_other isFirst isSecond, update_of_ne apartA,
      update_of_ne apartB]
    exact indexed i positive inside

theorem swapEntries_rearranged (indexed : h.Indexed) (positiveA : 0 < a) (insideA : a < h.e)
    (positiveB : 0 < b) (insideB : b < h.e) : h.Rearranged (swapEntries h a b) where
  sameEnd := rfl
  sameMax := rfl
  indexed := swapEntries_indexed indexed positiveA insideA positiveB insideB
  holds entry := by
    have kept : ∀ i, 0 < i → i < h.e → 0 < Equiv.swap a b i ∧ Equiv.swap a b i < h.e := by
      intro i positive inside
      rw [Equiv.swap_apply_def]
      split_ifs <;> exact ⟨‹_›, ‹_›⟩
    constructor
    · rintro ⟨i, positive, inside, rfl⟩
      refine ⟨_, (kept i positive inside).1, (kept i positive inside).2, ?_⟩
      rw [swapEntries_data]
      rfl
    · rintro ⟨i, positive, inside, rfl⟩
      refine ⟨_, (kept i positive inside).1, (kept i positive inside).2, ?_⟩
      rw [swapEntries_data]
      exact congrArg h.data (Equiv.swap_apply_self a b i)
  others entry absent := by
    have notA : entry ≠ h.data a := fun same => absent ⟨a, positiveA, insideA, same.symm⟩
    have notB : entry ≠ h.data b := fun same => absent ⟨b, positiveB, insideB, same.symm⟩
    rw [swapEntries_idx, update_of_ne notA, update_of_ne notB]

end Exchange

section Sifts

variable [DecidableEq Item] {cmp : Item → Item → Bool}
  [IsTrans Item (Before cmp)] [Std.Total (Before cmp)]
  {h : Heap Item} {c : Nat}

omit [DecidableEq Item] [IsTrans Item (Before cmp)] [Std.Total (Before cmp)] in
theorem nextIndex_inside (cmp : Item → Item → Bool) (h : Heap Item) {l : Nat} (parent : c ≤ l / 2) :
    nextIndex cmp h l c / 2 = c ∧ nextIndex cmp h l c ≤ l := by
  simp only [nextIndex]
  split_ifs <;> omega

omit [DecidableEq Item] [IsTrans Item (Before cmp)] in
theorem nextIndex_least {l i : Nat} (inside : i ≤ l) (child : i / 2 = c) :
    cmp (h.data (nextIndex cmp h l c)) (h.data i) = true := by
  have reflexive : ∀ a, cmp a a = true := fun a =>
    (Std.Total.total (r := Before cmp) a a).elim id id
  have either : i = 2 * c ∨ i = 2 * c + 1 := by omega
  simp only [nextIndex]
  split_ifs with lone first
  · obtain rfl : i = 2 * c := by omega
    exact reflexive _
  · obtain rfl | rfl := either
    · exact reflexive _
    · exact first
  · obtain rfl | rfl := either
    · exact (Std.Total.total (r := Before cmp) _ _).resolve_left first
    · exact reflexive _

omit [Std.Total (Before cmp)] in
theorem swapUpLoop_spec {fuel : Nat} (enough : c ≤ fuel) (positive : 0 < c) (inside : c < h.e)
    (indexed : h.Indexed) (except : OrderedExcept (Before cmp) h.data h.e c) :
    ∃ h' c', swapUpLoop cmp fuel h c = some (h', c') ∧ 0 < c' ∧ c' < h'.e ∧ h.Rearranged h' ∧
      OrderedExcept (Before cmp) h'.data h'.e c' ∧
      AboveFits (Before cmp) h'.data c' := by
  induction fuel generalizing h c with
  | zero => omega
  | succ fuel ih =>
    unfold swapUpLoop
    by_cases atRoot : c > 1
    swap
    · refine ⟨h, c, if_neg atRoot, positive, inside, .refl indexed, except, ?_⟩
      intro deep
      omega
    rw [if_pos atRoot]
    simp only
    rw [if_neg (by omega)]
    by_cases fits : cmp (h.data (c / 2)) (h.data c) = true
    · exact ⟨h, c, if_pos fits, positive, inside, .refl indexed, except, fun _ => fits⟩
    rw [if_neg fits]
    have exchanged : h.Rearranged (swapEntries h (c / 2) c) :=
      swapEntries_rearranged indexed (by omega) (by omega) positive inside
    have moved := except.move_up atRoot inside
    rw [← swapEntries_data] at moved
    obtain ⟨h', c', returned, positive', inside', rearranged, rest⟩ :=
      ih (h := swapEntries h (c / 2) c) (c := c / 2) (by omega) (by omega)
        (by rw [exchanged.sameEnd]; omega) exchanged.indexed moved
    exact ⟨h', c', returned, positive', inside', exchanged.trans rearranged, rest⟩

theorem swapDownLoop_spec {fuel : Nat} (enough : h.e ≤ c + fuel) (positive : 0 < c)
    (indexed : h.Indexed) (except : OrderedExcept (Before cmp) h.data h.e c)
    (above : AboveFits (Before cmp) h.data c) :
    ∃ h' c', swapDownLoop cmp fuel h c = some (h', c') ∧ h.Rearranged h' ∧
      Ordered (Before cmp) h'.data h'.e := by
  induction fuel generalizing h c with
  | zero => exact ⟨h, c, rfl, .refl indexed, except.ordered above (by intro i _ _; omega)⟩
  | succ fuel ih =>
    unfold swapDownLoop
    simp only
    by_cases inner : c ≤ (h.e - 1) / 2
    swap
    · exact ⟨h, c, if_neg inner, .refl indexed, except.ordered above (by intro i _ _; omega)⟩
    obtain ⟨child, last⟩ := nextIndex_inside cmp h inner
    have least : ∀ i, i < h.e → i / 2 = c →
        cmp (h.data (nextIndex cmp h (h.e - 1) c)) (h.data i) = true := fun i inside isChild =>
      nextIndex_least (by omega) isChild
    generalize nextIndex cmp h (h.e - 1) c = n at child last least ⊢
    rw [if_pos inner, if_neg (by omega)]
    by_cases fits : cmp (h.data c) (h.data n) = true
    · refine ⟨h, c, if_pos fits, .refl indexed, except.ordered above fun i inside isChild => ?_⟩
      exact IsTrans.trans (r := Before cmp) _ _ _ fits (least i inside isChild)
    rw [if_neg fits]
    have exchanged : h.Rearranged (swapEntries h n c) :=
      swapEntries_rearranged indexed (by omega) (by omega) positive (by omega)
    have moved := except.move_down child (by omega) least
    have fitting : AboveFits (Before cmp) (h.data ∘ Equiv.swap n c) n :=
      above_fits_moved child fits
    rw [← swapEntries_data] at moved fitting
    obtain ⟨h', c', returned, rearranged, ordered⟩ :=
      ih (h := swapEntries h n c) (c := n) (by rw [exchanged.sameEnd]; omega)
        (by omega) exchanged.indexed moved fitting
    exact ⟨h', c', returned, exchanged.trans rearranged, ordered⟩

theorem heapify_spec (positive : 0 < c) (inside : c < h.e) (indexed : h.Indexed)
    (except : OrderedExcept (Before cmp) h.data h.e c) :
    ∃ h' c', heapify cmp h c = some (h', c') ∧ h.Rearranged h' ∧
      Ordered (Before cmp) h'.data h'.e := by
  obtain ⟨up, p, roseTo, positive', inside', rearranged, except', above⟩ :=
    swapUpLoop_spec (Nat.le_refl c) positive inside indexed except
  obtain ⟨down, q, sankTo, rearranged', ordered⟩ :=
    swapDownLoop_spec (Nat.le_add_left up.e p) positive' rearranged.indexed except' above
  refine ⟨down, q, ?_, rearranged.trans rearranged', ordered⟩
  have rose : swapUp cmp h c = some (up, p) := by
    rw [swapUp, if_pos ⟨by omega, positive⟩, roseTo]
    exact if_pos (by omega)
  have sank : swapDown cmp up p = some (down, q) := by
    rw [swapDown, if_pos ⟨by omega, by omega⟩, sankTo]
  rw [heapify, rose]
  exact sank

end Sifts

end Composite
