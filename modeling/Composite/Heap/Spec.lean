import Composite.Heap.Heapify
import Mathlib.Data.Finset.Card

/-!
# What the operations of the heap do

An operation of a heap that is in order and has reported every place leaves such a heap; the
entries are the old ones with the added one or without the removed one.
-/

namespace Composite

open TreeOrder Function Option

universe u

variable {Item : Type u}

section Operations

variable [DecidableEq Item] {cmp : Item → Item → Bool}

structure Heap.Added (cmp : Item → Item → Bool) (h : Heap Item) (new : Item) (h' : Heap Item) :
    Prop where
  sound : h'.Sound cmp
  size : h'.e = h.e + 1
  sameMax : h'.maxSz = h.maxSz
  holds : ∀ entry, h'.Holds entry ↔ entry = new ∨ h.Holds entry
  others : ∀ entry, entry ≠ new → ¬h.Holds entry → h'.idx entry = h.idx entry

structure Heap.Removed (cmp : Item → Item → Bool) (h : Heap Item) (gone : Item) (h' : Heap Item) :
    Prop where
  sound : h'.Sound cmp
  size : h'.e + 1 = h.e
  sameMax : h'.maxSz = h.maxSz
  holds : ∀ entry, h'.Holds entry ↔ entry ≠ gone ∧ h.Holds entry
  cleared : h'.idx gone = 0
  others : ∀ entry, ¬h.Holds entry → h'.idx entry = h.idx entry

variable [IsTrans Item (Before cmp)] [Std.Total (Before cmp)] {h : Heap Item}

omit [DecidableEq Item] [IsTrans Item (Before cmp)] [Std.Total (Before cmp)] in
theorem heapInit_sound (data : Nat → Item) (idx : Item → Int) (maxSz : Nat) :
    (heapInit data idx maxSz).Sound cmp := by
  have empty : ∀ i, 0 < i → ¬i < (heapInit data idx maxSz).e := by
    intro i positive
    simp only [heapInit]
    omega
  refine ⟨Nat.le_refl 1, fun i positive inside => ?_, fun i notRoot inside => ?_⟩
  · exact absurd inside (empty i positive)
  · exact absurd inside (empty i (by omega))

omit [DecidableEq Item] in
theorem heapInit_not_holds (data : Nat → Item) (idx : Item → Int) (maxSz : Nat) (entry : Item) :
    ¬(heapInit data idx maxSz).Holds entry := by
  rintro ⟨i, positive, inside, _⟩
  simp only [heapInit] at inside
  omega

omit [IsTrans Item (Before cmp)] [Std.Total (Before cmp)] in
theorem Heap.Sound.extend (sound : h.Sound cmp) {new : Item} (absent : ¬h.Holds new)
    (stored : Heap Item) (longer : stored.e = h.e + 1)
    (data : stored.data = update h.data h.e new)
    (idx : stored.idx = update h.idx new h.e) :
    stored.Indexed ∧ OrderedExcept (Before cmp) stored.data stored.e h.e ∧
      ∀ entry, stored.Holds entry ↔ entry = new ∨ h.Holds entry := by
  have atEnd : stored.data h.e = new := by
    rw [data, update_self]
  have before : ∀ i, i ≠ h.e → stored.data i = h.data i := by
    intro i other
    rw [data, update_of_ne other]
  refine ⟨fun i positive inside => ?_, ⟨?_, ?_⟩, fun entry => ?_⟩
  · by_cases last : i = h.e
    · rw [last, atEnd, idx, update_self]
    · have apart : h.data i ≠ new := fun same => absent ⟨i, positive, by omega, same⟩
      rw [before i last, idx, update_of_ne apart]
      exact sound.indexed i positive (by omega)
  · intro i notRoot inside notEntry notChild
    rw [before i notEntry, before (i / 2) notChild]
    exact sound.ordered i notRoot (by omega)
  · intro notRoot i inside isChild
    omega
  · constructor
    · rintro ⟨i, positive, inside, rfl⟩
      by_cases last : i = h.e
      · rw [last, atEnd]
        exact .inl rfl
      · rw [before i last]
        exact .inr ⟨i, positive, by omega, rfl⟩
    · rintro (rfl | ⟨i, positive, inside, rfl⟩)
      · exact ⟨h.e, sound.nonempty, by omega, atEnd⟩
      · exact ⟨i, positive, by omega, before i (by omega)⟩

omit [DecidableEq Item] [IsTrans Item (Before cmp)] [Std.Total (Before cmp)] in
theorem Heap.Sound.congr (sound : h.Sound cmp) {cmp' : Item → Item → Bool}
    (same : ∀ a b, h.Holds a → h.Holds b → cmp' a b = cmp a b) : h.Sound cmp' := by
  refine ⟨sound.nonempty, sound.indexed, fun i notRoot inside => ?_⟩
  have parent : h.Holds (h.data (i / 2)) := ⟨i / 2, by omega, by omega, rfl⟩
  have child : h.Holds (h.data i) := ⟨i, by omega, inside, rfl⟩
  exact (same _ _ parent child).trans (sound.ordered i notRoot inside)

theorem heapAdd_spec (sound : h.Sound cmp) {new : Item} (absent : ¬h.Holds new)
    (room : h.e < h.maxSz) : ∃ h', heapAdd cmp h new = some (0, h') ∧ h.Added cmp new h' := by
  obtain ⟨indexed, except, held⟩ :=
    sound.extend absent { (h.store h.e new).u new h.e with e := h.e + 1 } rfl rfl rfl
  obtain ⟨h', c', returned, rearranged, ordered⟩ :=
    heapify_spec sound.nonempty (Nat.lt_succ_self h.e) indexed except
  have longer : h'.e = h.e + 1 := rearranged.sameEnd
  refine ⟨h', ?_, ⟨by omega, rearranged.indexed, ordered⟩, longer, rearranged.sameMax,
    fun entry => (rearranged.holds entry).trans (held entry), fun entry other absent' => ?_⟩
  · rw [heapAdd, if_neg (by omega)]
    exact bind_eq_some_iff.mpr ⟨_, returned, rfl⟩
  · rw [rearranged.others entry (mt (held entry).mp (not_or.mpr ⟨other, absent'⟩))]
    exact update_of_ne other ..

theorem heapAdjust_spec {c : Nat} (positive : 0 < c) (inside : c < h.e) (indexed : h.Indexed)
    (except : OrderedExcept (Before cmp) h.data h.e c) :
    ∃ h', heapAdjust cmp h c = some h' ∧ h'.Sound cmp ∧ h.Rearranged h' := by
  obtain ⟨h', c', returned, rearranged, ordered⟩ := heapify_spec positive inside indexed except
  refine ⟨h', ?_, ⟨?_, rearranged.indexed, ordered⟩, rearranged⟩
  · rw [heapAdjust, if_pos ⟨by omega, by omega⟩, Int.toNat_natCast, returned]
    rfl
  · rw [rearranged.sameEnd]
    omega

theorem heapAdjust_rekeyed {earlier : Item → Item → Bool} [IsTrans Item (Before earlier)]
    (sound : h.Sound earlier) {changed : Item} (held : h.Holds changed)
    (same : ∀ a b, a ≠ changed → b ≠ changed → cmp a b = earlier a b) :
    ∃ h', heapAdjust cmp h (h.idx changed) = some h' ∧ h'.Sound cmp ∧ h.Rearranged h' := by
  obtain ⟨c, positive, inside, rfl⟩ := held
  have apart : ∀ i, 0 < i ∧ i < h.e ∧ i ≠ c → h.data i ≠ h.data c := by
    intro i other equal
    exact other.2.2 (sound.indexed.place_unique other.1 other.2.1 positive inside equal)
  rw [sound.indexed c positive inside]
  refine heapAdjust_spec positive inside sound.indexed ?_
  refine sound.ordered.except inside (Nat.le_refl _) fun i j otherI otherJ inOrder => ?_
  exact (same _ _ (apart i otherI) (apart j otherJ)).trans inOrder

omit [Std.Total (Before cmp)] in
theorem Heap.Sound.refill (sound : h.Sound cmp) {c : Nat} (positive : 0 < c) (inside : c + 1 < h.e)
    (filled : Heap Item) (shorter : filled.e + 1 = h.e)
    (data : filled.data = update h.data c (h.data filled.e))
    (idx : ∀ entry, entry ≠ h.data c →
      filled.idx entry = update h.idx (h.data filled.e) c entry) :
    filled.Indexed ∧ OrderedExcept (Before cmp) filled.data filled.e c ∧
      ∀ entry, filled.Holds entry ↔ entry ≠ h.data c ∧ h.Holds entry := by
  have unique : ∀ {i j}, 0 < i → i < h.e → 0 < j → j < h.e → h.data i = h.data j → i = j :=
    sound.indexed.place_unique
  have there : filled.data c = h.data filled.e := by
    rw [data, update_self]
  have elsewhere : ∀ i, i ≠ c → filled.data i = h.data i := by
    intro i other
    rw [data, update_of_ne other]
  refine ⟨fun i positive' inside' => ?_, ?_, fun entry => ?_⟩
  · by_cases isHole : i = c
    · subst isHole
      have apart : h.data filled.e ≠ h.data i := fun same =>
        absurd (unique (by omega) (by omega) positive (by omega) same) (by omega)
      rw [there, idx _ apart, update_self]
    · have apart : h.data i ≠ h.data c := fun same =>
        isHole (unique positive' (by omega) positive (by omega) same)
      have apart' : h.data i ≠ h.data filled.e := fun same =>
        absurd (unique positive' (by omega) (by omega) (by omega) same) (by omega)
      rw [elsewhere i isHole, idx _ apart, update_of_ne apart']
      exact sound.indexed i positive' (by omega)
  · refine sound.ordered.except (by omega) (by omega) fun i j otherI otherJ inOrder => ?_
    rw [elsewhere i otherI.2.2, elsewhere j otherJ.2.2]
    exact inOrder
  · constructor
    · rintro ⟨i, positive', inside', rfl⟩
      by_cases isHole : i = c
      · rw [isHole, there]
        refine ⟨fun same => ?_, filled.e, by omega, by omega, rfl⟩
        exact absurd (unique (by omega) (by omega) positive (by omega) same) (by omega)
      · rw [elsewhere i isHole]
        refine ⟨fun same => isHole ?_, i, positive', by omega, rfl⟩
        exact unique positive' (by omega) positive (by omega) same
    · rintro ⟨other, i, positive', inside', rfl⟩
      have notHole : i ≠ c := fun same => other (by rw [same])
      by_cases last : i = filled.e
      · exact ⟨c, positive, by omega, by rw [there, last]⟩
      · exact ⟨i, positive', by omega, elsewhere i notHole⟩

omit [Std.Total (Before cmp)] [IsTrans Item (Before cmp)] [DecidableEq Item] in
theorem Heap.Sound.shorten (sound : h.Sound cmp) (notEmpty : 2 ≤ h.e) (shortened : Heap Item)
    (shorter : shortened.e + 1 = h.e) (data : shortened.data = h.data)
    (idx : ∀ entry, entry ≠ h.data shortened.e → shortened.idx entry = h.idx entry) :
    shortened.Sound cmp ∧
      ∀ entry, shortened.Holds entry ↔ entry ≠ h.data shortened.e ∧ h.Holds entry := by
  have apart : ∀ i, 0 < i → i < shortened.e → h.data i ≠ h.data shortened.e := by
    intro i positive inside same
    have := sound.indexed.place_unique positive (by omega) (by omega) (by omega) same
    omega
  refine ⟨⟨by omega, fun i positive inside => ?_, fun i notRoot inside => ?_⟩, fun entry => ?_⟩
  · rw [data, idx _ (apart i positive inside)]
    exact sound.indexed i positive (by omega)
  · rw [data]
    exact sound.ordered i notRoot (by omega)
  · constructor
    · rintro ⟨i, positive, inside, rfl⟩
      rw [data]
      exact ⟨apart i positive inside, i, positive, by omega, rfl⟩
    · rintro ⟨other, i, positive, inside, rfl⟩
      have notLast : i ≠ shortened.e := fun same => other (by rw [same])
      exact ⟨i, positive, by omega, by rw [data]⟩

theorem heapRemove_spec (sound : h.Sound cmp) {gone : Item} (held : h.Holds gone) :
    ∃ h', heapRemove cmp h (h.idx gone) = some (some gone, h') ∧ h.Removed cmp gone h' := by
  obtain ⟨c, positive, inside, rfl⟩ := held
  have notGone : ∀ entry, ¬h.Holds entry → entry ≠ h.data c := fun entry absent same =>
    absent ⟨c, positive, inside, same.symm⟩
  rw [sound.indexed c positive inside, heapRemove, if_pos ⟨by omega, by omega⟩, if_neg (by omega)]
  simp only [Int.toNat_natCast]
  by_cases last : c + 1 = h.e
  · obtain rfl : c = h.e - 1 := by omega
    obtain ⟨sound', holds⟩ := sound.shorten (by omega)
      ({ h with e := h.e - 1 }.u (h.data (h.e - 1)) 0) last rfl
      fun entry other => update_of_ne other ..
    refine ⟨_, if_pos rfl, sound', last, rfl, holds, update_self .., ?_⟩
    intro entry absent
    exact update_of_ne (notGone entry absent) ..
  · rw [if_neg (by simp only [Heap.u]; omega)]
    have apart : h.data c ≠ h.data (h.e - 1) := by
      intro same
      have := sound.indexed.place_unique positive inside (by omega) (by omega) same
      omega
    have known : ∀ entry, entry ≠ h.data c →
        update (update h.idx (h.data c) 0) (h.data (h.e - 1)) c entry =
          update h.idx (h.data (h.e - 1)) c entry := by
      intro entry other
      rw [update_comm apart, update_of_ne other]
    obtain ⟨indexed, except, holds⟩ := sound.refill positive (by omega)
      ((({ h with e := h.e - 1 }.u (h.data c) 0).store c (h.data (h.e - 1))).u (h.data (h.e - 1)) c)
      (by simp only [Heap.u, Heap.store]; omega) rfl known
    obtain ⟨h', adjusted, sound', rearranged⟩ :=
      heapAdjust_spec positive (by simp only [Heap.u, Heap.store]; omega) indexed except
    have gone := mt (holds (h.data c)).mp (fun still => still.1 rfl)
    refine ⟨h', ?_, sound', ?_, rearranged.sameMax,
      fun entry => (rearranged.holds entry).trans (holds entry), ?_, fun entry absent => ?_⟩
    · refine bind_eq_some_iff.mpr ⟨h', ?_, rfl⟩
      simp only [Heap.u, Heap.store, update_self] at adjusted ⊢
      exact adjusted
    · rw [rearranged.sameEnd]
      simp only [Heap.u, Heap.store]
      omega
    · rw [rearranged.others _ gone]
      exact (update_of_ne apart ..).trans (update_self ..)
    · have notLast : entry ≠ h.data (h.e - 1) := fun same =>
        absent ⟨h.e - 1, by omega, by omega, same.symm⟩
      rw [rearranged.others _ (mt (holds entry).mp fun still => absent still.2)]
      exact (update_of_ne notLast ..).trans
        (update_of_ne (notGone entry absent) ..)

omit [IsTrans Item (Before cmp)] [Std.Total (Before cmp)] in
theorem Heap.Indexed.u_absent (indexed : h.Indexed) {entry : Item} (absent : ¬h.Holds entry)
    (pos : Int) : (h.u entry pos).Indexed := by
  intro i positive inside
  have apart : h.data i ≠ entry := fun same => absent ⟨i, positive, inside, same⟩
  exact (update_of_ne apart ..).trans (indexed i positive inside)

theorem heapHighest_spec (sound : h.Sound cmp) (notEmpty : 2 ≤ h.e) :
    ∃ h', heapHighest cmp h = some (some (h.data 1), h') ∧ h.Removed cmp (h.data 1) h' := by
  have notFirst : ∀ entry, ¬h.Holds entry → entry ≠ h.data 1 := fun entry absent same =>
    absent ⟨1, by omega, by omega, same.symm⟩
  rw [heapHighest, if_neg (by omega)]
  simp only [Heap.store, Heap.u, update_self]
  by_cases lone : h.e = 2
  · obtain ⟨sound', holds⟩ := sound.shorten notEmpty
      ⟨update h.data 1 (h.data (h.e - 1)), h.e - 1, h.maxSz,
        update (update h.idx (h.data (h.e - 1)) 1) (h.data 1) 0⟩
      (by simp only; omega) (by simp only [lone]; exact update_eq_self ..)
      (by
        simp only [lone]
        intro entry other
        exact (update_of_ne other ..).trans (update_of_ne other ..))
    have stays (filled : Heap Item) (single : filled.e = 1) :
        swapDown cmp filled 1 = some (filled, 1) := by
      rw [swapDown, if_pos ⟨Nat.one_ne_zero, by omega⟩, single]
      exact if_neg (by omega)
    refine ⟨_, bind_eq_some_iff.mpr ⟨_, stays _ (by simp only; omega), rfl⟩, sound', ?_, rfl,
      ?_, update_self .., fun entry absent => ?_⟩
    · simp only
      omega
    · simp only [lone] at holds ⊢
      exact holds
    · simp only [lone]
      exact (update_of_ne (notFirst entry absent) ..).trans
        (update_of_ne (notFirst entry absent) ..)
  · obtain ⟨indexed, except, holds⟩ := sound.refill (Nat.zero_lt_one) (by omega)
      ⟨update h.data 1 (h.data (h.e - 1)), h.e - 1, h.maxSz,
        update h.idx (h.data (h.e - 1)) 1⟩ (by simp only; omega) rfl (fun _ _ => rfl)
    obtain ⟨h', c', sank, rearranged, ordered⟩ :=
      swapDownLoop_spec (Nat.le_add_left (h.e - 1) 1) Nat.zero_lt_one indexed except
        (fun deep => by omega)
    have shorter : h'.e = h.e - 1 := rearranged.sameEnd
    have holds' : ∀ entry, h'.Holds entry ↔ entry ≠ h.data 1 ∧ h.Holds entry := fun entry =>
      (rearranged.holds entry).trans (holds entry)
    have gone : ¬h'.Holds (h.data 1) := mt (holds' (h.data 1)).mp (fun still => still.1 rfl)
    refine ⟨h'.u (h.data 1) 0, bind_eq_some_iff.mpr ⟨(h', c'), ?_, rfl⟩,
      ⟨?_, rearranged.indexed.u_absent gone 0, ordered⟩, ?_, rearranged.sameMax, holds',
      update_self .., fun entry absent => ?_⟩
    · rw [swapDown, if_pos ⟨Nat.one_ne_zero, by simp only; omega⟩]
      exact sank
    · simp only [Heap.u]
      omega
    · simp only [Heap.u]
      omega
    · have notLast : entry ≠ h.data (h.e - 1) := fun same =>
        absent ⟨h.e - 1, by omega, by omega, same.symm⟩
      have out := mt (holds entry).mp fun still => absent still.2
      exact (update_of_ne (notFirst entry absent) ..).trans
        ((rearranged.others entry out).trans (update_of_ne notLast ..))

omit [DecidableEq Item] in
theorem Heap.Indexed.size_le (indexed : h.Indexed) {items : Finset Item}
    (among : ∀ entry, h.Holds entry → entry ∈ items) : heapSize h ≤ items.card := by
  have counted := Finset.card_le_card_of_injOn (s := Finset.range (heapSize h))
    (fun i => h.data (i + 1)) (t := items) ?_ ?_
  · rwa [Finset.card_range] at counted
  · intro i inside
    have inside := Finset.mem_range.mp (Finset.mem_coe.mp inside)
    unfold heapSize at inside
    exact Finset.mem_coe.mpr (among _ ⟨i + 1, by omega, by omega, rfl⟩)
  · intro i inside j inside' same
    have inside := Finset.mem_range.mp (Finset.mem_coe.mp inside)
    have inside' := Finset.mem_range.mp (Finset.mem_coe.mp inside')
    unfold heapSize at inside inside'
    have := indexed.place_unique (by omega) (by omega) (by omega) (by omega) same
    omega

omit [DecidableEq Item] [IsTrans Item (Before cmp)] [Std.Total (Before cmp)] in
theorem heapPeek_eq_none (sound : h.Sound cmp) : heapPeek h = none ↔ ∀ entry, ¬h.Holds entry := by
  have nonempty := sound.nonempty
  unfold heapPeek
  split_ifs with empty
  · refine ⟨fun _ entry => ?_, fun _ => rfl⟩
    rintro ⟨i, positive, inside, _⟩
    omega
  · refine ⟨nofun, fun unheld => ?_⟩
    exact absurd ⟨1, by omega, by omega, rfl⟩ (unheld (h.data 1))

omit [DecidableEq Item] in
theorem heapPeek_eq_some (sound : h.Sound cmp) {first : Item} (peeked : heapPeek h = some first) :
    h.Holds first ∧ ∀ entry, h.Holds entry → cmp first entry = true := by
  have nonempty := sound.nonempty
  unfold heapPeek at peeked
  split_ifs at peeked with empty
  obtain rfl := some.inj peeked
  have reflexive : Std.Refl (Before cmp) :=
    ⟨fun a => (Std.Total.total (r := Before cmp) a a).elim id id⟩
  refine ⟨⟨1, by omega, by omega, rfl⟩, ?_⟩
  rintro entry ⟨i, positive, inside, rfl⟩
  exact sound.ordered.root_before positive inside

end Operations

end Composite
