import Mathlib.Data.Finset.Sort

/-!
# Merging lists that are sorted by a key

Two lists, each strictly increasing in the key of its entries, are merged in one
pass; entries with the same key are combined into one.
-/

namespace SortedMerge

open List

variable {Entry Key : Type*} [LinearOrder Key] {entries xs ys : List Entry}

def Sorted (key : Entry → Key) (entries : List Entry) : Prop :=
  entries.Pairwise fun entry later => key entry < key later

def keys (key : Entry → Key) (entries : List Entry) : Finset Key := (entries.map key).toFinset

theorem mem_keys {key : Entry → Key} {k : Key} :
    k ∈ keys key entries ↔ ∃ entry ∈ entries, key entry = k := by
  simp [keys]

theorem Sorted.card_keys {key : Entry → Key} (sorted : Sorted key entries) :
    (keys key entries).card = entries.length := by
  have distinct : (entries.map key).Nodup :=
    pairwise_map.mpr (sorted.imp fun smaller => smaller.ne)
  rw [keys, toFinset_card_of_nodup distinct, length_map]

/-- A key has one entry. -/
theorem Sorted.eq_of_key {key : Entry → Key} (sorted : Sorted key entries) {entry other : Entry}
    (member : entry ∈ entries) (otherMember : other ∈ entries) (same : key entry = key other) :
    entry = other := by
  induction entries with
  | nil => cases member
  | cons first rest ih =>
    have ⟨before, sortedRest⟩ := pairwise_cons.mp sorted
    rcases mem_cons.mp member with rfl | later
    · rcases mem_cons.mp otherMember with rfl | otherLater
      · rfl
      · exact absurd same (before other otherLater).ne
    · rcases mem_cons.mp otherMember with rfl | otherLater
      · exact absurd same (before entry later).ne'
      · exact ih sortedRest later otherLater

/-- The merged list; `combine` makes one entry of two with the same key. -/
def merge (key : Entry → Key) (combine : Entry → Entry → Entry) :
    List Entry → List Entry → List Entry
  | [], second => second
  | first, [] => first
  | x :: xs, y :: ys =>
    if key x < key y then x :: merge key combine xs (y :: ys)
    else if key y < key x then y :: merge key combine (x :: xs) ys
    else combine x y :: merge key combine xs ys
termination_by first second => first.length + second.length

variable {key : Entry → Key} {combine : Entry → Entry → Entry} {first second : List Entry}

@[simp]
theorem merge_nil_left : merge key combine [] second = second := by
  unfold merge
  rfl

@[simp]
theorem merge_nil_right : merge key combine first [] = first := by
  cases first <;> simp [merge]

theorem merge_left {x y : Entry} (smaller : key x < key y) :
    merge key combine (x :: xs) (y :: ys) = x :: merge key combine xs (y :: ys) := by
  rw [merge, if_pos smaller]

theorem merge_right {x y : Entry} (smaller : key y < key x) :
    merge key combine (x :: xs) (y :: ys) = y :: merge key combine (x :: xs) ys := by
  rw [merge, if_neg smaller.not_gt, if_pos smaller]

theorem merge_both {x y : Entry} (equal : key x = key y) :
    merge key combine (x :: xs) (y :: ys) = combine x y :: merge key combine xs ys := by
  rw [merge, if_neg equal.not_lt, if_neg equal.not_gt]

inductive Origin (key : Entry → Key) (combine : Entry → Entry → Entry)
    (first second : List Entry) : Entry → Prop where
  | first {x : Entry} : x ∈ first → (∀ y ∈ second, key y ≠ key x) →
      Origin key combine first second x
  | second {y : Entry} : y ∈ second → (∀ x ∈ first, key x ≠ key y) →
      Origin key combine first second y
  | both {x y : Entry} : x ∈ first → y ∈ second → key x = key y →
      Origin key combine first second (combine x y)

theorem Sorted.above {bound : Key} {y : Entry} (sorted : Sorted key (y :: ys))
    (smaller : bound < key y) : ∀ later ∈ y :: ys, bound < key later :=
  forall_mem_cons.mpr
    ⟨smaller, fun later inRest => smaller.trans ((pairwise_cons.mp sorted).1 later inRest)⟩

/-- An entry that comes before a sorted list has a key of its own. -/
theorem Sorted.key_ne {x y : Entry} (sorted : Sorted key (y :: ys)) (smaller : key x < key y) :
    ∀ later ∈ y :: ys, key later ≠ key x :=
  fun later member => (sorted.above smaller later member).ne'

/-- The entries of the merged list are those of the two lists. -/
theorem mem_merge (sortedFirst : Sorted key first) (sortedSecond : Sorted key second)
    {entry : Entry} (member : entry ∈ merge key combine first second) :
    Origin key combine first second entry := by
  fun_induction merge key combine first second with
  | case1 second => exact .second member (by simp)
  | case2 first => exact .first member (by simp)
  | case3 x xs y ys smaller ih =>
    have ⟨before, sortedRest⟩ := pairwise_cons.mp sortedFirst
    rcases mem_cons.mp member with rfl | merged
    · exact .first mem_cons_self (sortedSecond.key_ne smaller)
    · cases ih sortedRest sortedSecond merged with
      | first found alone => exact .first (mem_cons_of_mem x found) alone
      | second found alone =>
        refine .second found (forall_mem_cons.mpr ⟨?_, alone⟩)
        exact (sortedSecond.key_ne smaller _ found).symm
      | both found found' equal => exact .both (mem_cons_of_mem x found) found' equal
  | case4 x xs y ys larger smaller ih =>
    have ⟨before, sortedRest⟩ := pairwise_cons.mp sortedSecond
    rcases mem_cons.mp member with rfl | merged
    · exact .second mem_cons_self (sortedFirst.key_ne smaller)
    · cases ih sortedFirst sortedRest merged with
      | first found alone =>
        refine .first found (forall_mem_cons.mpr ⟨?_, alone⟩)
        exact (sortedFirst.key_ne smaller _ found).symm
      | second found alone => exact .second (mem_cons_of_mem y found) alone
      | both found found' equal => exact .both found (mem_cons_of_mem y found') equal
  | case5 x xs y ys notSmaller notLarger ih =>
    have equal : key x = key y := le_antisymm (not_lt.mp notLarger) (not_lt.mp notSmaller)
    have ⟨beforeFirst, restFirst⟩ := pairwise_cons.mp sortedFirst
    have ⟨beforeSecond, restSecond⟩ := pairwise_cons.mp sortedSecond
    rcases mem_cons.mp member with rfl | merged
    · exact .both mem_cons_self mem_cons_self equal
    · cases ih restFirst restSecond merged with
      | first found alone =>
        refine .first (mem_cons_of_mem x found) (forall_mem_cons.mpr ⟨?_, alone⟩)
        exact (equal ▸ beforeFirst _ found).ne
      | second found alone =>
        refine .second (mem_cons_of_mem y found) (forall_mem_cons.mpr ⟨?_, alone⟩)
        exact (equal ▸ beforeSecond _ found).ne
      | both found found' same =>
        exact .both (mem_cons_of_mem x found) (mem_cons_of_mem y found') same

section Combined

variable (combined : ∀ x y, key x = key y → key (combine x y) = key y)
include combined

/-- The keys of the merged list are those of both lists. -/
theorem keys_merge : keys key (merge key combine first second) =
    keys key first ∪ keys key second := by
  fun_induction merge key combine first second with
  | case1 second => simp [keys]
  | case2 first => simp [keys]
  | case3 x xs y ys smaller ih =>
    simp only [keys, map_cons, toFinset_cons] at ih ⊢
    rw [ih, Finset.insert_union]
  | case4 x xs y ys larger smaller ih =>
    simp only [keys, map_cons, toFinset_cons] at ih ⊢
    rw [ih, Finset.union_insert]
  | case5 x xs y ys notSmaller notLarger ih =>
    have equal : key x = key y := le_antisymm (not_lt.mp notLarger) (not_lt.mp notSmaller)
    simp only [keys, map_cons, toFinset_cons] at ih ⊢
    rw [ih, combined x y equal, equal, Finset.insert_union, Finset.union_insert,
      Finset.insert_idem]

/-- What bounds both lists from below bounds the merged list. -/
theorem merge_above {bound : Key} (firstAbove : ∀ x ∈ first, bound < key x)
    (secondAbove : ∀ y ∈ second, bound < key y) :
    ∀ entry ∈ merge key combine first second, bound < key entry := by
  intro entry member
  have merged : key entry ∈ keys key (merge key combine first second) :=
    mem_keys.mpr ⟨entry, member, rfl⟩
  rw [keys_merge combined, Finset.mem_union, mem_keys, mem_keys] at merged
  rcases merged with ⟨x, found, same⟩ | ⟨y, found, same⟩
  · exact same ▸ firstAbove x found
  · exact same ▸ secondAbove y found

theorem sorted_merge (sortedFirst : Sorted key first) (sortedSecond : Sorted key second) :
    Sorted key (merge key combine first second) := by
  fun_induction merge key combine first second with
  | case1 second => exact sortedSecond
  | case2 first => exact sortedFirst
  | case3 x xs y ys smaller ih =>
    have ⟨before, sortedRest⟩ := pairwise_cons.mp sortedFirst
    refine pairwise_cons.mpr ⟨?_, ih sortedRest sortedSecond⟩
    exact merge_above combined before (sortedSecond.above smaller)
  | case4 x xs y ys larger smaller ih =>
    have ⟨before, sortedRest⟩ := pairwise_cons.mp sortedSecond
    refine pairwise_cons.mpr ⟨?_, ih sortedFirst sortedRest⟩
    exact merge_above combined (sortedFirst.above smaller) before
  | case5 x xs y ys notSmaller notLarger ih =>
    have equal : key x = key y := le_antisymm (not_lt.mp notLarger) (not_lt.mp notSmaller)
    have ⟨beforeFirst, restFirst⟩ := pairwise_cons.mp sortedFirst
    have ⟨beforeSecond, restSecond⟩ := pairwise_cons.mp sortedSecond
    refine pairwise_cons.mpr ⟨?_, ih restFirst restSecond⟩
    rw [combined x y equal]
    exact merge_above combined (equal ▸ beforeFirst) beforeSecond

theorem length_merge (sortedFirst : Sorted key first) (sortedSecond : Sorted key second) :
    (merge key combine first second).length = (keys key first ∪ keys key second).card := by
  rw [← keys_merge combined, (sorted_merge combined sortedFirst sortedSecond).card_keys]

end Combined

/-- The keys of a sorted list, in order, are the sorted set of its keys. -/
theorem Sorted.sort_keys (sorted : Sorted key entries) :
    entries.map key = (keys key entries).sort (· ≤ ·) := by
  have strictly : (entries.map key).Pairwise (· < ·) := pairwise_map.mpr sorted
  exact ((toFinset_sort (· ≤ ·) (strictly.imp fun smaller => smaller.ne)).mpr
    (strictly.imp fun smaller => smaller.le)).symm

end SortedMerge
