import Composite.Heap.Spec
import Composite.Lib.Transition

/-!
# Any use of a heap

Entries are added, removed from any place or from the top, and moved after their key has changed.
The record says which entries were added and not removed, and which were removed last.  It is kept
by the calls: an entry is added where there is room, and removed from the place that is named.
-/

namespace Composite

open Transition

universe u

structure HeapUse (Item : Type u) where
  cmp : Item → Item → Bool
  h : Heap Item
  added : Item → Prop
  removed : Item → Prop

inductive HeapCall (Item : Type u) where
  | add (new : Item)
  | removeAt (c : Nat)
  | highest
  /-- The keys change so that the entries compare as `cmp` says, and `heap_adjust` is called. -/
  | adjust (c : Nat) (cmp : Item → Item → Bool)

namespace HeapUse

variable {Item : Type u}

def drop (s : HeapUse Item) (r : Item) (h : Heap Item) : HeapUse Item :=
  ⟨s.cmp, h, fun x => x ≠ r ∧ s.added x, fun x => x = r ∨ s.removed x⟩

def keep (s : HeapUse Item) (new : Item) (h : Heap Item) : HeapUse Item :=
  ⟨s.cmp, h, fun x => x = new ∨ s.added x, fun x => x ≠ new ∧ s.removed x⟩

def next [DecidableEq Item] (s : HeapUse Item) : HeapCall Item → Option (HeapUse Item)
  | .add new => (heapAdd s.cmp s.h new).map fun (_, h) =>
    if s.h.e < s.h.maxSz then s.keep new h else { s with h }
  | .removeAt c => (heapRemove s.cmp s.h c).map fun (_, h) => s.drop (s.h.data c) h
  | .highest => (heapHighest s.cmp s.h).map fun
      | (none, h) => { s with h }
      | (some r, h) => s.drop r h
  | .adjust c cmp => (heapAdjust cmp s.h c).map fun h => { s with cmp, h }

structure TotalPreorder (cmp : Item → Item → Bool) : Prop where
  trans : IsTrans Item (Before cmp)
  total : Std.Total (Before cmp)

/-- An entry is added while it is not in the heap, a place is one of the heap, and the key of one
entry changes. -/
def Legal (s : HeapUse Item) : HeapCall Item → Prop
  | .add new => ¬s.added new
  | .removeAt c => 1 ≤ c ∧ c < s.h.e
  | .highest => True
  | .adjust c cmp => (1 ≤ c ∧ c < s.h.e) ∧ TotalPreorder cmp ∧
      ∀ a b, a ≠ s.h.data c → b ≠ s.h.data c → cmp a b = s.cmp a b

def initial (cmp : Item → Item → Bool) (data : Nat → Item) (idx : Item → Int) (maxSz : Nat) :
    HeapUse Item :=
  ⟨cmp, heapInit data idx maxSz, fun _ => False, fun _ => False⟩

structure Sound (maxSz : Nat) (s : HeapUse Item) : Prop where
  preorder : TotalPreorder s.cmp
  heap : s.h.Sound s.cmp
  capacity : s.h.maxSz = maxSz + 1
  room : s.h.e ≤ s.h.maxSz
  contents : ∀ x, s.added x ↔ s.h.Holds x
  cleared : ∀ x, s.removed x → ¬s.added x ∧ s.h.idx x = 0

variable {maxSz : Nat} {s : HeapUse Item}

theorem Sound.drop (sound : s.Sound maxSz) {r : Item} {h' : Heap Item}
    (removed : s.h.Removed s.cmp r h') : (s.drop r h').Sound maxSz where
  preorder := sound.preorder
  heap := removed.sound
  capacity := removed.sameMax.trans sound.capacity
  room := by
    have room := sound.room
    have size := removed.size
    have same := removed.sameMax
    simp only [HeapUse.drop]
    omega
  contents x := ((removed.holds x).trans (and_congr_right' (sound.contents x).symm)).symm
  cleared x gone := by
    refine ⟨fun kept => ?_, ?_⟩
    · rcases gone with same | earlier
      · exact kept.1 same
      · exact (sound.cleared x earlier).1 kept.2
    · rcases gone with rfl | earlier
      · exact removed.cleared
      · obtain ⟨absent, zero⟩ := sound.cleared x earlier
        exact (removed.others x (mt (sound.contents x).mpr absent)).trans zero

theorem Sound.add (sound : s.Sound maxSz) {new : Item} {h' : Heap Item}
    (added : s.h.Added s.cmp new h') (room : s.h.e < s.h.maxSz) :
    (s.keep new h').Sound maxSz where
  preorder := sound.preorder
  heap := added.sound
  capacity := added.sameMax.trans sound.capacity
  room := by
    have size := added.size
    have same := added.sameMax
    simp only [HeapUse.keep]
    omega
  contents x := ((added.holds x).trans (or_congr_right (sound.contents x).symm)).symm
  cleared x gone := by
    obtain ⟨other, earlier⟩ := gone
    obtain ⟨absent, zero⟩ := sound.cleared x earlier
    refine ⟨fun kept => absent (kept.resolve_left other), ?_⟩
    exact (added.others x other (mt (sound.contents x).mpr absent)).trans zero

variable [DecidableEq Item]

/-- A call within its rules fails no assertion. -/
theorem Sound.step (sound : s.Sound maxSz) {call : HeapCall Item} (legal : s.Legal call) :
    ∃ s', s.next call = some s' ∧ s'.Sound maxSz := by
  have := sound.preorder.trans
  have := sound.preorder.total
  cases call with
  | add new =>
    rcases Nat.lt_or_eq_of_le sound.room with room | full
    · obtain ⟨h', returned, added⟩ := heapAdd_spec sound.heap
        (mt (sound.contents new).mpr legal) room
      refine ⟨s.keep new h', ?_, sound.add added room⟩
      rw [next, returned]
      exact congrArg some (if_pos room)
    · refine ⟨s, ?_, sound⟩
      rw [next, heapAdd, if_pos full.symm]
      exact congrArg some (if_neg (by omega))
  | removeAt c =>
    obtain ⟨positive, inside⟩ := legal
    obtain ⟨h', returned, removed⟩ := heapRemove_spec sound.heap ⟨c, positive, inside, rfl⟩
    rw [sound.heap.indexed c positive inside] at returned
    exact ⟨_, congrArg (Option.map _) returned, sound.drop removed⟩
  | highest =>
    rcases Nat.lt_or_eq_of_le sound.heap.nonempty with filled | empty
    · obtain ⟨h', returned, removed⟩ := heapHighest_spec sound.heap filled
      exact ⟨_, congrArg (Option.map _) returned, sound.drop removed⟩
    · exact ⟨s, congrArg (Option.map _) (if_pos empty.symm), sound⟩
  | adjust c cmp =>
    obtain ⟨⟨positive, inside⟩, preorder, same⟩ := legal
    have := preorder.trans
    have := preorder.total
    obtain ⟨h', returned, heap, rearranged⟩ :=
      heapAdjust_rekeyed sound.heap ⟨c, positive, inside, rfl⟩ same
    rw [sound.heap.indexed c positive inside] at returned
    refine ⟨_, congrArg (Option.map _) returned, preorder, heap,
      rearranged.sameMax.trans sound.capacity, ?_, fun x => ?_, fun x gone => ?_⟩
    · exact rearranged.sameEnd.trans_le (sound.room.trans_eq rearranged.sameMax.symm)
    · exact (sound.contents x).trans (rearranged.holds x).symm
    · obtain ⟨absent, zero⟩ := sound.cleared x gone
      exact ⟨absent, (rearranged.others x (mt (sound.contents x).mpr absent)).trans zero⟩

/-- Over any use of a heap of any capacity no assertion fails, the heap is in order, every entry in
it was told its place and every removed one 0, and the entries are those added and not removed.  A
removal returns the entry of its place, an extraction one that comes before all others unless there
is none, and an insertion is accepted exactly if there is room. -/
theorem heap_used (cmp : Item → Item → Bool) (preorder : TotalPreorder cmp) (data : Nat → Item)
    (idx : Item → Int) (maxSz : Nat) {calls : List (HeapCall Item)} {s : HeapUse Item}
    (legal : Meets Legal next (initial cmp data idx maxSz) calls)
    (reached : exec next (initial cmp data idx maxSz) calls = some s) :
    (∀ call, s.Legal call → (s.next call).isSome) ∧
    (∀ i, 1 < i → i < s.h.e → s.cmp (s.h.data (i / 2)) (s.h.data i) = true) ∧
    (∀ i, 0 < i → i < s.h.e → s.h.idx (s.h.data i) = i) ∧
    (∀ x, s.removed x → s.h.idx x = 0) ∧
    (∀ x, s.added x ↔ ∃ i, 0 < i ∧ i < s.h.e ∧ s.h.data i = x) ∧
    (∀ c : Nat, 1 ≤ c → c < s.h.e →
      ∃ h', heapRemove s.cmp s.h c = some (some (s.h.data c), h')) ∧
    ((∀ x, ¬s.added x) ∧ heapHighest s.cmp s.h = some (none, s.h) ∨
      ∃ r h', heapHighest s.cmp s.h = some (some r, h') ∧ s.added r ∧
        ∀ x, s.added x → s.cmp r x = true) ∧
    (∀ new, heapSize s.h = maxSz → heapAdd s.cmp s.h new = some (-1, s.h)) ∧
    ∀ new, heapSize s.h < maxSz → ¬s.added new → ∃ h', heapAdd s.cmp s.h new = some (0, h') := by
  have sound : s.Sound maxSz := by
    refine exec_invariant (fun _ _ _ sound legal stepped => ?_) ?_ legal reached
    · obtain ⟨s', stepped', sound'⟩ := sound.step legal
      exact Option.some.inj (stepped'.symm.trans stepped) ▸ sound'
    · refine ⟨preorder, heapInit_sound .., rfl, Nat.le_add_left .., fun x => ?_, nofun⟩
      exact ⟨nofun, heapInit_not_holds _ _ _ x⟩
  have := sound.preorder.trans
  have := sound.preorder.total
  have capacity := sound.capacity
  have nonempty := sound.heap.nonempty
  refine ⟨fun call isLegal => ?_, sound.heap.ordered, sound.heap.indexed,
    fun x gone => (sound.cleared x gone).2, sound.contents, fun c positive inside => ?_, ?_,
    fun new full => if_pos ?_, fun new room absent => ?_⟩
  · obtain ⟨s', stepped, _⟩ := sound.step isLegal
    rw [stepped]
    rfl
  · obtain ⟨h', returned, _⟩ := heapRemove_spec sound.heap ⟨c, positive, inside, rfl⟩
    rw [sound.heap.indexed c positive inside] at returned
    exact ⟨h', returned⟩
  · rcases Nat.lt_or_eq_of_le nonempty with filled | empty
    · obtain ⟨h', returned, _⟩ := heapHighest_spec sound.heap filled
      obtain ⟨held, least⟩ := heapPeek_eq_some sound.heap (if_neg (by omega))
      exact .inr ⟨_, h', returned, (sound.contents _).mpr held,
        fun x isAdded => least x ((sound.contents x).mp isAdded)⟩
    · refine .inl ⟨fun x isAdded => ?_, if_pos empty.symm⟩
      obtain ⟨i, positive, inside, _⟩ := (sound.contents x).mp isAdded
      omega
  · unfold heapSize at full
    omega
  · unfold heapSize at room
    obtain ⟨h', returned, _⟩ :=
      heapAdd_spec sound.heap (mt (sound.contents new).mpr absent) (by omega)
    exact ⟨h', returned⟩

/-- A heap for two entries is filled, and an entry is taken from it. -/
theorem heap_used_filled :
    ∃ s : HeapUse Nat, heapSize s.h = 2 ∧ s.h.data 1 = 1 ∧
      exec next (initial (fun a b => decide (a ≤ b)) (fun _ => 0) (fun _ => 0) 2)
        [.add 3, .add 1] = some s ∧
      (∃ h', heapRemove s.cmp s.h (2 : Nat) = some (some (s.h.data 2), h')) ∧
      ∀ new, heapSize s.h = 2 → heapAdd s.cmp s.h new = some (-1, s.h) := by
  have preorder : TotalPreorder fun a b : Nat => decide (a ≤ b) := by
    refine ⟨⟨fun a b c first second => ?_⟩, ⟨fun a b => ?_⟩⟩
    · exact decide_eq_true ((of_decide_eq_true first).trans (of_decide_eq_true second))
    · exact (Nat.le_total a b).imp decide_eq_true decide_eq_true
  have reached : exec next (initial (fun a b => decide (a ≤ b)) (fun _ => 0) (fun _ => 0) 2)
      [.add 3, .add 1] = some _ := rfl
  have legal : Meets Legal next
      (initial (fun a b : Nat => decide (a ≤ b)) (fun _ => 0) (fun _ => 0) 2)
      [.add 3, .add 1] := by
    refine ⟨nofun, fun middle stepped => ⟨?_, fun _ _ => trivial⟩⟩
    cases stepped
    rintro (same | absent)
    · cases same
    · exact absent
  obtain ⟨-, -, -, -, -, removes, -, refuses, -⟩ := heap_used _ preorder _ _ 2 legal reached
  exact ⟨_, rfl, rfl, reached, removes 2 (by decide) (by decide), refuses⟩

end HeapUse

end Composite
