import Composite.Lib.Transition

/-!
# The slots from which new threads take their function

A slot holds the function and the data of a thread that is created.  Its index is one more than its
place, since 0 stands for the first thread.  The release tests the place behind the one it clears.
-/

namespace Composite.ThdInit

open Transition Function

def cosThdInitRegionSize : Nat := 2 ^ 8

/-- `struct __thd_init_data`, where 0 is `NULL`. -/
structure ThdInitData where
  fn : Nat
  data : Nat
  deriving DecidableEq, Repr

/-- `__thd_init_data`; what follows the array stands at the places from its size on. -/
abbrev Slots := Nat → ThdInitData

/-- The loop of `__init_data_alloc` from the place `i` on; nothing else takes the slot. -/
def allocLoop (slots : Slots) : Nat → Nat → Option Nat
  | 0, _ => none
  | left + 1, i => if (slots i).fn = 0 then some i else allocLoop slots left (i + 1)

/-- `cos_thd_init_alloc` with `__init_data_alloc`, whose second try sees the same slots. -/
def cosThdInitAlloc (slots : Slots) (fn data : Nat) : Int × Slots :=
  if fn = 0 then (-1, slots)
  else
    match allocLoop slots cosThdInitRegionSize 0 with
    | some i => (i + 1, Function.update slots i ⟨fn, data⟩)
    | none => (-1, slots)

/-- `__clear_thd_init_data`; a failed assertion is `none`. -/
def clearThdInitData (slots : Slots) (idx : Int) : Option Slots :=
  if idx > 0 ∧ idx ≤ cosThdInitRegionSize ∧ (slots idx.toNat).fn ≠ 0 then
    some (Function.update slots (idx.toNat - 1) ⟨0, 0⟩)
  else none

def cosThdInitFree (slots : Slots) (idx : Int) : Option Slots :=
  if idx > cosThdInitRegionSize ∨ idx ≤ 0 ∨ (slots idx.toNat).fn = 0 then some slots
  else clearThdInitData slots idx

/-- `cos_thd_entry_exec`: what the new thread calls, and the slots. -/
def cosThdEntryExec (slots : Slots) (idx : Nat) : ThdInitData × Slots :=
  (slots idx, Function.update slots idx ⟨0, 0⟩)

/-- A thread that starts is given its index by `cos_upcall_fn`, if the index is that of a slot. -/
inductive Event where
  | alloc (fn data : Nat)
  | free (idx : Int)
  | start (idx : Nat)
  deriving DecidableEq, Repr

/-- A call of `NULL` ends the run. -/
def next (slots : Slots) : Event → Option Slots
  | .alloc fn data => some (cosThdInitAlloc slots fn data).2
  | .free idx => cosThdInitFree slots idx
  | .start idx =>
    if idx ≥ cosThdInitRegionSize then some slots
    else if (cosThdEntryExec slots idx).1.fn = 0 then none
    else some (cosThdEntryExec slots idx).2

/-- No slot is in use; `behind` is what follows the array. -/
def initial (behind : Slots) : Slots := fun i =>
  if i < cosThdInitRegionSize then ⟨0, 0⟩ else behind i

def InUse (slots : Slots) (idx : Int) : Prop :=
  1 ≤ idx ∧ idx ≤ cosThdInitRegionSize ∧ (slots (idx.toNat - 1)).fn ≠ 0

instance (slots : Slots) (idx : Int) : Decidable (InUse slots idx) :=
  inferInstanceAs (Decidable (_ ∧ _ ∧ _))

def Tidy (slots : Slots) : Prop := ∀ i < cosThdInitRegionSize, (slots i).fn = 0 → slots i = ⟨0, 0⟩

variable {slots slots' : Slots}

theorem Tidy.update (tidy : Tidy slots) (i : Nat) {slot : ThdInitData}
    (empty : slot.fn = 0 → slot = ⟨0, 0⟩) : Tidy (update slots i slot) := by
  intro j inside free
  by_cases same : j = i
  · rw [same, update_self] at free ⊢
    exact empty free
  · rw [update_of_ne same] at free ⊢
    exact tidy j inside free

theorem allocLoop_spec (slots : Slots) (left i : Nat) :
    match allocLoop slots left i with
    | some j => i ≤ j ∧ j < i + left ∧ (slots j).fn = 0
    | none => ∀ j, i ≤ j → j < i + left → (slots j).fn ≠ 0 := by
  induction left generalizing i with
  | zero => exact fun j behind before => by omega
  | succ left ih =>
    have later := ih (i + 1)
    rw [allocLoop]
    split_ifs with free
    · exact ⟨Nat.le_refl i, by omega, free⟩
    · split at later
      · exact ⟨by omega, by omega, later.2.2⟩
      · intro j behind before
        rcases Nat.lt_or_eq_of_le behind with after | rfl
        · exact later j after (by omega)
        · exact free

theorem cosThdInitFree_other (tidy : Tidy slots) {idx : Int} (other : ¬InUse slots idx) :
    cosThdInitFree slots idx = some slots := by
  unfold cosThdInitFree clearThdInitData
  split_ifs with skipped passed
  · rfl
  · have free : (slots (idx.toNat - 1)).fn = 0 := by
      refine Classical.byContradiction fun used => other ⟨by omega, passed.2.1, used⟩
    rw [← tidy _ (by omega) free, update_eq_self]
  · omega

theorem Tidy.next (tidy : Tidy slots) {event : Event} (stepped : next slots event = some slots') :
    Tidy slots' := by
  cases event with
  | alloc fn data =>
    cases stepped
    unfold cosThdInitAlloc
    split_ifs with null
    · exact tidy
    · split
      · exact tidy.update _ fun isNull => absurd isNull null
      · exact tidy
  | free idx =>
    simp only [ThdInit.next, cosThdInitFree, clearThdInitData] at stepped
    split_ifs at stepped
    · exact Option.some.inj stepped ▸ tidy
    · exact Option.some.inj stepped ▸ tidy.update _ fun _ => rfl
  | start idx =>
    simp only [ThdInit.next] at stepped
    split_ifs at stepped
    · exact Option.some.inj stepped ▸ tidy
    · exact Option.some.inj stepped ▸ tidy.update _ fun _ => rfl

/-- After any sequence of allocations, releases and starts of threads: an allocation takes a free
slot, and fails only if all are in use; a release of another index than one in use changes nothing;
and the release of an index in use frees its slot and no other, if the place behind it is in use
too. -/
theorem slots_taken_and_released (behind : Slots) {events : List Event} {slots : Slots}
    (reached : exec next (initial behind) events = some slots) :
    (∀ fn data, fn ≠ 0 →
      (∃ idx : Int, 1 ≤ idx ∧ idx ≤ cosThdInitRegionSize ∧ ¬InUse slots idx ∧
        cosThdInitAlloc slots fn data =
          (idx, Function.update slots (idx.toNat - 1) ⟨fn, data⟩)) ∨
      cosThdInitAlloc slots fn data = (-1, slots) ∧
        ∀ idx : Int, 1 ≤ idx → idx ≤ cosThdInitRegionSize → InUse slots idx) ∧
    (∀ idx, InUse slots idx → (slots idx.toNat).fn ≠ 0 →
      cosThdInitFree slots idx = some (Function.update slots (idx.toNat - 1) ⟨0, 0⟩)) ∧
    ∀ idx, ¬InUse slots idx → cosThdInitFree slots idx = some slots := by
  have meets : Meets (fun _ _ => True) next (initial behind) events :=
    Meets.of_forall (fun _ _ => trivial) _ _
  have tidy : Tidy slots :=
    exec_invariant (fun _ _ _ tidy _ => tidy.next) (fun i inside _ => if_pos inside) meets reached
  refine ⟨fun fn data notNull => ?_, fun idx used isBehind => ?_, fun _ =>
    cosThdInitFree_other tidy⟩
  · have searched := allocLoop_spec slots cosThdInitRegionSize 0
    rw [cosThdInitAlloc, if_neg notNull]
    cases found : allocLoop slots cosThdInitRegionSize 0 with
    | some i =>
      rw [found] at searched
      have place : ((i : Int) + 1).toNat - 1 = i := by omega
      refine .inl ⟨i + 1, by omega, by omega, fun used => used.2.2 ?_, by rw [place]⟩
      rw [place]
      exact searched.2.2
    | none =>
      rw [found] at searched
      refine .inr ⟨rfl, fun idx positive inside => ⟨positive, inside, ?_⟩⟩
      exact searched _ (by omega) (by omega)
  · obtain ⟨positive, inside, -⟩ := used
    rw [cosThdInitFree, if_neg (by omega), clearThdInitData, if_pos ⟨by omega, inside, isBehind⟩]

/-- Two slots are taken, and the first is released. -/
theorem slots_taken_and_released_two :
    ∃ slots, exec next (initial fun _ => ⟨0, 0⟩) [.alloc 7 1, .alloc 8 2] = some slots ∧
      InUse slots 1 ∧ (slots 1).fn ≠ 0 ∧
      cosThdInitFree slots 1 = some (Function.update slots 0 ⟨0, 0⟩) := by
  have reached : exec next (initial fun _ => ⟨0, 0⟩) [.alloc 7 1, .alloc 8 2] = some _ := rfl
  refine ⟨_, reached, by decide +kernel, by decide +kernel, ?_⟩
  exact (slots_taken_and_released _ reached).2.1 1 (by decide +kernel) (by decide +kernel)

/-- The only slot in use is released, and stays in use. -/
theorem slot_not_released :
    ∃ slots, exec next (initial fun _ => ⟨0, 0⟩) [.alloc 7 1] = some slots ∧ InUse slots 1 ∧
      cosThdInitFree slots 1 = some slots := by
  refine ⟨_, rfl, by decide +kernel, ?_⟩
  exact if_pos (by decide +kernel)

end Composite.ThdInit
