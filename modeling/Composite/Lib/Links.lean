import Mathlib.Data.List.Nodup

/-!
# Singly linked lists in memory

`next` gives the link of every cell.  A list of cells is linked from a first link if each link
leads to the next cell and the last one leads nowhere.
-/

namespace Links

open List

variable {Cell : Type*}

def Linked (next : Cell → Option Cell) : Option Cell → List Cell → Prop
  | first, [] => first = none
  | first, cell :: rest => first = some cell ∧ Linked next (next cell) rest

variable {next : Cell → Option Cell} {first : Option Cell} {cells : List Cell}

theorem Linked.head? (linked : Linked next first cells) : first = cells.head? := by
  cases cells with
  | nil => exact linked
  | cons cell rest => exact linked.1

/-- What follows a cell is linked from its link. -/
theorem Linked.after {before rest : List Cell} {cell : Cell}
    (linked : Linked next first (before ++ cell :: rest)) : Linked next (next cell) rest := by
  induction before generalizing first with
  | nil => exact linked.2
  | cons other before ih => exact ih linked.2

/-- Cells are linked by what their own links say. -/
theorem Linked.congr {next' : Cell → Option Cell} (same : ∀ cell ∈ cells, next' cell = next cell)
    (linked : Linked next first cells) : Linked next' first cells := by
  induction cells generalizing first with
  | nil => exact linked
  | cons cell rest ih =>
    refine ⟨linked.1, ?_⟩
    rw [same cell (mem_cons_self ..)]
    exact ih (fun other member => same other (mem_cons_of_mem _ member))
      linked.2

section Write

variable [DecidableEq Cell]

/-- The link of a cell that is not in the list may be written. -/
theorem Linked.update {cell : Cell} (outside : cell ∉ cells) (link : Option Cell)
    (linked : Linked next first cells) :
    Linked (Function.update next cell link) first cells := by
  refine linked.congr fun other member => Function.update_of_ne ?_ ..
  rintro rfl
  exact outside member

/-- A cell is taken out by writing its own link to the link of the cell before it. -/
theorem Linked.unlink {before rest : List Cell} {last cell : Cell}
    (nodup : (before ++ last :: cell :: rest).Nodup)
    (linked : Linked next first (before ++ last :: cell :: rest)) :
    Linked (Function.update next last (next cell)) first (before ++ last :: rest) := by
  induction before generalizing first with
  | nil =>
    refine ⟨linked.1, ?_⟩
    rw [Function.update_self]
    have apart : last ∉ rest := fun member =>
      (nodup_cons.mp nodup).1 (mem_cons_of_mem _ member)
    exact linked.2.2.update apart _
  | cons other before ih =>
    have apart := nodup_cons.mp nodup
    refine ⟨linked.1, ?_⟩
    have different : other ≠ last := by
      rintro rfl
      exact apart.1 (by simp)
    rw [Function.update_of_ne different]
    exact ih apart.2 linked.2

end Write

end Links
