import Mathlib.Data.Nat.ModEq

/-!
# Windows over a circular array

The users of a circular array count the elements they have handled.  The
element with number `position` lies in the cell `position % size`, and at any
time the numbers in use lie in a window of `size` consecutive numbers, so that
no two of them share a cell.  `Covers` says what holds of the cells of a
segment of that window.  In a `Cycle` the cells go through three hands: they
are produced, consumed, and released to be produced again.
-/

namespace Window

open Function

universe u

variable {Cell : Type u} {size : Nat}

/-- Every position of the segment from `first` up to `last` finds a cell as `spec` wants it. -/
def Covers (size : Nat) (cells : Nat → Cell) (first last : Nat)
    (spec : Nat → Cell → Prop) : Prop :=
  ∀ position, first ≤ position → position < last → spec position (cells (position % size))

/-- Different positions of one window lie in different cells. -/
theorem cell_ne (low : Nat) {position other : Nat} (from_low : low ≤ position)
    (below : position < low + size) (other_from_low : low ≤ other)
    (other_below : other < low + size) (different : position ≠ other) :
    position % size ≠ other % size := by
  intro same
  have apart : ∀ {small large : Nat}, small < large → large < small + size →
      small % size ≠ large % size := by
    intro small large less within congruent
    have divides : size ∣ large - small :=
      Nat.dvd_of_mod_eq_zero (Nat.sub_mod_eq_zero_of_mod_eq congruent.symm)
    have positive : 0 < large - small := by omega
    have atLeast := Nat.le_of_dvd positive divides
    omega
  rcases Nat.lt_or_gt_of_ne different with less | greater
  · exact apart less (by omega) same
  · exact apart greater (by omega) same.symm

/-- Every cell is that of some position of the window. -/
theorem exists_position (low : Nat) {index : Nat} (inside : index < size) :
    ∃ position, low ≤ position ∧ position < low + size ∧ position % size = index := by
  have divided := Nat.div_add_mod low size
  have offset := Nat.mod_lt low (by omega : 0 < size)
  by_cases later : low % size ≤ index
  · refine ⟨size * (low / size) + index, by omega, by omega, ?_⟩
    rw [Nat.mul_add_mod, Nat.mod_eq_of_lt inside]
  · refine ⟨size * (low / size) + (index + size), by omega, by omega, ?_⟩
    rw [Nat.mul_add_mod, Nat.add_mod_right, Nat.mod_eq_of_lt inside]

variable {cells : Nat → Cell} {first last position : Nat} {spec : Nat → Cell → Prop}

theorem Covers.empty (cells : Nat → Cell) (first : Nat) (spec : Nat → Cell → Prop) :
    Covers size cells first first spec := by
  intro position from_first below
  omega

theorem Covers.at (covers : Covers size cells first last spec) (from_first : first ≤ position)
    (below : position < last) : spec position (cells (position % size)) :=
  covers position from_first below

theorem Covers.shrink {first' last' : Nat} (covers : Covers size cells first last spec)
    (later : first ≤ first') (earlier : last' ≤ last) : Covers size cells first' last' spec := by
  intro position from_first below
  exact covers position (by omega) (by omega)

theorem Covers.imp {weaker : Nat → Cell → Prop} (covers : Covers size cells first last spec)
    (implies : ∀ position cell, first ≤ position → position < last →
      spec position cell → weaker position cell) :
    Covers size cells first last weaker := by
  intro position from_first below
  exact implies position _ from_first below (covers position from_first below)

theorem Covers.congr {cells' : Nat → Cell} (covers : Covers size cells first last spec)
    (positive : 0 < size)
    (kept : ∀ index < size, ∀ position, spec position (cells index) →
      spec position (cells' index)) :
    Covers size cells' first last spec := by
  intro position from_first below
  exact kept _ (Nat.mod_lt _ positive) position (covers position from_first below)

/-- Writing the cell of a position outside the segment leaves the segment alone. -/
theorem Covers.write_outside (low : Nat) (covers : Covers size cells first last spec)
    (outside : low ≤ first ∧ last ≤ low + size ∧ low ≤ position ∧ position < low + size ∧
      (position < first ∨ last ≤ position)) (cell : Cell) :
    Covers size (update cells (position % size) cell) first last spec := by
  intro other from_first below_last
  have different : other % size ≠ position % size :=
    cell_ne low (by omega) (by omega) (by omega) (by omega) (by omega)
  rw [update_of_ne different]
  exact covers other from_first below_last

/-- Writing the cell of the position after the segment extends it at its end. -/
theorem Covers.push (covers : Covers size cells first last spec) {cell : Cell}
    (room : last < first + size) (meets : spec last cell) :
    Covers size (update cells (last % size) cell) first (last + 1) spec := by
  by_cases ordered : first ≤ last
  · intro other from_first below
    rcases Nat.lt_succ_iff_lt_or_eq.mp below with earlier | same
    · exact covers.write_outside first (by omega) cell other from_first earlier
    · rw [same, update_self]
      exact meets
  · intro other from_first below
    omega

/-- Writing a cell of the segment as it should be. -/
theorem Covers.rewrite (covers : Covers size cells first last spec) {cell : Cell}
    (room : last ≤ first + size) (from_first : first ≤ position) (below : position < last)
    (meets : spec position cell) :
    Covers size (update cells (position % size) cell) first last spec := by
  intro other other_from other_below
  by_cases same : other = position
  · rw [same, update_self]
    exact meets
  · rw [update_of_ne (cell_ne first (by omega) (by omega) (by omega) (by omega) same)]
    exact covers other other_from other_below

/-- A cell that is already as wanted extends the segment without a write. -/
theorem Covers.extend (covers : Covers size cells first last spec)
    (meets : spec last (cells (last % size))) : Covers size cells first (last + 1) spec := by
  intro other from_first below
  rcases Nat.lt_succ_iff_lt_or_eq.mp below with earlier | same
  · exact covers other from_first earlier
  · rw [same]
    exact meets

/-- The window from `released` on has the cells that were consumed, those that are ready to
be consumed, and those that are free. -/
structure Cycle (size : Nat) (cells : Nat → Cell) (released consumed produced : Nat)
    (done ready free : Nat → Cell → Prop) : Prop where
  consumed_from : released ≤ consumed
  produced_from : consumed ≤ produced
  room : produced ≤ released + size
  done : Covers size cells released consumed done
  ready : Covers size cells consumed produced ready
  free : Covers size cells produced (released + size) free

namespace Cycle

variable {released consumed produced : Nat} {done ready free : Nat → Cell → Prop} {cell : Cell}
  (cycle : Cycle size cells released consumed produced done ready free)

include cycle

/-- The cell of any position of the window. -/
theorem cases {position : Nat} (from_released : released ≤ position)
    (below : position < released + size) :
    position < consumed ∧ done position (cells (position % size)) ∨
      consumed ≤ position ∧ position < produced ∧ ready position (cells (position % size)) ∨
      produced ≤ position ∧ free position (cells (position % size)) := by
  rcases Nat.lt_or_ge position consumed with early | late
  · exact .inl ⟨early, cycle.done position from_released early⟩
  · rcases Nat.lt_or_ge position produced with middle | last
    · exact .inr (.inl ⟨late, middle, cycle.ready position late middle⟩)
    · exact .inr (.inr ⟨last, cycle.free position last below⟩)

theorem imp {done' ready' free' : Nat → Cell → Prop}
    (onDone : ∀ position cell, released ≤ position → position < consumed →
      done position cell → done' position cell)
    (onReady : ∀ position cell, consumed ≤ position → position < produced →
      ready position cell → ready' position cell)
    (onFree : ∀ position cell, free position cell → free' position cell) :
    Cycle size cells released consumed produced done' ready' free' := by
  refine ⟨cycle.consumed_from, cycle.produced_from, cycle.room, ?_, ?_, ?_⟩
  · exact cycle.done.imp onDone
  · exact cycle.ready.imp onReady
  · exact cycle.free.imp fun position cell _ _ => onFree position cell

theorem congr {cells' : Nat → Cell} (positive : 0 < size)
    (onDone : ∀ index < size, ∀ position, done position (cells index) →
      done position (cells' index))
    (onReady : ∀ index < size, ∀ position,
      ready position (cells index) → ready position (cells' index))
    (onFree : ∀ index < size, ∀ position,
      free position (cells index) → free position (cells' index)) :
    Cycle size cells' released consumed produced done ready free :=
  ⟨cycle.consumed_from, cycle.produced_from, cycle.room, cycle.done.congr positive onDone,
    cycle.ready.congr positive onReady, cycle.free.congr positive onFree⟩

/-- Nothing is ready if no cell looks as if it were. -/
theorem none_ready_iff (positive : 0 < size) (looks : Cell → Prop)
    (of_done : ∀ position cell, done position cell → ¬looks cell)
    (of_ready : ∀ position cell, ready position cell → looks cell)
    (of_free : ∀ position cell, free position cell → ¬looks cell) :
    (∀ index < size, ¬looks (cells index)) ↔ consumed = produced := by
  constructor
  · intro nothing
    by_contra different
    have some_ready : consumed < produced := Nat.lt_of_le_of_ne cycle.produced_from different
    exact nothing _ (Nat.mod_lt _ positive)
      (of_ready _ _ (cycle.ready consumed le_rfl some_ready))
  · rintro rfl index inside
    obtain ⟨position, from_released, below, rfl⟩ := exists_position released inside
    rcases cycle.cases from_released below with ⟨_, isDone⟩ | ⟨late, early, _⟩ | ⟨_, isFree⟩
    · exact of_done _ _ isDone
    · omega
    · exact of_free _ _ isFree

/-! A party that only sees the cell at its own position knows what the position may do: the
window ends where it began, so a cell beyond it is the cell of the first position. -/

theorem room_of_cell (positive : 0 < size) (not_done : ¬done released (cells (produced % size)))
    (not_ready : ¬ready released (cells (produced % size))) : produced < released + size := by
  by_contra full
  obtain rfl : produced = released + size := Nat.le_antisymm cycle.room (by omega)
  rw [Nat.add_mod_right] at not_done not_ready
  rcases cycle.cases (Nat.le_refl released) (by omega) with
    ⟨_, isDone⟩ | ⟨_, _, isReady⟩ | ⟨beyond, _⟩
  · exact not_done isDone
  · exact not_ready isReady
  · omega

theorem ready_of_cell (positive : 0 < size) (not_done : ¬done released (cells (consumed % size)))
    (not_free : ¬free consumed (cells (consumed % size))) : consumed < produced := by
  by_contra none_ready
  have last : produced = consumed := Nat.le_antisymm (by omega) cycle.produced_from
  have room := cycle.room
  rcases Nat.lt_or_ge consumed (released + size) with inside | full
  · exact not_free (cycle.free consumed (by omega) inside)
  · obtain rfl : consumed = released + size := by omega
    rw [Nat.add_mod_right] at not_done
    exact not_done (cycle.done released le_rfl (by omega))

theorem done_of_cell (positive : 0 < size) (not_ready : ¬ready released (cells (released % size)))
    (not_free : ¬free released (cells (released % size))) : released < consumed := by
  rcases cycle.cases (Nat.le_refl released) (by omega) with
    ⟨before, _⟩ | ⟨_, _, isReady⟩ | ⟨_, isFree⟩
  · exact before
  · exact absurd isReady not_ready
  · exact absurd isFree not_free

theorem produce (space : produced < released + size) (meets : ready produced cell) :
    Cycle size (update cells (produced % size) cell) released consumed (produced + 1)
      done ready free := by
  have first := cycle.consumed_from
  have second := cycle.produced_from
  refine ⟨first, by omega, space, ?_, ?_, ?_⟩
  · exact cycle.done.write_outside released (by omega) cell
  · exact cycle.ready.push (by omega) meets
  · exact (cycle.free.shrink (Nat.le_succ _) le_rfl).write_outside released (by omega) cell

theorem consume (some_ready : consumed < produced) (meets : done consumed cell) :
    Cycle size (update cells (consumed % size) cell) released (consumed + 1) produced
      done ready free := by
  have first := cycle.consumed_from
  have room := cycle.room
  refine ⟨by omega, some_ready, room, ?_, ?_, ?_⟩
  · exact cycle.done.push (by omega) meets
  · exact (cycle.ready.shrink (Nat.le_succ _) le_rfl).write_outside released (by omega) cell
  · exact cycle.free.write_outside released (by omega) cell

/-- The cell that is released is the one at the far end of the new window. -/
theorem release (some_done : released < consumed) (meets : free (released + size) cell) :
    Cycle size (update cells (released % size) cell) (released + 1) consumed produced
      done ready free := by
  have second := cycle.produced_from
  have room := cycle.room
  refine ⟨some_done, second, by omega, ?_, ?_, ?_⟩
  · exact (cycle.done.shrink (Nat.le_succ _) le_rfl).write_outside released (by omega) cell
  · exact cycle.ready.write_outside released (by omega) cell
  · intro position from_produced below
    rcases Nat.lt_or_ge position (released + size) with earlier | last
    · exact cycle.free.write_outside released (by omega) cell position from_produced earlier
    · obtain rfl : position = released + size := by omega
      rw [Nat.add_mod_right, update_self]
      exact meets

/-- A cell among the consumed ones changes. -/
theorem touch_done {position : Nat} (from_released : released ≤ position)
    (below : position < consumed) (meets : done position cell) :
    Cycle size (update cells (position % size) cell) released consumed produced
      done ready free := by
  have second := cycle.produced_from
  have room := cycle.room
  refine ⟨cycle.consumed_from, second, room, ?_, ?_, ?_⟩
  · exact cycle.done.rewrite (by omega) from_released below meets
  · exact cycle.ready.write_outside released (by omega) cell
  · exact cycle.free.write_outside released (by omega) cell

/-- A cell among those that are ready changes. -/
theorem touch_ready {position : Nat} (from_consumed : consumed ≤ position)
    (below : position < produced) (meets : ready position cell) :
    Cycle size (update cells (position % size) cell) released consumed produced
      done ready free := by
  have first := cycle.consumed_from
  have room := cycle.room
  refine ⟨first, cycle.produced_from, room, ?_, ?_, ?_⟩
  · exact cycle.done.write_outside released (by omega) cell
  · exact cycle.ready.rewrite (by omega) from_consumed below meets
  · exact cycle.free.write_outside released (by omega) cell

end Cycle

end Window
