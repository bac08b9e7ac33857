import Mathlib.Algebra.Order.Ring.Nat
import Mathlib.Data.List.Pairwise

/-!
# Lines that are cut into pieces of one size

Numbers are handed out in lines of equal width.  Every key has a piece size of its
own and at most one line open, from which it takes one piece after the other; when
the line is used up it opens a new one, at or after the frontier of all lines.
-/

namespace LineAlloc

open Function List

variable {Key : Type*}

/-- The frontier of the lines, the next piece of every key, and the pieces handed out.
A key whose position is the start of a line has none open. -/
structure State (Key : Type*) where
  frontier : Nat
  pos : Key → Nat
  given : List (Key × Nat)

inductive Takes [DecidableEq Key] (width : Nat) (size : Key → Nat) (s : State Key) (key : Key) :
    Nat → State Key → Prop where
  | next : s.pos key % width ≠ 0 →
      Takes width size s key (s.pos key)
        ⟨s.frontier, Function.update s.pos key (s.pos key + size key),
          (key, s.pos key) :: s.given⟩
  | line (start : Nat) : start % width = 0 → s.frontier ≤ start →
      Takes width size s key start
        ⟨start + width, Function.update s.pos key (start + size key), (key, start) :: s.given⟩

/-- The pieces do not overlap, every line below the frontier is of one key, and an open
line is free from the position of its key on. -/
structure Sound (width : Nat) (size : Key → Nat) (s : State Key) : Prop where
  frontier : s.frontier % width = 0
  aligned : ∀ key, s.pos key % size key = 0
  whole : ∀ piece ∈ s.given, piece.2 % size piece.1 = 0
  below : ∀ piece ∈ s.given, piece.2 < s.frontier
  openBelow : ∀ key, s.pos key % width ≠ 0 → s.pos key < s.frontier
  openFree : ∀ key, s.pos key % width ≠ 0 → ∀ piece ∈ s.given,
    piece.2 / width = s.pos key / width → piece.1 = key ∧ piece.2 + size key ≤ s.pos key
  apart : ∀ key other, s.pos key % width ≠ 0 → s.pos other % width ≠ 0 →
    s.pos key / width = s.pos other / width → key = other
  disjoint : s.given.Pairwise fun piece earlier =>
    piece.2 + size piece.1 ≤ earlier.2 ∨ earlier.2 + size earlier.1 ≤ piece.2
  oneKey : ∀ piece ∈ s.given, ∀ other ∈ s.given, piece.2 / width = other.2 / width →
    piece.1 = other.1

section Arithmetic

variable {width size place frontier : Nat}

/-- A piece does not cross the end of its line. -/
theorem piece_fits (divides : size ∣ width) (positive : 0 < width) (aligned : place % size = 0) :
    place % width + size ≤ width := by
  obtain ⟨pieces, rfl⟩ := divides
  have inside := Nat.mod_lt place positive
  have offset : place % (size * pieces) % size = 0 := by
    rw [Nat.mod_mul_right_mod, aligned]
  obtain ⟨index, equal⟩ := Nat.dvd_of_mod_eq_zero offset
  rw [equal] at inside ⊢
  have smaller := Nat.lt_of_mul_lt_mul_left inside
  calc size * index + size = size * (index + 1) := (Nat.mul_succ size index).symm
    _ ≤ size * pieces := Nat.mul_le_mul_left size smaller

theorem line_end (whole : frontier % width = 0) (before : place < frontier) :
    place / width * width + width ≤ frontier := by
  obtain ⟨lines, rfl⟩ := Nat.dvd_of_mod_eq_zero whole
  have smaller : place / width < lines := Nat.div_lt_of_lt_mul before
  calc place / width * width + width = width * (place / width + 1) := by
        rw [Nat.mul_succ, Nat.mul_comm]
    _ ≤ width * lines := Nat.mul_le_mul_left width smaller

/-- The place after a piece is in the same line, or at the start of the next. -/
theorem next_line (divides : size ∣ width) (positive : 0 < width) (aligned : place % size = 0)
    (inLine : (place + size) % width ≠ 0) : (place + size) / width = place / width := by
  have fits := piece_fits divides positive aligned
  have parts := Nat.div_add_mod place width
  rcases Nat.lt_or_eq_of_le fits with within | full
  · rw [← parts, Nat.add_assoc, Nat.mul_add_div positive, Nat.div_eq_of_lt within,
      Nat.mul_add_div positive, Nat.div_eq_of_lt (Nat.mod_lt place positive)]
  · rw [← parts, Nat.add_assoc, full, Nat.mul_add_mod, Nat.mod_self] at inLine
    exact absurd rfl inLine

theorem pieces_disjoint {size' place' : Nat} (divides : size ∣ width) (divides' : size' ∣ width)
    (positive : 0 < width) (aligned : place % size = 0) (aligned' : place' % size' = 0)
    (different : place / width ≠ place' / width) :
    place + size ≤ place' ∨ place' + size' ≤ place := by
  have fits := piece_fits divides positive aligned
  have fits' := piece_fits divides' positive aligned'
  have parts := Nat.div_add_mod place width
  have parts' := Nat.div_add_mod place' width
  rcases Nat.lt_or_gt_of_ne different with smaller | larger
  · have lines : width * (place / width) + width ≤ width * (place' / width) := by
      rw [← Nat.mul_succ]
      exact Nat.mul_le_mul_left width smaller
    omega
  · have lines : width * (place' / width) + width ≤ width * (place / width) := by
      rw [← Nat.mul_succ]
      exact Nat.mul_le_mul_left width larger
    omega

end Arithmetic

section Keep

variable {width : Nat} {size : Key → Nat} {s s' : State Key} {key : Key} {place : Nat} {start : Nat}

/-- Before anything was handed out. -/
theorem sound_initial (divides : ∀ key, size key ∣ width) (whole : start % width = 0) :
    Sound width size (⟨start, fun _ => start, []⟩ : State Key) := by
  have aligned (key : Key) : start % size key = 0 :=
    Nat.mod_eq_zero_of_dvd ((divides key).trans (Nat.dvd_of_mod_eq_zero whole))
  exact ⟨whole, aligned, nofun, nofun, fun _ inLine => absurd whole inLine,
    fun _ inLine => absurd whole inLine, fun _ _ inLine => absurd whole inLine, .nil, nofun⟩

/-- Lines may be left out. -/
theorem Sound.skip (sound : Sound width size s) {frontier : Nat} (whole : frontier % width = 0)
    (after : s.frontier ≤ frontier) : Sound width size { s with frontier := frontier } :=
  ⟨whole, sound.aligned, sound.whole, fun piece member => (sound.below piece member).trans_le after,
    fun key inLine => (sound.openBelow key inLine).trans_le after, sound.openFree, sound.apart,
    sound.disjoint, sound.oneKey⟩

variable [DecidableEq Key]

/-- A piece is taken at a place whose line is that of earlier pieces of the same size only. -/
theorem Sound.take (divides : ∀ key, size key ∣ width) (positive : 0 < width)
    (sound : Sound width size s) {frontier place : Nat} (lines : frontier % width = 0)
    (after : s.frontier ≤ frontier) (aligned : place % size key = 0) (below : place < frontier)
    (free : ∀ piece ∈ s.given, piece.2 / width = place / width →
      piece.1 = key ∧ piece.2 + size key ≤ place)
    (apart : ∀ other ≠ key, s.pos other % width ≠ 0 → s.pos other / width ≠ place / width) :
    Sound width size ⟨frontier, update s.pos key (place + size key),
      (key, place) :: s.given⟩ := by
  have sameLine (rest : (place + size key) % width ≠ 0) :
      (place + size key) / width = place / width :=
    next_line (divides key) positive aligned rest
  refine ⟨lines, ?_, ?_, ?_, ?_, ?_, ?_, ?_, ?_⟩
  · intro other
    by_cases same : other = key
    · subst same
      simpa using aligned
    · simpa [same] using sound.aligned other
  · exact forall_mem_cons.mpr ⟨aligned, sound.whole⟩
  · refine forall_mem_cons.mpr ⟨below, fun piece earlier => ?_⟩
    exact (sound.below piece earlier).trans_le after
  · intro other rest
    by_cases same : other = key
    · subst same
      simp only [update_self] at rest ⊢
      have lineEnd := line_end lines below
      have parts := Nat.div_add_mod (place + size other) width
      have inside := Nat.mod_lt (place + size other) positive
      rw [sameLine rest, Nat.mul_comm] at parts
      omega
    · simp only [ne_eq, same, not_false_eq_true, update_of_ne] at rest ⊢
      exact (sound.openBelow other rest).trans_le after
  · intro other rest piece member sameLine'
    by_cases same : other = key
    · subst same
      simp only [update_self] at rest sameLine' ⊢
      rw [sameLine rest] at sameLine'
      rcases mem_cons.mp member with rfl | earlier
      · exact ⟨rfl, le_rfl⟩
      · obtain ⟨sameKey, before⟩ := free piece earlier sameLine'
        exact ⟨sameKey, by omega⟩
    · simp only [ne_eq, same, not_false_eq_true, update_of_ne] at rest sameLine' ⊢
      rcases mem_cons.mp member with rfl | earlier
      · exact absurd sameLine'.symm (apart other same rest)
      · exact sound.openFree other rest piece earlier sameLine'
  · intro first second restFirst restSecond sameLine'
    simp only at restFirst restSecond sameLine'
    by_cases isFirst : first = key <;> by_cases isSecond : second = key
    · rw [isFirst, isSecond]
    · subst isFirst
      rw [update_self] at restFirst sameLine'
      rw [update_of_ne isSecond] at restSecond sameLine'
      exact absurd (sameLine'.symm.trans (sameLine restFirst)) (apart second isSecond restSecond)
    · subst isSecond
      rw [update_self] at restSecond sameLine'
      rw [update_of_ne isFirst] at restFirst sameLine'
      exact absurd (sameLine'.trans (sameLine restSecond)) (apart first isFirst restFirst)
    · rw [update_of_ne isFirst] at restFirst sameLine'
      rw [update_of_ne isSecond] at restSecond sameLine'
      exact sound.apart first second restFirst restSecond sameLine'
  · refine pairwise_cons.mpr ⟨fun piece earlier => ?_, sound.disjoint⟩
    by_cases same : place / width = piece.2 / width
    · obtain ⟨sameKey, before⟩ := free piece earlier same.symm
      exact .inr (sameKey ▸ before)
    · exact pieces_disjoint (divides _) (divides _) positive aligned
        (sound.whole piece earlier) same
  · intro piece member other otherMember same
    rcases mem_cons.mp member with rfl | earlier
    · rcases mem_cons.mp otherMember with rfl | otherEarlier
      · rfl
      · exact (free other otherEarlier same.symm).1.symm
    · rcases mem_cons.mp otherMember with rfl | otherEarlier
      · exact (free piece earlier same).1
      · exact sound.oneKey piece earlier other otherEarlier same

theorem Sound.next (divides : ∀ key, size key ∣ width) (positive : 0 < width)
    (sound : Sound width size s) (inLine : s.pos key % width ≠ 0) :
    Sound width size ⟨s.frontier, update s.pos key (s.pos key + size key),
      (key, s.pos key) :: s.given⟩ := by
  refine sound.take divides positive sound.frontier le_rfl (sound.aligned key)
    (sound.openBelow key inLine) (sound.openFree key inLine) fun other different rest sameLine => ?_
  exact different (sound.apart other key rest inLine sameLine)

/-- Everything handed out or open before a new line is in another line. -/
theorem line_ne {frontier : Nat} (positive : 0 < width) (whole : start % width = 0)
    (after : frontier ≤ start) (before : place < frontier) : place / width ≠ start / width := by
  obtain ⟨lines, rfl⟩ := Nat.dvd_of_mod_eq_zero whole
  rw [Nat.mul_div_cancel_left lines positive]
  exact (Nat.div_lt_of_lt_mul (before.trans_le after)).ne

theorem Sound.line (divides : ∀ key, size key ∣ width) (positive : 0 < width)
    (sound : Sound width size s) (whole : start % width = 0) (after : s.frontier ≤ start) :
    Sound width size ⟨start + width, update s.pos key (start + size key),
      (key, start) :: s.given⟩ := by
  have aligned : start % size key = 0 :=
    Nat.mod_eq_zero_of_dvd ((divides key).trans (Nat.dvd_of_mod_eq_zero whole))
  refine sound.take divides positive (by simpa using whole) (Nat.le_add_right_of_le after) aligned
    (Nat.lt_add_of_pos_right positive) (fun piece earlier same => ?_) fun other _ rest => ?_
  · exact absurd same (line_ne positive whole after (sound.below piece earlier))
  · exact line_ne positive whole after (sound.openBelow other rest)

/-- Taking a piece keeps the lines sound. -/
theorem Takes.sound (divides : ∀ key, size key ∣ width) (positive : 0 < width)
    (takes : Takes width size s key place s') (sound : Sound width size s) :
    Sound width size s' := by
  cases takes with
  | next inLine => exact sound.next divides positive inLine
  | line start whole after => exact sound.line divides positive whole after

end Keep

end LineAlloc
