import Composite.Lib.Words

/-!
# A set of places in two levels of words

Each of 1024 places has a bit in one of 32 words, and each word has a bit in a word above them.  A
search from a word on, around the end, finds the first word that is not zero and the first bit in
it.  It finds the nearest place from the start only if no place before the start shares its word,
or if all of them do.
-/

namespace TwoLevel

open Words Function

variable {top : BitVec 32} {words : Nat → BitVec 32} {occupied : Nat → Prop}

structure Levels (top : BitVec 32) (words : Nat → BitVec 32) (occupied : Nat → Prop) : Prop where
  places : ∀ place < 1024, (words (place / 32)).getLsbD (place % 32) = true ↔ occupied place
  nonzero : ∀ word < 32, top.getLsbD word = true ↔ words word ≠ 0

def set (words : Nat → BitVec 32) (place : Nat) : Nat → BitVec 32 :=
  Function.update words (place / 32) (setBit (words (place / 32)) (place % 32))

def unset (words : Nat → BitVec 32) (place : Nat) : Nat → BitVec 32 :=
  Function.update words (place / 32) (clearBit (words (place / 32)) (place % 32))

theorem set_getLsbD (words : Nat → BitVec 32) (place other : Nat) :
    (set words place (other / 32)).getLsbD (other % 32) =
      ((words (other / 32)).getLsbD (other % 32) || decide (other = place)) := by
  by_cases sameWord : other / 32 = place / 32
  · rw [set, sameWord, update_self, getLsbD_setBit _ (Nat.mod_lt _ (by decide))]
    have same : other % 32 = place % 32 ↔ other = place := by omega
    simp only [same]
  · rw [set, update_of_ne sameWord]
    have different : other ≠ place := fun same => sameWord (by rw [same])
    simp [different]

theorem unset_getLsbD (words : Nat → BitVec 32) (place other : Nat) :
    (unset words place (other / 32)).getLsbD (other % 32) =
      ((words (other / 32)).getLsbD (other % 32) && decide (other ≠ place)) := by
  by_cases sameWord : other / 32 = place / 32
  · rw [unset, sameWord, update_self, getLsbD_clearBit _ (Nat.mod_lt _ (by decide))]
    have same : other % 32 = place % 32 ↔ other = place := by omega
    simp only [ne_eq, same]
  · rw [unset, update_of_ne sameWord]
    have different : other ≠ place := fun same => sameWord (by rw [same])
    simp [different]

theorem setBit_ne_zero (word : BitVec 32) {v : Nat} (inside : v < 32) : setBit word v ≠ 0 :=
  ne_zero_iff.mpr ⟨v, inside, by rw [getLsbD_setBit _ inside]; simp⟩

namespace Levels

theorem congr (levels : Levels top words occupied) {occupied' : Nat → Prop}
    (same : ∀ place < 1024, occupied place ↔ occupied' place) : Levels top words occupied' :=
  { levels with
    places := fun place inside => (levels.places place inside).trans (same place inside) }

variable {place : Nat}

section

variable (levels : Levels top words occupied) (inside : place < 1024)

include levels inside

theorem set :
    Levels (setBit top (place / 32)) (TwoLevel.set words place)
      (fun other => other = place ∨ occupied other) := by
  constructor
  · intro other otherInside
    rw [set_getLsbD, Bool.or_eq_true, levels.places other otherInside, decide_eq_true_eq]
    exact or_comm
  · intro word wordInside
    rw [getLsbD_setBit _ (by omega), Bool.or_eq_true, decide_eq_true_eq]
    by_cases same : word = place / 32
    · subst same
      rw [TwoLevel.set, update_self]
      exact ⟨fun _ => setBit_ne_zero _ (Nat.mod_lt _ (by decide)), fun _ => .inr rfl⟩
    · rw [TwoLevel.set, update_of_ne same, levels.nonzero word wordInside]
      exact ⟨fun either => either.resolve_right same, .inl⟩

/-- A place that is occupied already. -/
theorem set_again (already : occupied place) : Levels top (TwoLevel.set words place) occupied := by
  constructor
  · intro other otherInside
    rw [set_getLsbD, Bool.or_eq_true, levels.places other otherInside, decide_eq_true_eq]
    refine ⟨fun either => either.elim id fun same => ?_, .inl⟩
    rw [same]
    exact already
  · intro word wordInside
    by_cases same : word = place / 32
    · subst same
      have bit := (levels.places place inside).mpr already
      have nonzero := ne_zero_iff.mpr ⟨place % 32, Nat.mod_lt _ (by decide), bit⟩
      rw [TwoLevel.set, update_self, levels.nonzero _ wordInside]
      exact ⟨fun _ => setBit_ne_zero _ (Nat.mod_lt _ (by decide)), fun _ => nonzero⟩
    · rw [TwoLevel.set, update_of_ne same]
      exact levels.nonzero word wordInside

/-- The bit of the word goes with its last place. -/
theorem unset :
    Levels (if TwoLevel.unset words place (place / 32) = 0 then clearBit top (place / 32) else top)
      (TwoLevel.unset words place) (fun other => other ≠ place ∧ occupied other) := by
  constructor
  · intro other otherInside
    rw [unset_getLsbD, Bool.and_eq_true, levels.places other otherInside, decide_eq_true_eq]
    exact and_comm
  · intro word wordInside
    by_cases same : word = place / 32
    · subst same
      split_ifs with zero
      · rw [getLsbD_clearBit _ wordInside]
        simp [zero]
      · refine ⟨fun _ => zero, fun _ => (levels.nonzero _ wordInside).mpr fun empty => zero ?_⟩
        rw [TwoLevel.unset, update_self, empty]
        simp [clearBit]
    · rw [TwoLevel.unset, update_of_ne same, ← levels.nonzero word wordInside]
      split_ifs
      · rw [getLsbD_clearBit _ (by omega)]
        simp [same]
      · exact .rfl

end

end Levels

/-! The search. -/

def ahead (start place : Nat) : Nat := (place + 1024 - start) % 1024

def Behind (start place : Nat) : Prop := place / 32 = start / 32 ∧ place % 32 < start % 32

instance (start place : Nat) : Decidable (Behind start place) := by
  unfold Behind
  infer_instance

/-- The first word from `first` on that is not zero. -/
def firstWord (top : BitVec 32) (first : Nat) : Nat := ((rotr top first).ctz.toNat + first) % 32

def search (top : BitVec 32) (words : Nat → BitVec 32) (start : Nat) : Nat :=
  firstWord top (start / 32) * 32 + (words (firstWord top (start / 32))).ctz.toNat

theorem rotr_ne_zero (nonempty : top ≠ 0) {first : Nat} (small : first < 32) :
    rotr top first ≠ 0 := by
  obtain ⟨i, inside, isSet⟩ := ne_zero_iff.mp nonempty
  refine ne_zero_iff.mpr ⟨(i + 32 - first) % 32, by omega, ?_⟩
  rw [getLsbD_rotr top small (by omega), show ((i + 32 - first) % 32 + first) % 32 = i by omega]
  exact isSet

namespace Levels

variable {place start : Nat}

theorem empty (levels : Levels top words occupied) (zero : top = 0) (inside : place < 1024) :
    ¬occupied place := by
  intro isOccupied
  have bit := (levels.places place inside).mpr isOccupied
  have nonzero := ne_zero_iff.mpr ⟨place % 32, Nat.mod_lt _ (by decide), bit⟩
  have marked := (levels.nonzero (place / 32) (by omega)).mpr nonzero
  rw [zero] at marked
  simp at marked

theorem firstWord_spec (levels : Levels top words occupied) (nonempty : top ≠ 0) {first : Nat}
    (small : first < 32) :
    words (firstWord top first) ≠ 0 ∧ ∀ word < 32, words word ≠ 0 →
      (firstWord top first + 32 - first) % 32 ≤ (word + 32 - first) % 32 := by
  have rotated : ∀ j < 32, (rotr top first).getLsbD j = top.getLsbD ((j + first) % 32) :=
    fun j jInside => getLsbD_rotr top small jInside
  obtain ⟨low, found, below⟩ := ctz_spec (rotr_ne_zero nonempty small)
  rw [rotated _ low] at found
  refine ⟨(levels.nonzero _ (Nat.mod_lt _ (by decide))).mp found, fun word wordInside isNonzero =>
    ?_⟩
  have marked := (levels.nonzero word wordInside).mpr isNonzero
  by_contra closer
  have missed := below ((word + 32 - first) % 32) (by unfold firstWord at closer; omega)
  rw [rotated _ (by omega), show ((word + 32 - first) % 32 + first) % 32 = word by omega,
    marked] at missed
  cases missed

/-- The search ends at an occupied place, the first of its word. -/
theorem search_spec (levels : Levels top words occupied) (nonempty : top ≠ 0)
    (small : start < 1024) :
    search top words start < 1024 ∧ occupied (search top words start) ∧
      ∀ place < 1024, place / 32 = search top words start / 32 → occupied place →
        search top words start ≤ place := by
  have wordInside : firstWord top (start / 32) < 32 := Nat.mod_lt _ (by decide)
  obtain ⟨isNonzero, _⟩ := levels.firstWord_spec nonempty (show start / 32 < 32 by omega)
  obtain ⟨low, isSet, below⟩ := ctz_spec isNonzero
  unfold search
  generalize firstWord top (start / 32) = word at *
  generalize (words word).ctz.toNat = bit at *
  have foundWord : (word * 32 + bit) / 32 = word := by omega
  have foundBit : (word * 32 + bit) % 32 = bit := by omega
  refine ⟨by omega, ?_, fun place inside sameWord isOccupied => ?_⟩
  · rw [← levels.places _ (by omega), foundWord, foundBit]
    exact isSet
  · have placeSet := (levels.places place inside).mpr isOccupied
    by_contra earlier
    have missed := below (place % 32) (by omega)
    rw [sameWord, foundWord] at placeSet
    rw [placeSet] at missed
    cases missed

theorem ahead_eq (small : start < 1024) (inside : place < 1024) :
    ahead start place = if start ≤ place then place - start else place + 1024 - start := by
  unfold ahead
  split_ifs <;> omega

theorem ahead_le {found : Nat} (small : start < 1024) (foundInside : found < 1024)
    (inside : place < 1024)
    (closer : (found / 32 + 32 - start / 32) % 32 ≤ (place / 32 + 32 - start / 32) % 32)
    (first : place / 32 = found / 32 → found ≤ place)
    (sides : Behind start found ↔ Behind start place) : ahead start found ≤ ahead start place := by
  rw [ahead_eq small foundInside, ahead_eq small inside]
  unfold Behind at sides
  split_ifs <;> omega

/-- The search finds the nearest place, if it is not misled by the word it starts in. -/
theorem nearest (levels : Levels top words occupied) (nonempty : top ≠ 0) (small : start < 1024)
    (fair : (∀ place < 1024, occupied place → ¬Behind start place) ∨
      ∀ place < 1024, occupied place → Behind start place) (inside : place < 1024)
    (isOccupied : occupied place) : ahead start (search top words start) ≤ ahead start place := by
  obtain ⟨foundInside, foundOccupied, first⟩ := levels.search_spec nonempty small
  have foundWord : search top words start / 32 = firstWord top (start / 32) := by
    have wordInside : firstWord top (start / 32) < 32 := Nat.mod_lt _ (by decide)
    obtain ⟨isNonzero, _⟩ := levels.firstWord_spec nonempty (show start / 32 < 32 by omega)
    have low := (ctz_spec isNonzero).1
    unfold search
    omega
  have placeSet := (levels.places place inside).mpr isOccupied
  have closer := (levels.firstWord_spec nonempty (show start / 32 < 32 by omega)).2 (place / 32)
    (by omega) (ne_zero_iff.mpr ⟨place % 32, Nat.mod_lt _ (by decide), placeSet⟩)
  have sides : Behind start (search top words start) ↔ Behind start place := by
    rcases fair with nobody | everybody
    · exact iff_of_false (nobody _ foundInside foundOccupied) (nobody place inside isOccupied)
    · exact iff_of_true (everybody _ foundInside foundOccupied) (everybody place inside isOccupied)
  rw [← foundWord] at closer
  exact ahead_le small foundInside inside closer
    (fun sameWord => first place inside sameWord isOccupied) sides

end Levels

end TwoLevel
