import Mathlib.Algebra.Order.Ring.Int

/-!
# Bits of a word

Setting and clearing one bit, and the rotation that brings a bit to the front.
-/

namespace Words

open List

variable {w : Nat}

def setBit (x : BitVec w) (v : Nat) : BitVec w := x ||| 1#w <<< v

def clearBit (x : BitVec w) (v : Nat) : BitVec w := x &&& ~~~(1#w <<< v)

def rotr (value : BitVec w) (rotation : Nat) : BitVec w :=
  value >>> rotation ||| value <<< (w - rotation)

theorem getLsbD_one_shiftLeft {v i : Nat} (inside : v < w) :
    (1#w <<< v).getLsbD i = decide (i = v) := by
  rw [BitVec.getLsbD_shiftLeft, BitVec.getLsbD_one, Bool.eq_iff_iff]
  simp only [Bool.and_eq_true, decide_eq_true_eq, Bool.not_eq_true', decide_eq_false_iff_not]
  omega

theorem getLsbD_setBit (x : BitVec w) {v i : Nat} (inside : v < w) :
    (setBit x v).getLsbD i = (x.getLsbD i || decide (i = v)) := by
  rw [setBit, BitVec.getLsbD_or, getLsbD_one_shiftLeft inside]

theorem getLsbD_clearBit (x : BitVec w) {v i : Nat} (inside : v < w) :
    (clearBit x v).getLsbD i = (x.getLsbD i && decide (i ≠ v)) := by
  rw [clearBit, BitVec.getLsbD_and, BitVec.getLsbD_not, getLsbD_one_shiftLeft inside]
  by_cases isInside : i < w
  · simp [isInside]
  · have outside := BitVec.getLsbD_of_ge x i (by omega)
    simp [outside]

theorem ne_zero_iff {x : BitVec w} : x ≠ 0#w ↔ ∃ i < w, x.getLsbD i = true := by
  constructor
  · intro nonzero
    refine Classical.byContradiction fun noBit => ?_
    refine nonzero (BitVec.eq_of_getLsbD_eq fun i inside => ?_)
    rw [BitVec.getLsbD_zero, ← Bool.not_eq_true]
    exact fun set => noBit ⟨i, inside, set⟩
  · rintro ⟨i, inside, set⟩ rfl
    simp at set

theorem getLsbD_rotr (value : BitVec w) {rotation i : Nat} (small : rotation < w)
    (inside : i < w) :
    (rotr value rotation).getLsbD i = value.getLsbD ((i + rotation) % w) := by
  rw [rotr, BitVec.getLsbD_or, BitVec.getLsbD_ushiftRight, BitVec.getLsbD_shiftLeft]
  by_cases wraps : i + rotation < w
  · have notBelow : i < w - rotation := by omega
    rw [Nat.mod_eq_of_lt wraps]
    simp [notBelow, Nat.add_comm]
  · have notBelow : ¬i < w - rotation := by omega
    have out := BitVec.getLsbD_of_ge value (rotation + i) (by omega)
    have wrapped : (i + rotation) % w = i - (w - rotation) := by
      rw [Nat.mod_eq_sub_mod (by omega), Nat.mod_eq_of_lt (by omega)]
      omega
    rw [wrapped]
    simp [out, notBelow, inside]

/-- The lowest set bit of a word that is not zero. -/
theorem ctz_spec {x : BitVec w} (nonzero : x ≠ 0#w) :
    x.ctz.toNat < w ∧ x.getLsbD x.ctz.toNat = true ∧
      ∀ i < x.ctz.toNat, x.getLsbD i = false := by
  have set := BitVec.getLsbD_true_ctz_of_ne_zero nonzero
  refine ⟨?_, set, fun i below => BitVec.getLsbD_false_of_lt_ctz below⟩
  refine Classical.byContradiction fun outside => ?_
  rw [BitVec.getLsbD_of_ge x _ (by omega)] at set
  cases set

/-! Bytes of a number, and the count of its bits. -/

def bitCount (places x : Nat) : Nat := (List.range places).countP x.testBit

theorem bitCount_byte (places q : Nat) {r : Nat} (small : r < 256) :
    bitCount (8 + places) (256 * q + r) = bitCount 8 r + bitCount places q := by
  have bit := Nat.testBit_two_pow_mul_add q (i := 8) small
  rw [bitCount, range_add, countP_append, countP_map]
  refine congrArg₂ _ (countP_congr fun i inside => ?_) (countP_congr fun i _ => ?_)
  · rw [bit, if_pos (mem_range.mp inside)]
  · simp only [Function.comp_apply]
    rw [bit, if_neg (by omega), Nat.add_sub_cancel_left]

/-- The byte `b` so many times. -/
def repeated (b : Nat) : Nat → Nat
  | 0 => 0
  | bytes + 1 => 256 * repeated b bytes + b

theorem land_byte (q q' : Nat) {r m : Nat} (small : r < 256) (small' : m < 256) :
    (256 * q + r) &&& (256 * q' + m) = 256 * (q &&& q') + (r &&& m) := by
  have bit := Nat.testBit_two_pow_mul_add q (i := 8) small
  have bit' := Nat.testBit_two_pow_mul_add q' (i := 8) small'
  have bits := Nat.testBit_two_pow_mul_add (q &&& q') (i := 8)
    (Nat.lt_of_le_of_lt (Nat.and_le_left (n := r) (m := m)) small)
  refine Nat.eq_of_testBit_eq fun i => ?_
  rw [Nat.testBit_and, bit, bit', bits]
  split_ifs <;> rw [Nat.testBit_and]

end Words
