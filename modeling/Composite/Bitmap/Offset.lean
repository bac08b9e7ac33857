import Composite.Lib.Words
import Mathlib.Tactic.IntervalCases

/-!
# The first one of a bitmap

The word-level search of `bitmap.h`.  The lowest one of a word is isolated, and its place is the
number of ones below it, which is counted in pairs, in halves of bytes, in bytes and in the word.
-/

namespace Composite.Bitmap

open Words

def ones (x : BitVec 32) : BitVec 32 :=
  let x := x - ((x >>> 1) &&& 0x55555555#32)
  let x := ((x >>> 2) &&& 0x33333333#32) + (x &&& 0x33333333#32)
  let x := ((x >>> 4) + x) &&& 0x0F0F0F0F#32
  let x := x + (x >>> 8)
  let x := x + (x >>> 16)
  x &&& 0x0000003f#32

def lsOne (x : BitVec 32) : BitVec 32 := x &&& -x

/-- `_log32`, for words with one bit. -/
def log32Pow2 (x : BitVec 32) : BitVec 32 :=
  let y := x &&& (x - 1)
  let y := (y ||| -y) >>> 31
  let x := x ||| (x >>> 1)
  let x := x ||| (x >>> 2)
  let x := x ||| (x >>> 4)
  let x := x ||| (x >>> 8)
  let x := x ||| (x >>> 16)
  ones (x >>> 1) - y

def bitmapSet (x : Nat → BitVec 32) (v : Nat) : Nat → BitVec 32 :=
  Function.update x (v / 32) (setBit (x (v / 32)) (v % 32))

def bitmapUnset (x : Nat → BitVec 32) (v : Nat) : Nat → BitVec 32 :=
  Function.update x (v / 32) (clearBit (x (v / 32)) (v % 32))

/-- The loop of `bitmap_one` from the word `i` on, for the words that remain. -/
def bitmapOneLoop (x : Nat → BitVec 32) : Nat → Nat → Int
  | 0, _ => -1
  | remaining + 1, i =>
    if x i = 0 then bitmapOneLoop x remaining (i + 1)
    else i * 32 + (log32Pow2 (lsOne (x i))).toNat

def bitmapOne (x : Nat → BitVec 32) (max : Nat) : Int := bitmapOneLoop x max 0

/-- The end of `bitmap_one_offset`: the search from a whole word on. -/
def bitmapOneFrom (x : Nat → BitVec 32) (words max : Nat) : Int :=
  let ret := bitmapOne (fun i => x (words + i)) (max - words)
  if ret ≠ -1 then ret + words * 32 else ret

def bitmapOneOffset (x : Nat → BitVec 32) (off max : Nat) : Int :=
  let subword := off % 32
  let words := off / 32
  if subword ≠ 0 then
    let v := x words >>> subword
    if v ≠ 0 then (log32Pow2 (lsOne v)).toNat + off else bitmapOneFrom x (words + 1) max
  else bitmapOneFrom x words max

/-! The count of a word, byte by byte. -/

/-- What `ones` makes of the pairs of bits of so many bytes. -/
def pairs (bytes m : Nat) : Nat := m - (m / 2 &&& repeated 0x55 bytes)

/-- What `ones` makes of the halves of so many bytes. -/
def halves (bytes m : Nat) : Nat := (m / 4 &&& repeated 0x33 bytes) + (m &&& repeated 0x33 bytes)

theorem pairs_succ (bytes q : Nat) {r : Nat} (small : r < 256) :
    pairs (bytes + 1) (256 * q + r) = 256 * pairs bytes q + pairs 1 r := by
  have halved : (256 * q + r) / 2 = 256 * (q / 2) + (r / 2 + 128 * (q % 2)) := by omega
  have masked : ∀ r < 256, ∀ bit < 2, (r / 2 + 128 * bit) &&& 0x55 = r / 2 &&& 0x55 := by
    decide +kernel
  have below := Nat.and_le_left (n := q / 2) (m := repeated 0x55 bytes)
  have below' := Nat.and_le_left (n := r / 2) (m := 0x55)
  have split := land_byte (q / 2) (repeated 0x55 bytes) (r := r / 2 + 128 * (q % 2)) (m := 0x55)
    (by omega) (by omega)
  rw [masked r small (q % 2) (Nat.mod_lt _ (by omega))] at split
  simp only [pairs, repeated, halved, split, Nat.mul_zero, Nat.zero_add]
  omega

theorem halves_succ (bytes q : Nat) {r : Nat} (small : r < 256) :
    halves (bytes + 1) (256 * q + r) = 256 * halves bytes q + halves 1 r := by
  have shifted : (256 * q + r) / 4 = 256 * (q / 4) + (r / 4 + 64 * (q % 4)) := by omega
  have masked : ∀ r < 256, ∀ bits < 4, (r / 4 + 64 * bits) &&& 0x33 = r / 4 &&& 0x33 := by
    decide +kernel
  have split := land_byte (q / 4) (repeated 0x33 bytes) (r := r / 4 + 64 * (q % 4)) (m := 0x33)
    (by omega) (by omega)
  have split' := land_byte q (repeated 0x33 bytes) (r := r) (m := 0x33) small (by omega)
  rw [masked r small (q % 4) (Nat.mod_lt _ (by omega))] at split
  simp only [halves, repeated, shifted, split, split', Nat.mul_zero, Nat.zero_add]
  omega

theorem halves_byte : ∀ r < 256, pairs 1 r < 256 ∧ halves 1 (pairs 1 r) / 16 ≤ 4 ∧
    halves 1 (pairs 1 r) % 16 ≤ 4 ∧
    halves 1 (pairs 1 r) / 16 + halves 1 (pairs 1 r) % 16 = bitCount 8 r := by
  decide +kernel

theorem pairs_word (x : BitVec 32) :
    (x - ((x >>> 1) &&& 0x55555555#32)).toNat = pairs 4 x.toNat := by
  have below := Nat.and_le_left (n := x.toNat / 2) (m := 0x55555555)
  have masked : ((x >>> 1) &&& 0x55555555#32).toNat = x.toNat / 2 &&& 0x55555555 := by
    rw [BitVec.toNat_and, BitVec.toNat_ushiftRight, Nat.shiftRight_eq_div_pow]
    rfl
  rw [BitVec.toNat_sub_of_le (by rw [BitVec.le_def, masked]; omega), masked]
  rfl

theorem halves_word (x : BitVec 32) (fits : halves 4 x.toNat < 2 ^ 32) :
    (((x >>> 2) &&& 0x33333333#32) + (x &&& 0x33333333#32)).toNat = halves 4 x.toNat := by
  rw [BitVec.toNat_add, BitVec.toNat_and, BitVec.toNat_and, BitVec.toNat_ushiftRight,
    Nat.shiftRight_eq_div_pow]
  exact Nat.mod_eq_of_lt fits

/-- The counts of four bytes, added up by the last lines of `ones`. -/
theorem add_bytes {z : BitVec 32} {s₀ s₁ s₂ s₃ : Nat}
    (small : s₀ ≤ 8 ∧ s₁ ≤ 8 ∧ s₂ ≤ 8 ∧ s₃ ≤ 8)
    (digits : z.toNat = 256 * (256 * (256 * s₃ + s₂) + s₁) + s₀) :
    (z + (z >>> 8) + ((z + (z >>> 8)) >>> 16) &&& 0x0000003f#32).toNat =
      s₀ + (s₁ + (s₂ + s₃)) := by
  have first : (z + (z >>> 8)).toNat =
      256 * (256 * (256 * s₃ + (s₂ + s₃)) + (s₁ + s₂)) + (s₀ + s₁) := by
    rw [BitVec.toNat_add, BitVec.toNat_ushiftRight, Nat.shiftRight_eq_div_pow, digits]
    omega
  have second : (z + (z >>> 8) + ((z + (z >>> 8)) >>> 16)).toNat =
      64 * (4 * (256 * (256 * s₃ + (s₂ + s₃)) + (s₁ + s₂ + s₃))) + (s₀ + (s₁ + (s₂ + s₃))) := by
    have upper : (256 * (256 * (256 * s₃ + (s₂ + s₃)) + (s₁ + s₂)) + (s₀ + s₁)) / 2 ^ 16 =
        256 * s₃ + (s₂ + s₃) := by omega
    rw [BitVec.toNat_add, BitVec.toNat_ushiftRight, Nat.shiftRight_eq_div_pow, first, upper,
      Nat.mod_eq_of_lt (by omega)]
    omega
  rw [BitVec.toNat_and, second]
  refine (Nat.and_two_pow_sub_one_eq_mod _ 6).trans ?_
  rw [Nat.mul_add_mod, Nat.mod_eq_of_lt (by omega)]

/-- The counts of the halves of four bytes, added up to those of the bytes. -/
theorem add_halves {y : BitVec 32} {h₀ h₁ h₂ h₃ l₀ l₁ l₂ l₃ : Nat}
    (small : h₀ ≤ 4 ∧ h₁ ≤ 4 ∧ h₂ ≤ 4 ∧ h₃ ≤ 4 ∧ l₀ ≤ 4 ∧ l₁ ≤ 4 ∧ l₂ ≤ 4 ∧ l₃ ≤ 4)
    (digits : y.toNat = 256 * (256 * (256 * (16 * h₃ + l₃) + (16 * h₂ + l₂)) + (16 * h₁ + l₁)) +
      (16 * h₀ + l₀)) :
    (((y >>> 4) + y) &&& 0x0F0F0F0F#32).toNat =
      256 * (256 * (256 * (h₃ + l₃) + (h₂ + l₂)) + (h₁ + l₁)) + (h₀ + l₀) := by
  have sum : ((y >>> 4) + y).toNat = 256 * (256 * (256 * (16 * h₃ + (h₃ + l₃)) +
      (16 * (h₂ + l₃) + (h₂ + l₂))) + (16 * (h₁ + l₂) + (h₁ + l₁))) +
      (16 * (h₀ + l₁) + (h₀ + l₀)) := by
    rw [BitVec.toNat_add, BitVec.toNat_ushiftRight, Nat.shiftRight_eq_div_pow, digits]
    omega
  have low (q m a b : Nat) (small : a < 16 ∧ b < 16) :
      (256 * q + (16 * a + b)) &&& (256 * m + 15) = 256 * (q &&& m) + b := by
    rw [land_byte q m (by omega) (by omega), Nat.and_two_pow_sub_one_eq_mod _ 4]
    omega
  have last := low 0 0 h₃ (h₃ + l₃) (by omega)
  simp only [Nat.mul_zero, Nat.zero_add, Nat.and_zero] at last
  rw [BitVec.toNat_and, sum]
  refine (low _ 0x0F0F0F _ _ (by omega)).trans ?_
  rw [low _ 0x0F0F _ _ (by omega), low _ 0x0F _ _ (by omega), last]

theorem ones_eq (x : BitVec 32) : (ones x).toNat = bitCount 32 x.toNat := by
  obtain ⟨b₀, b₁, b₂, b₃, word, small₀, small₁, small₂, small₃⟩ : ∃ b₀ b₁ b₂ b₃ : Nat,
      x.toNat = 256 * (256 * (256 * b₃ + b₂) + b₁) + b₀ ∧ b₀ < 256 ∧ b₁ < 256 ∧ b₂ < 256 ∧
        b₃ < 256 :=
    ⟨x.toNat % 256, x.toNat / 256 % 256, x.toNat / 65536 % 256, x.toNat / 16777216,
      by omega, by omega, by omega, by omega, by omega⟩
  obtain ⟨pair₀, high₀, low₀, count₀⟩ := halves_byte b₀ small₀
  obtain ⟨pair₁, high₁, low₁, count₁⟩ := halves_byte b₁ small₁
  obtain ⟨pair₂, high₂, low₂, count₂⟩ := halves_byte b₂ small₂
  obtain ⟨pair₃, high₃, low₃, count₃⟩ := halves_byte b₃ small₃
  have paired := pairs_word x
  rw [word, pairs_succ 3 _ small₀, pairs_succ 2 _ small₁, pairs_succ 1 _ small₂] at paired
  have halved : halves 4 (x - ((x >>> 1) &&& 0x55555555#32)).toNat = _ :=
    congrArg (halves 4) paired
  rw [halves_succ 3 _ pair₀, halves_succ 2 _ pair₁, halves_succ 1 _ pair₂] at halved
  have digits := (halves_word _ (by omega)).trans halved
  have bytes := add_halves ⟨high₀, high₁, high₂, high₃, low₀, low₁, low₂, low₃⟩
    (digits.trans (by omega))
  refine (add_bytes (by omega) bytes).trans ?_
  rw [count₀, count₁, count₂, count₃, word, bitCount_byte 24 _ small₀, bitCount_byte 16 _ small₁,
    bitCount_byte 8 _ small₂]

/-! The lowest one of a word. -/

theorem lsOne_eq {x : BitVec 32} (nonzero : x ≠ 0) : lsOne x = 1#32 <<< x.ctz.toNat := by
  obtain ⟨inside, set, below⟩ := ctz_spec nonzero
  refine BitVec.eq_of_getLsbD_eq fun i bounded => ?_
  rw [getLsbD_one_shiftLeft inside, lsOne, BitVec.getLsbD_and, BitVec.getLsbD_neg]
  rcases Nat.lt_trichotomy i x.ctz.toNat with before | rfl | behind
  · simp [below i before, Nat.ne_of_lt before]
  · have lowest : ¬∃ j < x.ctz.toNat, x.getLsbD j = true := by
      rintro ⟨j, before, found⟩
      rw [below j before] at found
      cases found
    simp [set, lowest]
  · have found : ∃ j < i, x.getLsbD j = true := ⟨_, behind, set⟩
    simp [found, bounded, Nat.ne_of_gt behind]

theorem log32Pow2_isolated : ∀ k < 32, (log32Pow2 (1#32 <<< k)).toNat = k := by
  decide +kernel

theorem log32Pow2_lsOne {x : BitVec 32} (nonzero : x ≠ 0) :
    (log32Pow2 (lsOne x)).toNat = x.ctz.toNat := by
  rw [lsOne_eq nonzero]
  exact log32Pow2_isolated _ (ctz_spec nonzero).1

/-! The lowest one of a bitmap. -/

def bit (x : Nat → BitVec 32) (p : Nat) : Bool := (x (p / 32)).getLsbD (p % 32)

structure FirstOne (x : Nat → BitVec 32) (off size p : Nat) : Prop where
  inside : off ≤ p ∧ p < size
  set : bit x p = true
  least : ∀ q, off ≤ q → q < p → bit x q = false

def Finds (x : Nat → BitVec 32) (off size : Nat) (result : Int) : Prop :=
  (∃ p : Nat, result = p ∧ FirstOne x off size p) ∨
    result = -1 ∧ ∀ q, off ≤ q → q < size → bit x q = false

variable {x : Nat → BitVec 32} {off size : Nat}

theorem Finds.skip {result : Int} {past : Nat} (found : Finds x past size result)
    (zeros : ∀ q, off ≤ q → q < past → bit x q = false) (after : off ≤ past) :
    Finds x off size result := by
  have extend (limit : Nat) (rest : ∀ q, past ≤ q → q < limit → bit x q = false) :
      ∀ q, off ≤ q → q < limit → bit x q = false := by
    intro q behind before
    rcases Nat.lt_or_ge q past with early | late
    · exact zeros q behind early
    · exact rest q late before
  rcases found with ⟨p, rfl, first⟩ | ⟨rfl, none⟩
  · refine .inl ⟨p, rfl, ⟨Nat.le_trans after first.inside.1, first.inside.2⟩, first.set, ?_⟩
    exact extend p first.least
  · exact .inr ⟨rfl, extend size none⟩

/-- The lowest one of what is left of a word. -/
theorem Finds.word (off max : Nat) (inside : off < 32 * max)
    (nonzero : x (off / 32) >>> (off % 32) ≠ 0) :
    Finds x off (32 * max) ((x (off / 32) >>> (off % 32)).ctz.toNat + off) := by
  obtain ⟨bounded, set, below⟩ := ctz_spec nonzero
  generalize (x (off / 32) >>> (off % 32)).ctz.toNat = k at bounded set below
  have same (i : Nat) (small : off % 32 + i < 32) :
      bit x (off + i) = (x (off / 32) >>> (off % 32)).getLsbD i := by
    have quotient : (off + i) / 32 = off / 32 := by omega
    have remainder : (off + i) % 32 = off % 32 + i := by omega
    rw [bit, quotient, remainder, BitVec.getLsbD_ushiftRight]
  have fits : off % 32 + k < 32 := by
    refine Nat.lt_of_not_le fun outside => ?_
    rw [BitVec.getLsbD_ushiftRight, BitVec.getLsbD_of_ge _ _ outside] at set
    cases set
  refine .inl ⟨off + k, by omega, ⟨by omega, by omega⟩, (same k fits).trans set, ?_⟩
  intro q behind before
  obtain ⟨i, rfl⟩ := Nat.exists_eq_add_of_le behind
  exact (same i (by omega)).trans (below i (by omega))

theorem zeros_of_word {off : Nat} (zero : x (off / 32) >>> (off % 32) = 0) :
    ∀ q, off ≤ q → q < 32 * (off / 32 + 1) → bit x q = false := by
  intro q behind before
  have quotient : q / 32 = off / 32 := by omega
  have clear : (x (off / 32) >>> (off % 32)).getLsbD (q - off) = false := by
    rw [zero]
    exact BitVec.getLsbD_zero
  rw [BitVec.getLsbD_ushiftRight] at clear
  rw [bit, quotient]
  exact (congrArg _ (by omega)).trans clear

theorem bitmapOneLoop_finds (remaining i : Nat) :
    Finds x (32 * i) (32 * (i + remaining)) (bitmapOneLoop x remaining i) := by
  induction remaining generalizing i with
  | zero => exact .inr ⟨rfl, fun q behind before => by omega⟩
  | succ remaining ih =>
    have aligned : x (32 * i / 32) >>> (32 * i % 32) = x i := by
      rw [Nat.mul_div_cancel_left i (by omega), Nat.mul_mod_right, BitVec.ushiftRight_zero]
    rw [bitmapOneLoop]
    split_ifs with zero
    · have later := ih (i + 1)
      rw [Nat.add_right_comm] at later
      refine Finds.skip later ?_ (by omega)
      have zeros := zeros_of_word (aligned.trans zero)
      rwa [Nat.mul_div_cancel_left i (by omega)] at zeros
    · have found := Finds.word (x := x) (32 * i) (i + (remaining + 1)) (by omega)
        (by rwa [aligned])
      rw [aligned] at found
      rw [log32Pow2_lsOne zero]
      exact Eq.subst (motive := Finds x _ _) (by push_cast; omega) found

theorem bitmapOneFrom_finds (words max : Nat) (inside : words ≤ max) :
    Finds x (32 * words) (32 * max) (bitmapOneFrom x words max) := by
  have moved (q : Nat) : bit x (32 * words + q) = bit (fun i => x (words + i)) q := by
    have quotient : (32 * words + q) / 32 = words + q / 32 := by omega
    rw [bit, bit, quotient, Nat.mul_add_mod]
  have found : Finds _ _ _ (bitmapOne (fun i => x (words + i)) (max - words)) :=
    bitmapOneLoop_finds (max - words) 0
  simp only [bitmapOneFrom]
  rcases found with ⟨p, isPlace, first⟩ | ⟨isNone, none⟩
  · rw [if_pos (by omega), isPlace]
    have placed := first.inside
    refine .inl
      ⟨32 * words + p, by omega, by omega, (moved p).trans first.set, fun q behind before => ?_⟩
    obtain ⟨i, rfl⟩ := Nat.exists_eq_add_of_le behind
    exact (moved i).trans (first.least i (by omega) (by omega))
  · rw [if_neg (by omega)]
    refine .inr ⟨isNone, fun q behind before => ?_⟩
    obtain ⟨i, rfl⟩ := Nat.exists_eq_add_of_le behind
    exact (moved i).trans (none i (by omega) (by omega))

theorem bitmapOneOffset_finds {max : Nat} (inside : off < 32 * max) :
    Finds x off (32 * max) (bitmapOneOffset x off max) := by
  simp only [bitmapOneOffset]
  split_ifs with subword nonzero
  · rw [log32Pow2_lsOne nonzero]
    exact Finds.word _ _ inside nonzero
  · exact (bitmapOneFrom_finds _ _ (by omega)).skip (zeros_of_word (not_not.mp nonzero)) (by omega)
  · have whole := bitmapOneFrom_finds (x := x) (off / 32) max (by omega)
    have aligned : 32 * (off / 32) = off := by omega
    rwa [aligned] at whole

end Composite.Bitmap
