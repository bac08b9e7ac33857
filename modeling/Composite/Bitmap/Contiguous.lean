import Composite.Bitmap.Offset
import Composite.Lib.TwoLevel

/-!
# Runs of ones in a bitmap

The search for a run looks for the next one again and again, and a gap starts a new run.  It does
not compare the length of a run that starts after a gap before it has seen its second one, so that
a single one is missed.
-/

namespace Composite.Bitmap

open Words

/-- The loop of `bitmap_contiguous_ones`, with the iterations that are left at most. -/
def contiguousLoop (x : Nat → BitVec 32) (extent max : Nat) : Nat → Nat → Nat → Int
  | 0, _, _ => -1
  | left + 1, i, start =>
    if i < max * 32 then
      let prev := i
      let i := bitmapOneOffset x i max
      if i < 0 then -1
      else if i ≠ prev then contiguousLoop x extent max left (i.toNat + 1) i.toNat
      else if i - start + 1 ≥ extent then start
      else contiguousLoop x extent max left (i.toNat + 1) start
    else -1

def bitmapContiguousOnes (x : Nat → BitVec 32) (off extent max : Nat) : Int :=
  contiguousLoop x extent max (max * 32 + 1) off off

/-- `bitmap_set_contig` with zeros. -/
def bitmapUnsetContig (x : Nat → BitVec 32) (off : Nat) : Nat → Nat → BitVec 32
  | 0 => x
  | extent + 1 => bitmapUnset (bitmapUnsetContig x off extent) (off + extent)

def bitmapExtentFindSet (x : Nat → BitVec 32) (off extent max : Nat) : Int × (Nat → BitVec 32) :=
  let r := bitmapContiguousOnes x off extent max
  if r < 0 then (r, x) else (r, bitmapUnsetContig x r.toNat extent)

def bitmapExtentSetAt (x : Nat → BitVec 32) (off extent max : Nat) : Int × (Nat → BitVec 32) :=
  let r := bitmapOneOffset x off max
  if r ≠ off then (-1, x) else (0, bitmapUnsetContig x r.toNat extent)

variable {x : Nat → BitVec 32} {off extent words : Nat}

def Run (x : Nat → BitVec 32) (extent start : Nat) : Prop :=
  ∀ p, start ≤ p → p < start + extent → bit x p = true

/-- The first place from the offset on where a run of the length asked for there stands. -/
structure FirstRun (x : Nat → BitVec 32) (off : Nat) (length : Nat → Nat) (size start : Nat) :
    Prop where
  inside : off ≤ start ∧ start + length start ≤ size
  run : Run x (length start) start
  least : ∀ s, off ≤ s → s < start → ¬Run x (length s) s

def FindsRun (x : Nat → BitVec 32) (off : Nat) (length : Nat → Nat) (size : Nat) (result : Int) :
    Prop :=
  (∃ start : Nat, result = start ∧ FirstRun x off length size start) ∨
    result = -1 ∧ ∀ s, off ≤ s → s + length s ≤ size → ¬Run x (length s) s

/-- What the search asks for: the length is not compared at the first one behind a gap. -/
def demanded (off extent start : Nat) : Nat := if start = off then extent else max extent 2

theorem demanded_off : demanded off extent off = extent := if_pos rfl

theorem demanded_of_ne {start : Nat} (moved : start ≠ off) :
    demanded off extent start = max extent 2 :=
  if_neg moved

theorem le_demanded (off extent start : Nat) : extent ≤ demanded off extent start := by
  unfold demanded
  split_ifs <;> omega

theorem demanded_two_le (atLeastTwo : 2 ≤ extent) : demanded off extent = fun _ => extent := by
  funext start
  unfold demanded
  split_ifs <;> omega

structure Seen (x : Nat → BitVec 32) (off extent i start : Nat) : Prop where
  order : off ≤ start ∧ start ≤ i
  moved : start ≠ off → start < i
  ones : ∀ p, start ≤ p → p < i → bit x p = true
  short : i < start + demanded off extent start
  none : ∀ s, off ≤ s → s < start → ¬Run x (demanded off extent s) s

namespace Seen

variable {i start : Nat} (seen : Seen x off extent i start)
include seen

theorem ones_until (set : bit x i = true) : ∀ p, start ≤ p → p < i + 1 → bit x p = true := by
  intro p behind before
  rcases Nat.lt_or_eq_of_le (Nat.le_of_lt_succ before) with early | rfl
  · exact seen.ones p behind early
  · exact set

/-- A run that starts at `s` goes over the first place that is not seen yet. -/
theorem none_of_gap {past : Nat} (positive : 1 ≤ extent)
    (zeros : ∀ p, i ≤ p → p < past → bit x p = false) (gap : i < past) :
    ∀ s, off ≤ s → s < past → ¬Run x (demanded off extent s) s := by
  intro s behind before run
  have order := seen.order
  have short := seen.short
  have long := le_demanded off extent s
  rcases Nat.lt_or_ge s start with early | late
  · exact seen.none s behind early run
  · have reaches : i < s + demanded off extent s := by
      by_cases first : s = off
      · obtain rfl : s = start := by omega
        exact short
      · rw [demanded_of_ne first]
        by_cases same : start = off
        · rw [same, demanded_off] at short
          omega
        · rw [demanded_of_ne same] at short
          omega
    have found := run (max s i) (by omega) (by omega)
    rw [zeros _ (by omega) (by omega)] at found
    cases found

theorem none_inside (positive : 1 ≤ extent)
    (zeros : ∀ p, i ≤ p → p < 32 * words → bit x p = false) :
    ∀ s, off ≤ s → s + demanded off extent s ≤ 32 * words → ¬Run x (demanded off extent s) s := by
  intro s behind fits
  have order := seen.order
  have short := seen.short
  have long := le_demanded off extent s
  rcases Nat.lt_or_ge i (32 * words) with inside | outside
  · exact seen.none_of_gap positive zeros inside s behind (by omega)
  · -- The places seen end behind the bitmap, so that a run inside starts before them.
    refine seen.none s behind (Nat.lt_of_not_le fun late => ?_)
    by_cases first : s = off
    · obtain rfl : s = start := by omega
      omega
    · rw [demanded_of_ne first] at fits
      by_cases same : start = off
      · rw [same, demanded_off] at short
        omega
      · rw [demanded_of_ne same] at short
        omega

end Seen

theorem contiguousLoop_finds (positive : 1 ≤ extent) (left : Nat) {i start : Nat}
    (enough : words * 32 < i + left) (seen : Seen x off extent i start) :
    FindsRun x off (demanded off extent) (32 * words)
      (contiguousLoop x extent words left i start) := by
  induction left generalizing i start with
  | zero => exact .inr ⟨rfl, seen.none_inside positive fun p behind before => by omega⟩
  | succ left ih =>
    have order := seen.order
    rw [contiguousLoop]
    split_ifs with inside
    swap
    · exact .inr ⟨rfl, seen.none_inside positive fun p behind before => by omega⟩
    have found : Finds x i (32 * words) (bitmapOneOffset x i words) :=
      bitmapOneOffset_finds (by omega)
    simp only
    rcases found with ⟨p, isPlace, first⟩ | ⟨isNone, zeros⟩
    swap
    · rw [isNone]
      exact .inr ⟨rfl, seen.none_inside positive zeros⟩
    have placed := first.inside
    rw [isPlace, if_neg (by omega), Int.toNat_natCast]
    split_ifs with gap long
    · -- The run starts again behind the gap, and with one place it is too short.
      have moved : p ≠ off := by omega
      refine ih (by omega)
        ⟨by omega, fun _ => by omega, fun q behind before => ?_, ?_, ?_⟩
      · obtain rfl : q = p := by omega
        exact first.set
      · rw [demanded_of_ne moved]
        omega
      · exact seen.none_of_gap positive first.least (by omega)
    · obtain rfl : p = i := by omega
      have moved := seen.moved
      have enough : start + demanded off extent start ≤ p + 1 := by
        unfold demanded
        split_ifs <;> omega
      refine .inl ⟨start, rfl, by omega, fun q behind before => ?_, seen.none⟩
      exact seen.ones_until first.set q behind (by omega)
    · obtain rfl : p = i := by omega
      have asked := le_demanded off extent start
      exact ih (by omega)
        ⟨by omega, fun _ => by omega, seen.ones_until first.set, by omega, seen.none⟩

theorem bitmapContiguousOnes_finds (x : Nat → BitVec 32) (off words : Nat)
    (positive : 1 ≤ extent) :
    FindsRun x off (demanded off extent) (32 * words) (bitmapContiguousOnes x off extent words) :=
  contiguousLoop_finds positive _ (by omega)
    ⟨by omega, fun moved => absurd rfl moved, fun p behind before => by omega,
      by rw [demanded_off]; omega, fun s behind before => by omega⟩

/-- No one stands alone where the search for a single one has to stop. -/
def FirstOnePaired (x : Nat → BitVec 32) (off words : Nat) : Prop :=
  ∀ p, FirstOne x off (32 * words) p → p = off ∨ p + 2 ≤ 32 * words ∧ bit x (p + 1) = true

theorem run_one {start : Nat} : Run x 1 start ↔ bit x start = true := by
  constructor
  · exact fun run => run start (Nat.le_refl start) (by omega)
  · intro set p behind before
    obtain rfl : p = start := by omega
    exact set

theorem run_two {start : Nat} :
    Run x 2 start ↔ bit x start = true ∧ bit x (start + 1) = true := by
  constructor
  · exact fun run => ⟨run start (by omega) (by omega), run (start + 1) (by omega) (by omega)⟩
  · rintro ⟨set, next⟩ p behind before
    obtain rfl | rfl : p = start ∨ p = start + 1 := by omega
    · exact set
    · exact next

theorem exists_firstOne {size s : Nat} (behind : off ≤ s) (inside : s < size)
    (set : bit x s = true) : ∃ p ≤ s, FirstOne x off size p := by
  classical
  have some : ∃ p, off ≤ p ∧ bit x p = true := ⟨s, behind, set⟩
  have least := Nat.find_min' some ⟨behind, set⟩
  refine ⟨Nat.find some, least, ⟨(Nat.find_spec some).1, by omega⟩, (Nat.find_spec some).2, ?_⟩
  intro q after before
  have unset := Nat.find_min some before
  simpa [after] using unset

/-- If the first one is paired, a place with a one has what the search asks for before it. -/
theorem FirstOnePaired.demanded_run (paired : FirstOnePaired x off words) {s : Nat}
    (behind : off ≤ s) (inside : s + 1 ≤ 32 * words) (run : Run x 1 s) :
    ∃ p ≤ s, off ≤ p ∧ p + demanded off 1 p ≤ 32 * words ∧ Run x (demanded off 1 p) p := by
  obtain ⟨p, before, first⟩ := exists_firstOne behind inside (run_one.mp run)
  refine ⟨p, before, first.inside.1, ?_⟩
  by_cases atOff : p = off
  · rw [atOff, demanded_off]
    exact ⟨by omega, run_one.mpr (atOff ▸ first.set)⟩
  · obtain ⟨fits, next⟩ := (paired p first).resolve_left atOff
    rw [demanded_of_ne atOff]
    exact ⟨fits, run_two.mpr ⟨first.set, next⟩⟩

theorem findsRun_one_iff {result : Int}
    (found : FindsRun x off (demanded off 1) (32 * words) result) :
    FindsRun x off (fun _ => 1) (32 * words) result ↔ FirstOnePaired x off words := by
  constructor
  · intro right p first
    have alone : Run x 1 p := run_one.mpr first.set
    have bounds := first.inside
    rcases right with ⟨start, rfl, run⟩ | ⟨-, none⟩
    swap
    · exact absurd alone (none p bounds.1 bounds.2)
    have same : start = p := by
      rcases Nat.lt_trichotomy start p with early | same | late
      · have set := run_one.mp run.run
        rw [first.least start run.inside.1 early] at set
        cases set
      · exact same
      · exact absurd alone (run.least p bounds.1 late)
    rcases found with ⟨start', isStart, demands⟩ | ⟨isNone, -⟩
    swap
    · omega
    obtain rfl : start' = p := by omega
    by_cases atOff : start' = off
    · exact .inl atOff
    · have two := demands.run
      have fits := demands.inside.2
      rw [demanded_of_ne atOff] at two fits
      exact .inr ⟨fits, (run_two.mp two).2⟩
  · intro paired
    rcases found with ⟨start, isStart, demands⟩ | ⟨isNone, none⟩
    · have long := le_demanded off 1 start
      have bounds := demands.inside
      refine .inl
        ⟨start, isStart, by omega, fun p behind before => ?_, fun s behind before run => ?_⟩
      · exact demands.run p behind (by omega)
      · obtain ⟨p, early, after, -, runs⟩ := paired.demanded_run behind (by omega) run
        exact demands.least p after (by omega) runs
    · refine .inr ⟨isNone, fun s behind fits run => ?_⟩
      obtain ⟨p, -, after, inside, runs⟩ := paired.demanded_run behind fits run
      exact none p after inside runs

theorem bitmapContiguousOnes_right_iff (x : Nat → BitVec 32) (off words : Nat)
    (positive : 1 ≤ extent) :
    FindsRun x off (fun _ => extent) (32 * words) (bitmapContiguousOnes x off extent words) ↔
      2 ≤ extent ∨ FirstOnePaired x off words := by
  have found := bitmapContiguousOnes_finds x off words positive
  rcases Nat.lt_or_ge extent 2 with one | two
  · obtain rfl : extent = 1 := by omega
    rw [findsRun_one_iff found, or_iff_right (by omega)]
  · rw [demanded_two_le two] at found
    exact ⟨fun _ => .inl two, fun _ => found⟩

theorem bit_bitmapUnset (x : Nat → BitVec 32) (v p : Nat) :
    bit (bitmapUnset x v) p = (bit x p && decide (p ≠ v)) :=
  TwoLevel.unset_getLsbD x v p

theorem bit_bitmapUnsetContig (x : Nat → BitVec 32) (off extent p : Nat) :
    bit (bitmapUnsetContig x off extent) p =
      (bit x p && !decide (off ≤ p ∧ p < off + extent)) := by
  induction extent with
  | zero =>
    have outside : decide (off ≤ p ∧ p < off + 0) = false := decide_eq_false (by omega)
    rw [outside, Bool.not_false, Bool.and_true, bitmapUnsetContig]
  | succ extent ih =>
    rw [bitmapUnsetContig, bit_bitmapUnset, ih, Bool.and_assoc]
    congr 1
    rw [Bool.eq_iff_iff]
    simp only [Bool.and_eq_true, Bool.not_eq_true', decide_eq_false_iff_not, decide_eq_true_eq]
    omega

def Cleared (x : Nat → BitVec 32) (start extent : Nat) (x' : Nat → BitVec 32) : Prop :=
  ∀ p, bit x' p = (bit x p && !decide (start ≤ p ∧ p < start + extent))

/-- The search returns the first run of that many ones in the bitmap or -1 if there is none, and
`bitmap_extent_find_set` clears exactly what it returns. -/
def FindsAndClears (x : Nat → BitVec 32) (off extent words : Nat) : Prop :=
  FindsRun x off (fun _ => extent) (32 * words) (bitmapContiguousOnes x off extent words) ∧
  (bitmapExtentFindSet x off extent words).1 = bitmapContiguousOnes x off extent words ∧
  (∀ start : Nat, bitmapContiguousOnes x off extent words = start →
    Cleared x start extent (bitmapExtentFindSet x off extent words).2) ∧
  (bitmapContiguousOnes x off extent words = -1 →
    (bitmapExtentFindSet x off extent words).2 = x)

/-- The requested bits are cleared if they are all ones of the bitmap, and else nothing is. -/
def ClearsAt (x : Nat → BitVec 32) (off extent words : Nat) : Prop :=
  (off + extent ≤ 32 * words ∧ Run x extent off → (bitmapExtentSetAt x off extent words).1 = 0 ∧
    Cleared x off extent (bitmapExtentSetAt x off extent words).2) ∧
  (¬(off + extent ≤ 32 * words ∧ Run x extent off) →
    bitmapExtentSetAt x off extent words = (-1, x))

theorem findsAndClears_iff (positive : 1 ≤ extent) :
    FindsAndClears x off extent words ↔ 2 ≤ extent ∨ FirstOnePaired x off words := by
  rw [← bitmapContiguousOnes_right_iff x off words positive]
  refine and_iff_left_of_imp fun _ => ?_
  simp only [bitmapExtentFindSet]
  split_ifs with none
  · exact ⟨rfl, fun start isStart => by omega, fun _ => rfl⟩
  · refine ⟨rfl, fun start isStart => ?_, fun isNone => by omega⟩
    rw [isStart, Int.toNat_natCast]
    exact bit_bitmapUnsetContig x start extent

/-- The first bit that `bitmap_extent_set_at` looks at: behind the bitmap only one inside a word. -/
def Tested (off words : Nat) : Prop := off < 32 * words ∨ off % 32 ≠ 0

theorem bitmapOneFrom_outside {from_ max : Nat} (outside : max ≤ from_) :
    bitmapOneFrom x from_ max = -1 := by
  rw [bitmapOneFrom, Nat.sub_eq_zero_of_le outside, bitmapOne, bitmapOneLoop]
  exact if_neg (not_not.mpr rfl)

theorem Finds.eq_off {size : Nat} {result : Int} (found : Finds x off size result)
    (inside : off < size) : result = off ↔ bit x off = true := by
  rcases found with ⟨p, rfl, first⟩ | ⟨rfl, zeros⟩
  · refine ⟨fun same => Int.ofNat.inj same ▸ first.set, fun set => ?_⟩
    rcases Nat.lt_or_eq_of_le first.inside.1 with later | rfl
    · rw [first.least off (Nat.le_refl off) later] at set
      cases set
    · rfl
  · rw [zeros off (Nat.le_refl off) inside]
    exact ⟨fun same => by omega, nofun⟩

theorem bitmapOneOffset_eq_off :
    bitmapOneOffset x off words = off ↔ bit x off = true ∧ Tested off words := by
  unfold Tested
  rcases Nat.lt_or_ge off (32 * words) with inside | outside
  · rw [(bitmapOneOffset_finds inside).eq_off inside, and_iff_left (.inl inside)]
  rw [or_iff_right (by omega)]
  simp only [bitmapOneOffset]
  split_ifs with subword nonzero
  · have here : off < 32 * (off / 32 + 1) := by omega
    rw [log32Pow2_lsOne nonzero, (Finds.word off _ here nonzero).eq_off here, and_iff_left subword]
  · have clear := zeros_of_word (not_not.mp nonzero) off (Nat.le_refl off) (by omega)
    rw [bitmapOneFrom_outside (by omega), clear]
    exact ⟨fun same => by omega, fun set => by cases set.1⟩
  · rw [bitmapOneFrom_outside (by omega)]
    exact ⟨fun same => by omega, fun tested => absurd tested.2 subword⟩

theorem clearsAt_iff (positive : 1 ≤ extent) :
    ClearsAt x off extent words ↔
      (bit x off = true → Tested off words → off + extent ≤ 32 * words ∧ Run x extent off) := by
  unfold ClearsAt bitmapExtentSetAt
  by_cases taken : bit x off = true ∧ Tested off words
  · rw [if_neg (not_not.mpr (bitmapOneOffset_eq_off.mpr taken)), bitmapOneOffset_eq_off.mpr taken,
      Int.toNat_natCast]
    constructor
    · intro right _ _
      by_contra broken
      exact absurd (congrArg Prod.fst (right.2 broken)) (show (0 : Int) ≠ -1 by decide)
    · intro all
      refine ⟨fun _ => ⟨rfl, bit_bitmapUnsetContig x off extent⟩, fun broken => ?_⟩
      exact absurd (all taken.1 taken.2) broken
  · rw [if_pos (mt bitmapOneOffset_eq_off.mp taken)]
    refine ⟨fun _ set tested => absurd ⟨set, tested⟩ taken, fun _ => ⟨?_, fun _ => rfl⟩⟩
    rintro ⟨fits, run⟩
    exact absurd ⟨run off (Nat.le_refl off) (by omega), .inl (by omega)⟩ taken

def upperOnes (_ : Nat) : BitVec 32 := 0xfffffff0

end Composite.Bitmap
