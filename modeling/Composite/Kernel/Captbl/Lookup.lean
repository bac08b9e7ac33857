import Mathlib.Tactic.IntervalCases
import Composite.Kernel.Captbl.Table
import Composite.Lib.Words

/-!
# Lines of a capability table

What a well-formed line looks like, and what the lookup finds in it.
-/

namespace Composite

variable {i j : Nat} {sz : CapSz}

theorem getLsbD_setBit (amap : BitVec 4) (bounded : i < 4) :
    (amap ||| (1#4 <<< i)).getLsbD j = (amap.getLsbD j || decide (j = i)) :=
  Words.getLsbD_setBit amap bounded

theorem getLsbD_clearBit (amap : BitVec 4) (bounded : i < 4) :
    (amap &&& ~~~(1#4 <<< i)).getLsbD j = (amap.getLsbD j && decide (j ≠ i)) :=
  Words.getLsbD_clearBit amap bounded

theorem slowPath_iff : ∀ (amap : BitVec 4) (off : Fin 4),
    ~~~(((amap.setWidth 32 &&& (1#32 <<< off.val)) >>> off.val) - 1) = 0 ↔
      amap.getLsbD off.val = false := by
  decide

structure CapHeader.WellFormed (h : CapHeader) : Prop where
  sized : h.size ≠ .err
  allowed : h.amap &&& ~~~h.size.mask = 0

theorem CapHeader.WellFormed.mask_of_amap {h : CapHeader} (wellFormed : h.WellFormed)
    (allocated : h.amap.getLsbD i = true) : h.size.mask.getLsbD i = true := by
  have bit := congrArg (fun bits => bits.getLsbD i) wellFormed.allowed
  have bounded : i < 4 := BitVec.lt_of_getLsbD allocated
  simpa [allocated, bounded] using bit

theorem CapSz.mask_disjoint (first : sz.mask.getLsbD i = true) (second : sz.mask.getLsbD j = true)
    (order : i < j) : i + 2 ^ sz.order ≤ j := by
  have boundedI : i < 4 := BitVec.lt_of_getLsbD first
  have boundedJ : j < 4 := BitVec.lt_of_getLsbD second
  cases sz <;> interval_cases i <;> interval_cases j <;>
    simp_all [CapSz.mask, CapSz.order]

theorem CapSz.mask_fits (starts : sz.mask.getLsbD i = true) : i + 2 ^ sz.order ≤ 4 := by
  have bounded : i < 4 := BitVec.lt_of_getLsbD starts
  cases sz <;> interval_cases i <;> simp_all [CapSz.mask, CapSz.order]

theorem CapSz.order_le (sized : sz ≠ .err) : sz.order ≤ 2 := by
  cases sz <;> simp_all [CapSz.order]

theorem lineOf_eq (slot : Nat) : lineOf slot = slot / 4 * 4 := rfl

theorem sub_lineOf (slot : Nat) : slot - lineOf slot = slot % 4 := by
  rw [lineOf_eq]
  omega

@[simp]
theorem lineOf_lineOf (slot : Nat) : lineOf (lineOf slot) = lineOf slot := by
  simp only [lineOf_eq]
  omega

section Leaf

variable {Body : Type*} {slot : Nat}

def active (leaf : Nat → Slot Body) (slot : Nat) : Bool :=
  (leaf (lineOf slot)).h.amap.getLsbD (slot % 4)

def cover (leaf : Nat → Slot Body) (slot : Nat) : Nat :=
  ctMsk slot (leaf (lineOf slot)).h.size.order

theorem lineOf_ctMsk {order : Nat} (small : order ≤ 2) :
    lineOf (ctMsk slot order) = lineOf slot := by
  simp only [lineOf, ctMsk]
  interval_cases order <;> omega

theorem lineOf_cover {leaf : Nat → Slot Body} (wellFormed : (leaf (lineOf slot)).h.WellFormed) :
    lineOf (cover leaf slot) = lineOf slot :=
  lineOf_ctMsk (CapSz.order_le wellFormed.sized)

theorem captblGetleaf_eq {leaf : Nat → Slot Body} (wellFormed : (leaf (lineOf slot)).h.WellFormed) :
    captblGetleaf leaf slot =
      if active leaf (cover leaf slot) then some (cover leaf slot) else none := by
  have line := lineOf_cover wellFormed
  have offset : cover leaf slot - lineOf slot = cover leaf slot % 4 := by
    rw [← line, sub_lineOf]
  have bit : active leaf (cover leaf slot) =
      (leaf (lineOf slot)).h.amap.getLsbD (cover leaf slot - lineOf slot) := by
    rw [active, line, offset]
  have slow := slowPath_iff (leaf (lineOf slot)).h.amap
    ⟨cover leaf slot % 4, Nat.mod_lt _ (by decide)⟩
  simp only [← offset, ← bit] at slow
  unfold captblGetleaf
  by_cases fast : (leaf (lineOf slot)).h.size = captblCap2sz .sinv ∧
      (leaf (lineOf slot)).h.amap.getLsbD
        (ctMsk slot (captblCap2sz .sinv).order - lineOf slot) = true
  · have start : cover leaf slot = ctMsk slot (captblCap2sz .sinv).order := by
      rw [cover, fast.1]
    simp only [if_pos fast]
    rw [bit, start, if_pos fast.2]
  · simp only [if_neg fast]
    cases allocated : active leaf (cover leaf slot) with
    | false => exact if_pos (slow.mpr allocated)
    | true => exact if_neg fun masked => by simp [slow.mp masked] at allocated

end Leaf

section Table

variable {Node Body : Type*}

theorem captblLkup_eq {root : CaptblRoot Node} {slots : Slots Node Body}
    (wellFormed : ∀ node slot, (slots node (lineOf slot)).h.WellFormed) (cap : Nat) :
    captblLkup root slots cap =
      (captblLkupan root (cap % captblMaxid)).bind fun (node, slot) =>
        if active (slots node) (cover (slots node) slot) then
          some (node, cover (slots node) slot)
        else none := by
  unfold captblLkup
  cases captblLkupan root (cap % captblMaxid) with
  | none => rfl
  | some address =>
    obtain ⟨node, slot⟩ := address
    simp only [Option.bind_some, captblGetleaf_eq (wellFormed node slot)]
    split_ifs <;> rfl

end Table

end Composite
