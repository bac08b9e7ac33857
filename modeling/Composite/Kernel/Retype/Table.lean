import Mathlib.Data.Int.ModEq
import Composite.Kernel.Config

/-!
# Entries of the retype table

A memory set has one entry per core, with its type and reference count packed
in one word that is changed by compare-and-swap, and one global type word.
-/

namespace Composite

/-- `mem_type_t`. -/
inductive MemType where
  | untyped
  | user
  | kern
  | retyping
  deriving DecidableEq, Repr

/-- `RETYPE_REFCNT_MAX`, the largest value of an unsigned 28-bit field. -/
def retypeRefcntMax : Int := 2 ^ 28 - 1

def refcntField (value : Int) : Int := Int.bmod value (2 ^ 28)

/-- `union refcnt_atom`: the word the compare-and-swap works on. -/
structure RefcntAtom where
  type : MemType
  refCnt : Int
  deriving DecidableEq, Repr

structure RetypeEntry where
  refcntAtom : RefcntAtom
  lastUnmap : Nat
  deriving DecidableEq, Repr

namespace RetypeEntry

def setType (entry : RetypeEntry) (type : MemType) : RetypeEntry :=
  { entry with refcntAtom := { entry.refcntAtom with type := type } }

def setRefCnt (entry : RetypeEntry) (refCnt : Int) : RetypeEntry :=
  { entry with refcntAtom := { entry.refcntAtom with refCnt := refCnt } }

@[simp]
theorem setType_refcntAtom (entry : RetypeEntry) (type : MemType) :
    (entry.setType type).refcntAtom = ⟨type, entry.refcntAtom.refCnt⟩ := rfl

@[simp]
theorem setType_lastUnmap (entry : RetypeEntry) (type : MemType) :
    (entry.setType type).lastUnmap = entry.lastUnmap := rfl

@[simp]
theorem setRefCnt_refcntAtom (entry : RetypeEntry) (refCnt : Int) :
    (entry.setRefCnt refCnt).refcntAtom = ⟨entry.refcntAtom.type, refCnt⟩ := rfl

@[simp]
theorem setRefCnt_lastUnmap (entry : RetypeEntry) (refCnt : Int) :
    (entry.setRefCnt refCnt).lastUnmap = entry.lastUnmap := rfl

end RetypeEntry

/-- `struct tlb_quiescence` of one core. -/
structure TlbQuiescence where
  lastPeriodicFlush : Nat
  lastMandatoryFlush : Nat
  deriving DecidableEq, Repr

/-- Has the TLB been flushed since `timestamp`, as far as core `cpu` can tell?
The periodic flush happens on all cores, so that its own record is enough. -/
def tlbQuiescenceCheck (tlb : Nat → TlbQuiescence) (cpu timestamp : Nat) : Bool :=
  if timestamp > (tlb cpu).lastPeriodicFlush then
    (List.range numCpuCos).all fun i => !decide (timestamp > (tlb i).lastMandatoryFlush)
  else true

theorem tlbQuiescenceCheck_iff (tlb : Nat → TlbQuiescence) (cpu timestamp : Nat) :
    tlbQuiescenceCheck tlb cpu timestamp = true ↔
      timestamp ≤ (tlb cpu).lastPeriodicFlush ∨
        ∀ i < numCpuCos, timestamp ≤ (tlb i).lastMandatoryFlush := by
  unfold tlbQuiescenceCheck
  split
  next late =>
    simp only [List.all_eq_true, List.mem_range, Bool.not_eq_true', decide_eq_false_iff_not,
      not_lt]
    constructor
    · exact fun flushed => .inr flushed
    · rintro (early | flushed)
      · omega
      · exact flushed
  next early => exact ⟨fun _ => .inl (by omega), fun _ => rfl⟩

theorem tlbQuiescenceCheck_mono {tlb tlb' : Nat → TlbQuiescence} {cpu earlier later : Nat}
    (ordered : earlier ≤ later)
    (periodic : ∀ i, (tlb i).lastPeriodicFlush ≤ (tlb' i).lastPeriodicFlush)
    (mandatory : ∀ i, (tlb i).lastMandatoryFlush ≤ (tlb' i).lastMandatoryFlush)
    (checked : tlbQuiescenceCheck tlb cpu later = true) :
    tlbQuiescenceCheck tlb' cpu earlier = true := by
  rw [tlbQuiescenceCheck_iff] at checked ⊢
  rcases checked with flushed | flushed
  · exact .inl (ordered.trans (flushed.trans (periodic cpu)))
  · exact .inr fun i bounded => ordered.trans ((flushed i bounded).trans (mandatory i))

end Composite
