import Composite.Kernel.State

/-!
# The retype table, one call at a time

The functions of `retype_tbl.c` when no other core works on the same memory set
in the meantime.  Then no compare-and-swap fails, and the loops over the cores
read or write the entries of all cores at once.
-/

namespace Composite

open Procedure Kernel

/-- `PA_BOUNDARY_CHECK` passes. -/
def paBoundary (chalKernelMemPa page : Nat) : Prop :=
  cosMemStart ≤ page ∧ page < cosMemBound ∨
    chalKernelMemPa ≤ page ∧ page < chalKernelMemPa + cosMaxMemory

instance (chalKernelMemPa page : Nat) : Decidable (paBoundary chalKernelMemPa page) :=
  inferInstanceAs (Decidable (_ ∨ _))

/-- `FIXED_UMEM_PA_BOUNDARY_CHECK`: memory above the bound is user memory for
good, and a call on it has nothing to do. -/
def isFixedUmem (page : Nat) : Bool := decide (cosMemBound ≤ page)

/-- `mod_ref_cnt` on a page that the table covers. -/
def modRefCntSet (cpu page : Nat) (op : Bool) (typeCheck : Option MemType) : KCall Unit := do
  let k ← read id
  leaveIf (¬paBoundary k.chalKernelMemPa page) (-Errno.einval)
  let entry := k.memory.entries cpu page
  let old := entry.refcntAtom
  leaveIf (old.type ≠ .user ∧ old.type ≠ .kern) (-Errno.eperm)
  leaveIf (typeCheck.any (· ≠ old.type)) (-Errno.eperm)
  leaveIf (old.refCnt = retypeRefcntMax) (-Errno.eoverflow)
  onMemory fun m => m.setEntry cpu page <|
    if op then entry.setRefCnt (refcntField (old.refCnt + 1))
    else { entry.setRefCnt (refcntField (old.refCnt - 1)) with lastUnmap := k.tsc }

def modRefCnt (cpu page : Nat) (op : Bool) (typeCheck : Option MemType) : KCall Unit :=
  if isFixedUmem page then pure () else modRefCntSet cpu page op typeCheck

def retypetblKernRef (cpu page : Nat) : KCall Unit := modRefCnt cpu page true (some .kern)

def retypetblRef (cpu page : Nat) : KCall Unit := modRefCnt cpu page true none

def retypetblDeref (cpu page : Nat) : KCall Unit := modRefCnt cpu page false none

def Memory.setMemType (m : Memory) (page : Nat) (type : MemType) : Memory :=
  { m with
    glb := Function.update m.glb page type
    entries := fun cpu =>
      if cpu < numCpu then
        Function.update (m.entries cpu) page ((m.entries cpu page).setType type)
      else m.entries cpu }

/-- `mod_mem_type` on a page that the table covers. -/
def modMemTypeSet (page : Nat) (type : MemType) : KCall Unit := do
  let k ← read id
  leaveIf (¬paBoundary k.chalKernelMemPa page) (-Errno.einval)
  let oldType := k.memory.glb page
  leaveIf (oldType ≠ .untyped ∧ oldType = type) (-Errno.eexist)
  leaveIf (oldType ≠ .untyped) (-Errno.eperm)
  leaveIf (type = .kern ∧ chalPa2va page = 0) (-Errno.einval)
  onMemory (·.setMemType page type)

def modMemType (page : Nat) (type : MemType) : KCall Unit := do
  require (page ≠ 0) .assertion
  if isFixedUmem page then pure () else modMemTypeSet page type

def retypetblRetype2user (page : Nat) : KCall Unit := modMemType page .user

def retypetblRetype2kern (page : Nat) : KCall Unit := modMemType page .kern

def Memory.refSum (m : Memory) (page : Nat) : Int :=
  ((List.range numCpu).map fun cpu => (m.entries cpu page).refcntAtom.refCnt).sum

def Memory.lastUnmap (m : Memory) (page : Nat) : Nat :=
  (List.range numCpu).foldl (fun last cpu => max last (m.entries cpu page).lastUnmap) 0

def Memory.clearRefCnt (m : Memory) (page : Nat) : Memory :=
  { m with
    entries := fun cpu =>
      if cpu < numCpu then
        Function.update (m.entries cpu) page ((m.entries cpu page).setRefCnt 0)
      else m.entries cpu }

/-- `retypetbl_retype2frame`.  It locks the entries of all cores by giving them
the type `retyping`, and gives them their old type back when the set cannot be
released. -/
def retypetblRetype2frame (cpu page : Nat) : KCall Unit := do
  let k ← read id
  leaveIf (¬paBoundary k.chalKernelMemPa page) (-Errno.einval)
  let oldType := k.memory.glb page
  leaveIf (oldType ≠ .user ∧ oldType ≠ .kern) (-Errno.eperm)
  require (∀ i < numCpu, (k.memory.entries i page).refcntAtom.type = oldType ∨
    (k.memory.entries i page).refcntAtom.type = .retyping) .assertion
  onMemory (·.setMemType page .retyping)
  if k.memory.refSum page ≠ 0 then
    onMemory (·.setMemType page oldType)
    leave (-Errno.einval)
  else if ¬tlbQuiescenceCheck k.tlb cpu (k.memory.lastUnmap page) then
    onMemory (·.setMemType page oldType)
    leave (-Errno.equiescence)
  else
    onMemory fun m => (m.clearRefCnt page).setMemType page .untyped

end Composite
