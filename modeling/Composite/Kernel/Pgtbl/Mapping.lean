import Composite.Kernel.Pgtbl.Walk
import Composite.Kernel.Retype.Calls

/-!
# Mappings and frames

The functions of `pgtbl.h` and `pgtbl.c` that add, remove and check entries of
page tables.
-/

namespace Composite

open Procedure Kernel

/-- The address is that of a page, `PGTBL_FLAG_MASK & addr` being zero. -/
def pageAligned (addr : Nat) : Prop := addr % 2 ^ 12 = 0

instance (addr : Nat) : Decidable (pageAligned addr) := inferInstanceAs (Decidable (_ = _))

/-- `addr >> PGTBL_PAGEIDX_SHIFT`. -/
def pageOf (addr : Nat) : Nat := addr / 2 ^ 12

def pgtblQuieCheck (cpu : Nat) (orig : Pte) : KCall Unit := do
  let k ← read id
  if orig.flags.quiescence then do
    require (orig.frame < ltblEnts) .assertion
    let ts ← orLeave (-Errno.efault) (ltblGetTimestamp k.ltbl orig.frame)
    leaveIf (¬tlbQuiescenceCheck k.tlb cpu ts) (-Errno.equiescence)
  else pure ()

def pgtblMappingAdd (cpu pt addr page : Nat) (flags : PteFlags) : KCall Unit := do
  require (pt ≠ 0) .assertion
  let found ← pgtblLkupPte cpu pt (pageOf addr)
  let (pte, _) ← orLeave (-Errno.enoent) found
  let orig ← pte.next
  leaveIf orig.flags.present (-Errno.eexist)
  leaveIf orig.flags.cosframe (-Errno.eperm)
  pgtblQuieCheck cpu orig
  retypetblRef cpu page
  pte.store ⟨page, flags⟩

/-- `pgtbl_mapping_del`.  The result of the lookup is used unchecked. -/
def pgtblMappingDel (cpu pt addr livId : Nat) : KCall Unit := do
  require (pt ≠ 0) .assertion
  require (pageAligned addr) .assertion
  leaveIf (livId ≥ 2 ^ 20) (-Errno.einval)
  let k ← read id
  let ltbl ← orLeave (-Errno.einval) (ltblTimestampUpdate k.ltbl k.tsc livId)
  update fun k => { k with ltbl := ltbl }
  let found ← pgtblLkupPte cpu pt (pageOf addr)
  let (pte, _) ← orFault .dereference found
  let orig ← pte.next
  leaveIf (¬orig.flags.present) (-Errno.eexist)
  leaveIf orig.flags.cosframe (-Errno.eperm)
  pte.store (.unmapped livId)
  retypetblDeref cpu orig.frame

def pgtblGetCosframe (cpu pt frameAddr : Nat) : KCall Nat := do
  let found ← pgtblLkupPte cpu pt (pageOf frameAddr)
  let (pte, _) ← orLeave (-Errno.einval) found
  let v ← pte.next
  leaveIf (¬v.flags.cosframe) (-Errno.einval)
  pure v.frame

/-- `pgtbl_kmem_act`: the page of the frame, and the address of its entry. -/
def pgtblKmemAct (cpu pt addr : Nat) : KCall (Nat × ErtIntern) := do
  require (pt ≠ 0) .assertion
  let found ← pgtblLkupPte cpu pt (pageOf addr)
  let (pte, _) ← orLeave (-Errno.enoent) found
  let orig ← pte.next
  leaveIf orig.isNull (-Errno.enoent)
  leaveIf (¬orig.flags.cosframe) (-Errno.einval)
  leaveIf orig.flags.coskmem (-Errno.eexist)
  require (¬orig.flags.quiescence) .assertion
  leaveIf (chalPa2va orig.frame = 0) (-Errno.einval)
  let ret ← code (retypetblKernRef cpu orig.frame)
  leaveIf (ret ≠ 0) (-Errno.efault)
  pte.store (orig.setCoskmem true)
  let page ← pageAt cpu (chalPa2va orig.frame)
  pure (page, pte)

/-- `pgtbl_mapping_scan`, on the page of a page table of the last level. -/
def pgtblMappingScan (cpu : Nat) (k : Kernel) (page : Nat) : Int :=
  let scan (word : Pte) : Int :=
    if word.flags.present ∨ word.flags.cosframe then -Errno.einval
    else if word.flags.quiescence then
      match ltblGetTimestamp k.ltbl word.frame with
      | none => -Errno.efault
      | some past => if tlbQuiescenceCheck k.tlb cpu past then 0 else -Errno.equiescence
    else 0
  (((List.range 1024).map fun i => scan (k.memory.words page i)).find? (· ≠ 0)).getD 0

def pgtblInitPte (page : Nat) : KCall Unit :=
  onMemory fun m => (m.setPage page fun _ => .zero).setKobj page .pte

/-- `pgtbl_create`: an empty directory with the kernel quarter of the current
one. -/
def pgtblCreate (page currPgtbl : Nat) : KCall Unit :=
  onMemory fun m =>
    let m := m.setPage page fun _ => .zero
    (m.setPage page fun i =>
      if kernelPgdIndex ≤ i then m.words currPgtbl i else .zero).setKobj page .pgd

end Composite
