import Composite.Kernel.Pgtbl.Mapping

/-!
# Pages of kernel objects

A frame becomes a kernel page by the mark `PGTBL_COSKMEM` on its entry, and is
given back when the object is deactivated, or at once when the activation fails
in a later step.
-/

namespace Composite

open Procedure Kernel

/-- `cap_kmem_activate`: the page, and the address of the entry of its frame. -/
def capKmemActivate (cpu t cap addr : Nat) : KCall (Nat × ErtIntern) := do
  let found ← lkup t cap
  let (_, slot) ← orLeave (-Errno.enoent) found
  let pgtblc ← orLeave (-Errno.einval) slot.pgtbl?
  leaveIf (pgtblc.lvl ≠ 0) (-Errno.einval)
  pgtblKmemAct cpu pgtblc.table addr

def kmemUnalloc (cpu : Nat) (pte : ErtIntern) : KCall Unit := do
  let old ← pte.next
  require old.flags.coskmem .assertion
  let _ ← code (retypetblDeref cpu old.frame)
  pte.store (old.setCoskmem false)
  onMemory (·.setKobj old.frame .none)

def Pte.lowBytesZero (pte : Pte) : Bool :=
  pte.flags = .empty && decide (pte.frame % 2 ^ 12 = 0)

/-- `kmem_page_scan` on a page directory.  The address advances by one byte for
every word, so that the scan ends within the first quarter of what it should
cover. -/
def kmemPageScanPgd (words : Nat → Pte) (bytes : Nat) : Int :=
  if (List.range (bytes / 4 / 4)).all (fun i => words i = .zero) ∧
      (words (bytes / 4 / 4)).lowBytesZero then 0
  else -Errno.einval

/-- `kmem_page_scan` on the root of a capability table.  The address of a leaf
node is that of a page, or of the middle of one. -/
def kmemPageScanCaptbl (root : CaptblRoot Node) (bytes : Nat) : Int :=
  if (List.range (bytes / 4 / 4)).all (fun i => (root i).isNone) ∧
      (root (bytes / 4 / 4)).all (fun node => !node.2 && decide (node.1 % 2 ^ 12 = 0)) then 0
  else -Errno.einval

def captblLeaflvlScan (k : Kernel) (leaf : Nat → Slot CapBody) : Int :=
  (((List.range 32).map fun i =>
    let h := (leaf (4 * i)).h
    if h.amap ≠ 0 then -Errno.einval
    else lineQuiescence k.ltbl k.tsc leaf (4 * i) h.size).find? (· ≠ 0)).getD 0

def captblKmemScan (k : Kernel) (page : Nat) : Int :=
  let ret := captblLeaflvlScan k (k.slots (page, false))
  if ret ≠ 0 then ret else captblLeaflvlScan k (k.slots (page, true))

def pageSize : Nat := 4096

def kernelPgdRegionSize : Nat := pageSize / 4

/-- The part of `kmem_deact_pre` that capability tables and page tables share:
the table has to be frozen and quiescent, and the scan of its page to succeed.
A failed scan thaws the table. -/
def kmemDeactScan (cpu : Nat) (addr : CapAddr) (setTable : CapTable → CapBody) (cap : CapTable)
    (scan : KCall Int) : KCall Unit := do
  let l := cap.refcntFlags
  let k ← read id
  leaveIf (¬isFrozen l) (-Errno.equiescence)
  leaveIf (if cap.lvl = 0 then ¬tlbQuiescenceCheck k.tlb cpu cap.frozenTs
    else ¬quiescenceCheck k.tsc cap.frozenTs kernQuiescenceCycles) (-Errno.equiescence)
  setBody addr (setTable { cap with refcntFlags := l ||| capMemScanFlag })
  let ret ← scan
  if ret ≠ 0 then do
    setBody addr (setTable { cap with refcntFlags := refcntOf l })
    leave ret
  else setBody addr (setTable cap)

/-- The second half of `kmem_deact_pre`: the capability at `addr` has to be about
the page that the entry `old` holds, and the page may be given back. -/
def kmemDeactCheck (cpu : Nat) (addr : CapAddr) (old : Pte) : KCall Unit := do
  let k ← read id
  match (k.slots addr.1 addr.2).post with
  | .captbl cap => do
      leaveIf (chalPa2va old.frame ≠ chalPa2va cap.table) (-Errno.einval)
      kmemDeactScan cpu addr .captbl cap do
        let k ← read id
        if cap.lvl < 1 then pure (kmemPageScanCaptbl (k.roots cap.table) pageSize)
        else do
          require (cap.lvl = 1) .assertion
          pure (captblKmemScan k cap.table)
  | .pgtbl cap => do
      leaveIf (chalPa2va old.frame ≠ cap.table) (-Errno.einval)
      kmemDeactScan cpu addr .pgtbl cap <| read fun k =>
        if cap.lvl = 0 then
          kmemPageScanPgd (k.memory.words old.frame) (pageSize - kernelPgdRegionSize)
        else if cap.lvl = pgtblDepth - 1 then pgtblMappingScan cpu k old.frame
        else kmemPageScanPgd (k.memory.words old.frame) pageSize
  | .thd tc => leaveIf (chalPa2va old.frame ≠ chalPa2va tc.t) (-Errno.einval)
  | _ => fault .assertion

/-- `kmem_deact_pre`: the address and the value of the entry of the frame.  The
check of the lookup looks at the wrong pointer and never fails. -/
def kmemDeactPre (cpu : Nat) (addr : CapAddr) (ct pgtblCap cosframeAddr : Nat) :
    KCall (ErtIntern × Pte) := do
  leaveIf (pgtblCap = 0 ∨ cosframeAddr = 0) (-Errno.einval)
  let found ← lkup ct pgtblCap
  let capPt ← orLeave (-Errno.einval) (found.bind fun (_, slot) => slot.pgtbl?)
  let found ← pgtblLkupPte cpu capPt.table (pageOf cosframeAddr)
  let (pte, _) ← orFault .dereference found
  let old ← pte.next
  leaveIf (¬old.flags.coskmem) (-Errno.einval)
  require (¬old.flags.quiescence) .assertion
  kmemDeactCheck cpu addr old
  pure (pte, old)

def kmemDeactPost (cpu : Nat) (pte : ErtIntern) (old : Pte) : KCall Unit := do
  pte.store (old.setCoskmem false)
  let ret ← code (retypetblDeref cpu old.frame)
  if ret ≠ 0 then do
    pte.store old
    leave ret
  else onMemory fun m => (m.setPage old.frame fun _ => .zero).setKobj old.frame .none

end Composite
