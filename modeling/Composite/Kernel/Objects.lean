import Composite.Kernel.CapOps

/-!
# Activation and deactivation of kernel objects

Every function takes the number of the core it runs on, the capability table of
the caller and the arguments of the system call.  An activation that needs a
page first makes the page kernel memory, and gives it back when the capability
cannot be added.
-/

namespace Composite

open Procedure Kernel

/-! Capability tables and page tables. -/

/-- `captbl_init` on a leaf node. -/
def captblInitLeaf (slots : Slots Node CapBody) (node : Node) : Slots Node CapBody :=
  Function.update slots node fun i => { slots node i with h := captblInitHeader }

/-- `captbl_create`: the first half of the page is the root, the second half its
first leaf node. -/
def captblCreate (page : Nat) : KCall Unit :=
  update fun k => { k with
    memory := k.memory.setKobj page .captblRoot
    roots := Function.update k.roots page fun i => if i = 0 then some (page, true) else none
    slots := captblInitLeaf k.slots (page, true) }

/-- `captbl_init` on both halves of a page. -/
def captblInitNodes (page : Nat) : KCall Unit :=
  update fun k => { k with
    memory := k.memory.setKobj page .captblLeaf
    slots := captblInitLeaf (captblInitLeaf k.slots (page, false)) (page, true) }

def newTable (table lvl : Nat) : CapTable := ⟨1, table, lvl, none, 0⟩

def captblActivate (t cap capin toadd lvl : Nat) : KCall Unit := do
  let addr ← capCapactivatePre t cap capin .captbl
  setBody addr (.captbl (newTable toadd lvl))

def pgtblActivate (t cap capin pgtbl lvl : Nat) : KCall Unit := do
  let addr ← capCapactivatePre t cap capin .pgtbl
  setBody addr (.pgtbl (newTable pgtbl lvl))

def finishActivation (cpu : Nat) (pte : ErtIntern) (activate : KCall Unit) : KCall Unit := do
  let ret ← code activate
  if ret ≠ 0 then do
    kmemUnalloc cpu pte
    leave ret
  else pure ()

def captblInitPage (page captblLvl : Nat) : KCall Unit :=
  if captblLvl = 0 then captblCreate page else captblInitNodes page

/-- `CAPTBL_OP_CAPTBLACTIVATE`. -/
def opCaptblActivate (cpu ct cap newcaptblCap pgtblCap kmemCap captblLvl : Nat) : KCall Unit := do
  let (page, pte) ← capKmemActivate cpu ct pgtblCap kmemCap
  captblInitPage page captblLvl
  finishActivation cpu pte (captblActivate ct cap newcaptblCap page captblLvl)

/-- `CAPTBL_OP_PGTBLACTIVATE`. -/
def opPgtblActivate (cpu ct cap ptEntry pgtblCap kmemCap pgtblLvl : Nat) : KCall Unit := do
  let (page, pte) ← capKmemActivate cpu ct pgtblCap kmemCap
  if pgtblLvl = 0 then do
    let found ← lkup ct pgtblCap
    let capPt ← orLeave (-Errno.einval) (found.bind fun (_, slot) => slot.pgtbl?)
    require (capPt.table ≠ 0) .assertion
    pgtblCreate page capPt.table
    finishActivation cpu pte (pgtblActivate ct cap ptEntry page 0)
  else if pgtblLvl = 1 then do
    pgtblInitPte page
    finishActivation cpu pte (pgtblActivate ct cap ptEntry (chalPa2va page) 1)
  else finishActivation cpu pte (leave (-1))

def captblDeactivate (cpu t : Nat) (destCt : CapTable) (capin lid pgtblCap cosframeAddr : Nat)
    (root : Bool) : KCall Unit := do
  let found ← lkup destCt.table capin
  let (addr, cap) ← orLeave (-Errno.einval)
    (found.bind fun (addr, slot) => slot.captbl?.map fun cap => (addr, cap))
  leaveIf (refcntOf cap.refcntFlags = 0) (-Errno.efault)
  leaveIf (refcntOf cap.refcntFlags ≠ 1) (-Errno.einval)
  match cap.parent with
  | none => do
      leaveIf (¬root) (-Errno.einval)
      let (pte, old) ← kmemDeactPre cpu addr t pgtblCap cosframeAddr
      capCapdeactivate destCt capin .captbl lid
      modRefcntFlags addr fun _ => capMemFrozenFlag
      let ret ← code (kmemDeactPost cpu pte old)
      if ret ≠ 0 then do
        modRefcntFlags addr refcntInc
        leave ret
      else pure ()
  | some parent => do
      leaveIf root (-Errno.einval)
      require (pgtblCap = 0 ∧ cosframeAddr = 0) .assertion
      capCapdeactivate destCt capin .captbl lid
      modRefcntFlags addr fun _ => capMemFrozenFlag
      modRefcntFlags parent refcntDec

/-- `pgtbl_deactivate`.  The page is given back before the capability is removed. -/
def pgtblDeactivate (cpu t : Nat) (destCt : CapTable) (capin lid pgtblCap cosframeAddr : Nat)
    (root : Bool) : KCall Unit := do
  let found ← lkup destCt.table capin
  let (addr, cap) ← orLeave (-Errno.einval)
    (found.bind fun (addr, slot) => slot.pgtbl?.map fun cap => (addr, cap))
  require (refcntOf cap.refcntFlags ≠ 0) .assertion
  leaveIf (refcntOf cap.refcntFlags ≠ 1) (-Errno.einval)
  match cap.parent with
  | none => do
      leaveIf (¬root) (-Errno.einval)
      let (pte, old) ← kmemDeactPre cpu addr t pgtblCap cosframeAddr
      modRefcntFlags addr fun _ => capMemFrozenFlag
      let ret ← code (kmemDeactPost cpu pte old)
      if ret ≠ 0 then do
        modRefcntFlags addr refcntInc
        leave ret
      else capCapdeactivate destCt capin .pgtbl lid
  | some parent => do
      leaveIf root (-Errno.einval)
      require (pgtblCap = 0 ∧ cosframeAddr = 0) .assertion
      modRefcntFlags addr fun _ => capMemFrozenFlag
      modRefcntFlags parent refcntDec
      capCapdeactivate destCt capin .pgtbl lid

end Composite
