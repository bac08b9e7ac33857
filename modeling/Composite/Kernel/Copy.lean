import Composite.Kernel.Endpoints

/-!
# Copying and moving

`cap_cpy`, `cap_move` and `cap_memactivate`: capabilities go from one capability
table to another, and mappings and frames from one page table to another.
-/

namespace Composite

open Procedure Kernel

def copyTable (source target : CapAddr) : KCall Unit := do
  let (parent, body) ← tableAt source
  let l := parent.refcntFlags
  leaveIf (isFrozen l) (-Errno.einval)
  leaveIf (refcntOf l = capRefcntMax) (-Errno.eoverflow)
  modRefcntFlags source refcntInc
  let (child, _) ← tableAt target
  setBody target (body { child with refcntFlags := 1, parent := some source })

def copyReference (source target : CapAddr) : CapBody → KCall Unit
  | .thd tc => onThread tc.t fun t => { t with refcnt := t.refcnt + 1 }
  | .captbl _ | .pgtbl _ => copyTable source target
  | _ => pure ()

/-- The branch of `cap_cpy` between capability tables.  The capability is active
before the reference count of the original is looked at. -/
def captblCpy (t capTo capinTo ctFrom capinFrom : Nat) : KCall Unit := do
  let found ← lkup ctFrom capinFrom
  let (addr, slot) ← orLeave (-Errno.enoent) found
  let added ← attempt (capCapactivatePre t capTo capinTo slot.h.type)
  let target ← orLeave (-Errno.einval) added.toOption
  let k ← read id
  let body := (k.slots addr.1 addr.2).post
  setBody target body
  copyReference addr target body

/-- The branch of `cap_cpy` between page tables. -/
def pgtblCpy (cpu t capTo capinTo : Nat) (ctFrom : CapTable) (capinFrom : Nat) : KCall Unit := do
  let found ← lkup t capTo
  let (_, target) ← orLeave (-Errno.enoent) found
  let target ← orLeave (-Errno.einval) target.pgtbl?
  leaveIf (isFrozen target.refcntFlags) (-Errno.einval)
  let found ← pgtblLkupPte cpu ctFrom.table (pageOf capinFrom)
  let (f, flags) ← orLeave (-Errno.enoent) found
  let old ← f.next
  leaveIf (old.flags.cosframe ∨ ¬old.flags.user) (-Errno.eperm)
  pgtblMappingAdd cpu target.table capinTo old.frame flags

def capCpy (cpu t capTo capinTo capFrom capinFrom : Nat) : KCall Unit := do
  let found ← lkup t capFrom
  let (_, ctFrom) ← orLeave (-Errno.enoent) found
  match ctFrom.captbl?, ctFrom.pgtbl? with
  | some ct, _ => captblCpy t capTo capinTo ct.table capinFrom
  | none, some pt => pgtblCpy cpu t capTo capinTo pt capinFrom
  | none, none => leave (-Errno.einval)

/-- The copy within `cap_move`. -/
def captblMoveTo (t capTo capinTo : Nat) (addr : CapAddr) (slot : Slot CapBody) : KCall Unit :=
  if capTo = 0 then pure ()
  else do
    let added ← attempt (capCapactivatePre t capTo capinTo slot.h.type)
    let target ← orLeave (-Errno.einval) added.toOption
    let k ← read id
    setBody target (k.slots addr.1 addr.2).post

/-- The branch of `cap_move` between capability tables.  Whether the capability
could be removed from its old place is not looked at. -/
def captblMove (t capTo capinTo capFrom ctFrom capinFrom : Nat) : KCall Unit := do
  let found ← lkup ctFrom capinFrom
  let (addr, slot) ← orLeave (-Errno.enoent) found
  captblMoveTo t capTo capinTo addr slot
  let found ← lkup t capFrom
  match found.bind fun (_, slot) => slot.captbl? with
  | none => pure ()
  | some ct => do
      let _ ← code (capCapdeactivate ct capinFrom slot.h.type 0)

/-- The branch of `cap_move` between page tables, which moves frames, for the outcomes of its two
compare-and-swaps. -/
def pgtblMoveCas (first second : Bool) (cpu t capTo capinTo : Nat) (ctFrom : CapTable)
    (capinFrom : Nat) : KCall Unit := do
  let found ← lkup t capTo
  let (_, target) ← orLeave (-Errno.enoent) found
  let target ← orLeave (-Errno.einval) target.pgtbl?
  leaveIf (isFrozen target.refcntFlags) (-Errno.einval)
  let found ← pgtblLkupPte cpu ctFrom.table (pageOf capinFrom)
  let (f, _) ← orLeave (-Errno.enoent) found
  let old ← f.next
  let found ← pgtblLkupPte cpu target.table (pageOf capinTo)
  let (moveto, _) ← orLeave (-Errno.enoent) found
  let oldTo ← moveto.next
  leaveIf (¬old.flags.cosframe) (-Errno.eperm)
  leaveIf oldTo.flags.isPresent (-Errno.eperm)
  pgtblQuieCheck cpu oldTo
  leaveIf (first = false) (-Errno.ecasfail)
  f.store .zero
  leaveIf (second = false) (-Errno.ecasfail)
  moveto.store old

def capMoveCas (first second : Bool) (cpu t capTo capinTo capFrom capinFrom : Nat) :
    KCall Unit := do
  let found ← lkup t capFrom
  let (_, ctFrom) ← orLeave (-Errno.enoent) found
  match ctFrom.captbl?, ctFrom.pgtbl? with
  | some ct, _ => captblMove t capTo capinTo capFrom ct.table capinFrom
  | none, some pt => pgtblMoveCas first second cpu t capTo capinTo pt capinFrom
  | none, none => leave (-Errno.einval)

/-- `cap_move` when no other core changes the entries. -/
def capMove : Nat → Nat → Nat → Nat → Nat → Nat → KCall Unit := capMoveCas true true

/-- `cap_memactivate`.  The lookup of the destination is used unchecked. -/
def capMemactivate (cpu ct : Nat) (pt : CapTable) (frameCap destPt vaddr : Nat) : KCall Unit := do
  leaveIf (pt.lvl ≠ 0 ∨ isFrozen pt.refcntFlags) (-Errno.einval)
  let found ← lkup ct destPt
  let (_, dest) ← orFault .dereference found
  let dest ← orLeave (-Errno.einval) dest.pgtbl?
  leaveIf (dest.lvl ≠ 0) (-Errno.einval)
  let found ← pgtblLkupPte cpu pt.table (pageOf frameCap)
  let (pte, _) ← orLeave (-Errno.einval) found
  let orig ← pte.next
  leaveIf (¬orig.flags.cosframe ∨ orig.flags.coskmem) (-Errno.eperm)
  require (¬orig.flags.quiescence) .assertion
  pgtblMappingAdd cpu dest.table vaddr orig.frame .userDef

end Composite
