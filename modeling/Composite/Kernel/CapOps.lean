import Composite.Kernel.Kmem

/-!
# Operations on capability tables and page tables

The functions of `cap_ops.h` and `captbl.c` that put capabilities into tables and
take them out, and that build tables from nodes and take them apart.
-/

namespace Composite

open Procedure Kernel

def capCapactivatePre (t cap capin : Nat) (type : CapType) : KCall CapAddr := do
  let found ← lkup t cap
  let ct ← orLeave (-Errno.einval) (found.bind fun (_, slot) => slot.captbl?)
  leaveIf (isFrozen ct.refcntFlags) (-Errno.einval)
  add ct.table capin type

def capCapdeactivate (ct : CapTable) (capin : Nat) (type : CapType) (lid : Nat) : KCall Unit :=
  clear ct.table capin type lid

def tableAt (addr : CapAddr) : KCall (CapTable × (CapTable → CapBody)) := do
  let slots ← read (·.slots)
  match (slots addr.1 addr.2).post with
  | .captbl table => pure (table, .captbl)
  | .pgtbl table => pure (table, .pgtbl)
  | _ => fault .dereference

/-- `cos_faa` on the reference count of the table at `addr`. -/
def modRefcntFlags (addr : CapAddr) (change : Nat → Nat) : KCall Unit := do
  let (table, body) ← tableAt addr
  setBody addr (body { table with refcntFlags := change table.refcntFlags })

/-- `captbl_expand` down to the leaf nodes, with the node to link. -/
def captblExpand (t cap : Nat) (memctxt : Option Node) : KCall Unit := do
  leaveIf (cap ≥ captblMaxid) (-Errno.einval)
  let k ← read id
  require (k.memory.kobj t = .captblRoot) .dereference
  match k.roots t (cap / 2 ^ 7), memctxt with
  | some _, some _ => leave (-Errno.eexist)
  | some _, none => pure ()
  | none, none => leave 1
  | none, some node =>
    update fun k => { k with
      roots := Function.update k.roots t
        (Function.update (k.roots t) (cap / 2 ^ 7) (some node)) }

/-- `captbl_cons`.  The expansion with which it tries to rewind leaves an entry
that is present as it is. -/
def captblCons (targetCt consCap : CapTable) (consAddr : CapAddr) (addr : Nat) : KCall Unit := do
  leaveIf (targetCt.lvl ≠ 0) (-Errno.einval)
  leaveIf (consCap.lvl ≠ 1) (-Errno.einval)
  let l := consCap.refcntFlags
  leaveIf (isFrozen l ∨ isFrozen targetCt.refcntFlags) (-Errno.einval)
  leaveIf (refcntOf l = capRefcntMax) (-Errno.eoverflow)
  modRefcntFlags consAddr refcntInc
  let ret ← code (captblExpand targetCt.table addr (some (consCap.table, false)))
  if ret ≠ 0 then do
    modRefcntFlags consAddr refcntDec
    leave ret
  else do
    let ret ← code (captblExpand targetCt.table (addr + 128) (some (consCap.table, true)))
    if ret ≠ 0 then do
      let _ ← code (captblExpand targetCt.table addr none)
      modRefcntFlags consAddr refcntDec
      leave ret
    else pure ()

/-- The branch of `cap_cons` for page tables. -/
def pgtblCons (cpu : Nat) (ct ctsub : CapTable) (subAddr : CapAddr) (expandid : Nat) :
    KCall Unit := do
  let found ← pgtblLkupLvl cpu ct.table (pageOf expandid) ct.lvl ctsub.lvl
  let (intern, _) ← orLeave (-Errno.enoent) found
  let old ← intern.next
  leaveIf old.flags.isPresent (-Errno.eperm)
  leaveIf (isFrozen ctsub.refcntFlags) (-Errno.einval)
  leaveIf (refcntOf ctsub.refcntFlags = capRefcntMax) (-Errno.eoverflow)
  modRefcntFlags subAddr refcntInc
  intern.store ⟨chalVa2pa ctsub.table, .internDef⟩

def capCons (cpu t capto capsub expandid : Nat) : KCall Unit := do
  leaveIf (capto = capsub) (-Errno.einval)
  let found ← lkup t capto
  let (_, ct) ← orLeave (-Errno.enoent) found
  leaveIf (ct.h.type ≠ .captbl ∧ ct.h.type ≠ .pgtbl) (-Errno.einval)
  let found ← lkup t capsub
  let (subAddr, ctsub) ← orLeave (-Errno.enoent) found
  leaveIf (ctsub.h.type ≠ ct.h.type) (-Errno.einval)
  let ctTable ← orFault .dereference ct.table?
  let sub ← orFault .dereference ctsub.table?
  leaveIf (sub.lvl = 0) (-Errno.einval)
  require (ctTable.table ≠ 0) .assertion
  if ct.h.type = .captbl then captblCons ctTable sub subAddr expandid
  else pgtblCons cpu ctTable sub subAddr expandid

inductive CtIntern where
  | entry (t index : Nat)
  | slot (addr : CapAddr)
  deriving DecidableEq, Repr

def captblLkupLeaf (node : Node) (slot lvl : Nat) : KCall (Option CtIntern) := do
  let k ← read id
  require (k.memory.holdsNode node) .dereference
  if lvl = 3 then
    pure ((captblGetleaf (k.slots node) slot).map fun c => .slot (node, c))
  else pure (some (.slot (node, slot)))

/-- `captbl_lkup_lvl`, down to a level below the start. -/
def captblLkupLvl (t cap startLvl endLvl : Nat) : KCall (Option CtIntern) := do
  let cap := cap % captblMaxid
  require (endLvl ≤ 3 ∧ startLvl ≤ endLvl) .assertion
  let k ← read id
  if startLvl = 0 then do
    require (k.memory.kobj t = .captblRoot) .dereference
    if endLvl ≤ 1 then pure (some (.entry t (cap / 2 ^ 7)))
    else
      match k.roots t (cap / 2 ^ 7) with
      | none => pure none
      | some node => captblLkupLeaf node (cap % 2 ^ 7) endLvl
  else if startLvl = 1 then captblLkupLeaf (t, false) (cap % 2 ^ 7) endLvl
  else fault .dereference

def CapHeader.zero : CapHeader := ⟨0, 0, .sz16B, 0, .free⟩

def CtIntern.isZero (k : Kernel) : CtIntern → Bool
  | .entry t index => (k.roots t index).isNone
  | .slot (node, i) => (k.slots node i).h = .zero

def CtIntern.clear : CtIntern → KCall Unit
  | .entry t index =>
    update fun k => { k with
      roots := Function.update k.roots t (Function.update (k.roots t) index none) }
  | .slot (node, i) => update fun k => { k with slots := setHeader k.slots node i .zero }

/-- The end of `cap_decons`: the count of the capability named as the node. -/
def deconsRelease (subAddr : CapAddr) : KCall Unit := do
  let (sub, _) ← tableAt subAddr
  leaveIf (isFrozen sub.refcntFlags) (-Errno.einval)
  modRefcntFlags subAddr refcntDec

/-- The branch of `cap_decons` for capability tables, which takes out two halves of
a page. -/
def captblDecons (ct : CapTable) (subAddr : CapAddr) (pruneid lvl : Nat) : KCall Unit := do
  leaveIf (lvl ≤ ct.lvl) (-Errno.einval)
  let found ← captblLkupLvl ct.table pruneid ct.lvl lvl
  let intern ← orLeave (-Errno.enoent) found
  let k ← read id
  if intern.isZero k then pure ()
  else do
    intern.clear
    let found ← captblLkupLvl ct.table (pruneid + 128) ct.lvl lvl
    let intern ← orLeave (-Errno.enoent) found
    let k ← read id
    if intern.isZero k then pure ()
    else do
      intern.clear
      deconsRelease subAddr

/-- The branch of `cap_decons` for page tables. -/
def pgtblDecons (cpu : Nat) (pt : CapTable) (subAddr : CapAddr) (pruneid lvl : Nat) :
    KCall Unit := do
  leaveIf (lvl ≤ pt.lvl) (-Errno.einval)
  let found ← pgtblLkupLvl cpu pt.table (pageOf pruneid) pt.lvl lvl
  let (intern, _) ← orLeave (-Errno.enoent) found
  let old ← intern.next
  if old = .zero then pure ()
  else do
    intern.store .zero
    deconsRelease subAddr

def capDecons (cpu t cap capsub pruneid lvl : Nat) : KCall Unit := do
  let head ← lkup t cap
  let sub ← lkup t capsub
  let (_, head) ← orLeave (-Errno.enoent) head
  let (subAddr, sub) ← orLeave (-Errno.enoent) sub
  leaveIf (head.h.type ≠ sub.h.type) (-Errno.eperm)
  match head.captbl?, head.pgtbl? with
  | some ct, _ => captblDecons ct subAddr pruneid lvl
  | none, some pt => pgtblDecons cpu pt subAddr pruneid lvl
  | none, none => leave (-Errno.einval)

def capKmemFreeze (t targetCap : Nat) : KCall Unit := do
  let found ← lkup t targetCap
  let (addr, ch) ← orLeave (-Errno.einval) found
  leaveIf (ch.h.type ≠ .captbl ∧ ch.h.type ≠ .pgtbl) (-Errno.einval)
  let (table, body) ← tableAt addr
  let l := table.refcntFlags
  leaveIf (refcntOf l > 1 ∨ isFrozen l) (-Errno.einval)
  let tsc ← read (·.tsc)
  setBody addr (body { table with frozenTs := tsc, refcntFlags := l ||| capMemFrozenFlag })

end Composite
