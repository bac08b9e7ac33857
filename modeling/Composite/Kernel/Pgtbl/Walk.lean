import Composite.Kernel.State

/-!
# Walking a page table

The lookup of `ertrie.h`, instantiated as `pgtbl.h` does it.  The walk starts at
a local variable that holds the address of the root, and takes whatever stands
in a directory entry as the address of the next page.
-/

namespace Composite

open Procedure Kernel

inductive ErtIntern where
  | root (next : Pte)
  | word (page index : Nat)
  deriving DecidableEq, Repr

/-- `a->next`. -/
def ErtIntern.next : ErtIntern → KCall Pte
  | .root next => pure next
  | .word page index => Kernel.word page index

def pgtblDepth : Nat := 2

/-- The index of a page number at depth `i` of the walk. -/
def ertIndex (i page : Nat) : Nat := if i = 0 then pgdIndex page else pteIndex page

def recordWalk : ErtIntern → KCall Unit
  | .root _ => pure ()
  | .word page index => update fun k => { k with walks := (page, index) :: k.walks }

/-- One round of the loop of `__ert_lookup`, at depth `i`.  The flags of the entry
are passed along. -/
def ertStep (cpu page i : Nat) (n : ErtIntern)
    (rest : ErtIntern → PteFlags → KCall (Option (ErtIntern × PteFlags))) :
    KCall (Option (ErtIntern × PteFlags)) := do
  let value ← n.next
  if value.isNull then pure none
  else do
    recordWalk n
    let target ← pageAt cpu (chalPa2va value.frame)
    rest (.word target (ertIndex i page)) value.flags

/-- The loop from depth `i` on, with the number of levels still to go. -/
def ertWalk (cpu page : Nat) : Nat → Nat → ErtIntern → PteFlags →
    KCall (Option (ErtIntern × PteFlags))
  | 0, _, n, accum => pure (some (n, accum))
  | levels + 1, i, n, _ => ertStep cpu page i n (ertWalk cpu page levels (i + 1))

/-- `__pgtbl_getleaf`: what the entry points to is the start of its frame. -/
def pgtblGetleaf (cpu : Nat) (n : ErtIntern) : KCall (ErtIntern × PteFlags) := do
  let value ← n.next
  let target ← pageAt cpu (chalPa2va value.frame)
  pure (.word target 0, value.flags)

/-- `pgtbl_lkup_lvl`; the address is given by its page number.  The flag
`PGTBL_PRESENT` is added to the address of the root. -/
def pgtblLkupLvl (cpu pt page startLvl endLvl : Nat) :
    KCall (Option (ErtIntern × PteFlags)) := do
  require (endLvl ≤ pgtblDepth + 1 ∧ startLvl ≤ endLvl) .assertion
  let root : ErtIntern := .root ⟨pt, { PteFlags.empty with present := true }⟩
  let found ← ertWalk cpu page (min endLvl pgtblDepth - startLvl) startLvl root .empty
  match found with
  | none => pure none
  | some (n, accum) =>
    if endLvl = pgtblDepth + 1 then do
      let leaf ← pgtblGetleaf cpu n
      pure (some leaf)
    else pure (some (n, accum))

/-- `pgtbl_lkup_pte`: the address of the entry, and the flags of the directory
entry that led there. -/
def pgtblLkupPte (cpu pt page : Nat) : KCall (Option (ErtIntern × PteFlags)) :=
  pgtblLkupLvl cpu pt page 0 pgtblDepth

def ErtIntern.store (n : ErtIntern) (value : Pte) : KCall Unit :=
  match n with
  | .root _ => pure ()
  | .word page index => setWord page index value

end Composite
