import Composite.Lib.Transition
import Composite.Kernel.Captbl.Table

/-!
# Capability ids at user level

The functions of `cos_kernel_api.c` that give out capability ids.  A component has
a frontier of lines of four ids, the range of its table for which nodes were
constructed, and a frontier for each size of capability, on each core for the two
smaller sizes.  Ids are 32-bit numbers.  The kernel's part of an expansion of a
table is whether its calls succeed, and which nodes a table has.
-/

namespace Composite

namespace Capids

def capmaxEntrySz : Nat := 4

def captblExpandSz : Nat := 128

/-- The fields of `struct cos_compinfo` that give out ids by size: `cap16_frontier` and
`cap32_frontier` have an entry for every core. -/
inductive Frontier where
  | cap16 (cpu : Nat)
  | cap32 (cpu : Nat)
  | cap64
  deriving DecidableEq, Repr

def Frontier.idsz : Frontier → Nat
  | .cap16 _ => 1
  | .cap32 _ => 2
  | .cap64 => 4

/-- The part of `struct cos_compinfo` that is about ids. -/
structure CosCompinfo where
  memsrc : Nat
  capFrontier : Nat
  caprangeFrontier : Nat
  szFrontier : Frontier → Nat

def roundUpToPow2 (x pow2 : Nat) : Nat := (x + pow2 - 1) % 2 ^ 32 / pow2 * pow2

/-- `cos_capfrontier_init`: the range for which the table is taken to have nodes. -/
def caprangeInit (frontier : Nat) : Nat :=
  if frontier < captblExpandSz then roundUpToPow2 frontier captblExpandSz
  else
    (roundUpToPow2 (frontier + captblExpandSz) (captblExpandSz * 2) + 2 ^ 32 - captblExpandSz) %
      2 ^ 32

/-- What `cos_compinfo_init` stores; it asserts that the frontier is a multiple of
`CAPMAX_ENTRY_SZ`. -/
def compinfoInit (frontier memsrc : Nat) : CosCompinfo :=
  ⟨memsrc, frontier, caprangeInit frontier, fun _ => frontier⟩

/-- The components by number, the nodes that their tables have in the kernel, and the
ids that were given out so far, with the frontier they came from. -/
structure World where
  comps : Nat → CosCompinfo
  nodes : Nat → Finset Nat
  given : Nat → List (Frontier × Nat)

namespace World

def modify (w : World) (ci : Nat) (change : CosCompinfo → CosCompinfo) : World :=
  { w with comps := Function.update w.comps ci (change (w.comps ci)) }

def selfResources (w : World) (ci : Nat) : Prop := (w.comps ci).memsrc = ci

instance (w : World) (ci : Nat) : Decidable (w.selfResources ci) :=
  inferInstanceAs (Decidable (_ = _))

/-- Where the table of a component has to be expanded: the last line of a table that
manages itself is reserved for the capability of the next node. -/
def limit (w : World) (ci : Nat) : Nat :=
  if w.selfResources ci then
    ((w.comps ci).caprangeFrontier + 2 ^ 32 - capmaxEntrySz) % 2 ^ 32
  else (w.comps ci).caprangeFrontier

end World

/-- Whether an expansion gets kernel memory, and whether the kernel activates the
capability of the node and constructs the table with it. -/
structure Answers where
  kmem : Bool
  activate : Bool
  cons : Bool
  deriving DecidableEq

def Answers.granted : Answers := ⟨true, true, true⟩

/-- `CAPTBL_OP_CONS`: two nodes at once, which the table must have room for and must not
have yet. -/
def constructs (w : World) (ci captblidAdd : Nat) : Bool :=
  let node := captblidAdd / captblExpandSz
  decide (captblidAdd + captblExpandSz < captblMaxid) && decide (node ∉ w.nodes ci) &&
    decide (node + 1 ∉ w.nodes ci)

def advance (w : World) (ci : Nat) : World :=
  let rangeFrontier := (w.comps ci).caprangeFrontier
  let node := rangeFrontier / captblExpandSz
  { w.modify ci fun c => { c with
      capFrontier := rangeFrontier
      caprangeFrontier := (rangeFrontier + captblExpandSz * 2) % 2 ^ 32 } with
    nodes := Function.update w.nodes ci (insert node (insert (node + 1) (w.nodes ci))) }

/-- `__capid_captbl_check_expand`; `nodeCap` allocates an id of the component that
manages the resources. -/
def captblCheckExpand (nodeCap : World → Except Fault (Nat × World)) (answers : Answers)
    (w : World) (ci : Nat) : Except Fault World := do
  let manager := (w.comps ci).memsrc
  let frontier := w.limit ci
  if (w.comps manager).memsrc ≠ manager then .error .assertion
  else if ¬(w.comps ci).capFrontier ≤ frontier then .error .assertion
  else if (w.comps ci).capFrontier ≠ frontier then .ok w
  else if !answers.kmem then .error .assertion
  else
    let (captblcap, w) ← if w.selfResources ci then .ok (frontier, w) else nodeCap w
    if ¬w.selfResources ci ∧ captblcap = 0 then .error .assertion
    else
      let captblidAdd := (w.comps ci).caprangeFrontier
      if captblidAdd % captblExpandSz ≠ 0 then .error .assertion
      else if !answers.activate then .error .assertion
      else if !(answers.cons && constructs w ci captblidAdd) then .error .assertion
      else .ok (advance w ci)

def capidBumpAllocGeneric (checkExpand : World → Except Fault World) (w : World) (ci : Nat)
    (frontier : Frontier) : Except Fault (Nat × World) := do
  let w ←
    if (w.comps ci).szFrontier frontier % capmaxEntrySz = 0 then do
      let w ← checkExpand w
      .ok (w.modify ci fun c => { c with
        capFrontier := (c.capFrontier + capmaxEntrySz) % 2 ^ 32
        szFrontier := Function.update c.szFrontier frontier c.capFrontier })
    else .ok w
  let ret := (w.comps ci).szFrontier frontier
  let w := w.modify ci fun c =>
    { c with szFrontier := Function.update c.szFrontier frontier ((ret + frontier.idsz) % 2 ^ 32) }
  .ok (ret, { w with given := Function.update w.given ci ((frontier, ret) :: w.given ci) })

/-- The frontier for a type of capability, by `captbl_idsize`. -/
def frontierOf (cap : CapType) (cpu : Nat) : Option Frontier :=
  match captblCap2sz cap with
  | .sz16B => some (.cap16 cpu)
  | .sz32B => some (.cap32 cpu)
  | .sz64B => some .cap64
  | .err => none

/-- `__capid_bump_alloc`.  The recursion into the component that manages the resources is
bounded, as that component manages itself. -/
def capidBumpAlloc (answers : Nat → Answers) (cpu : Nat) :
    Nat → World → Nat → CapType → Except Fault (Nat × World)
  | 0, _, _, _ => .error .assertion
  | levels + 1, w, ci, cap =>
    match frontierOf cap cpu with
    | none => .ok (2 ^ 32 - 1, w)
    | some frontier =>
      let nodeCap := fun w : World =>
        capidBumpAlloc answers cpu levels w (w.comps ci).memsrc .captbl
      capidBumpAllocGeneric (captblCheckExpand nodeCap (answers levels) · ci) w ci frontier

/-- An allocation by a component on a core, with the answers of the kernel to the
expansion of the table that manages the resources and to that of the component. -/
structure Allocation where
  ci : Nat
  cap : CapType
  cpu : Nat
  managerAnswers : Answers
  answers : Answers

def Allocation.run (op : Allocation) (w : World) : Except Fault (Nat × World) :=
  capidBumpAlloc (fun level => if level = 0 then op.managerAnswers else op.answers) op.cpu 2 w op.ci
    op.cap

def next (w : World) (op : Allocation) : Option World :=
  match op.run w with
  | .error _ => none
  | .ok (_, w) => some w

/-- Components with these frontiers and managers.  A table has its first node, and the
nodes for the range that its frontier is taken to be in. -/
def initial (frontiers memsrc : Nat → Nat) : World where
  comps := fun ci => compinfoInit (frontiers ci) (memsrc ci)
  nodes := fun ci => Finset.range (max 1 (caprangeInit (frontiers ci) / captblExpandSz))
  given := fun _ => []

end Capids

end Composite
