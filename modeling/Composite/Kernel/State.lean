import Composite.Lib.Procedure
import Composite.Kernel.Capability
import Composite.Kernel.Pgtbl.Entry
import Composite.Kernel.Retype.Table

/-!
# The state of the kernel

Physical memory is a store of typed pages: every page carries a tag that says
what the kernel keeps in it.  The tag is not part of the source; it is set where
the source initialises a page, and it is what makes an access to a page of
another kind a fault here.  The words of page tables, of page directories and of
all pages without a kernel object are kept as page-table entries.
-/

namespace Composite

inductive KObj where
  | none
  | captblRoot
  | captblLeaf
  | pgd
  | pte
  | thd
  | tcap
  deriving DecidableEq, Repr

def KObj.hasWords : KObj → Bool
  | .none | .pgd | .pte => true
  | _ => false

/-- Physical memory and the retype tables.  The memory sets of the retype tables
are single pages. -/
structure Memory where
  words : Nat → Nat → Pte
  kobj : Nat → KObj
  glb : Nat → MemType
  entries : Nat → Nat → RetypeEntry

namespace Memory

def setWord (m : Memory) (page index : Nat) (word : Pte) : Memory :=
  { m with words := Function.update m.words page (Function.update (m.words page) index word) }

def setKobj (m : Memory) (page : Nat) (kobj : KObj) : Memory :=
  { m with kobj := Function.update m.kobj page kobj }

def setPage (m : Memory) (page : Nat) (words : Nat → Pte) : Memory :=
  { m with words := Function.update m.words page words }

def setEntry (m : Memory) (cpu page : Nat) (entry : RetypeEntry) : Memory :=
  { m with
    entries := Function.update m.entries cpu (Function.update (m.entries cpu) page entry) }

section Setters

variable (m : Memory) (page index other i cpu cpu' : Nat) (word : Pte) (kobj : KObj)
  (words : Nat → Pte) (entry : RetypeEntry)

@[simp]
theorem setWord_words : (m.setWord page index word).words other i =
    if other = page ∧ i = index then word else m.words other i := by
  by_cases samePage : other = page
  · subst samePage
    simp [setWord, Function.update_apply]
  · simp [setWord, samePage]

@[simp]
theorem setEntry_entries : (m.setEntry cpu page entry).entries cpu' other =
    if cpu' = cpu ∧ other = page then entry else m.entries cpu' other := by
  by_cases sameCpu : cpu' = cpu
  · subst sameCpu
    simp [setEntry, Function.update_apply]
  · simp [setEntry, sameCpu]

end Setters

end Memory

/-- The kernel.  `walks` is not part of the source; it lists the directory entries
through which a page table has been reached so far. -/
structure Kernel where
  memory : Memory
  roots : Nat → CaptblRoot Node
  slots : Slots Node CapBody
  ltbl : Ltbl
  tlb : Nat → TlbQuiescence
  tsc : Nat
  threads : Threads
  tcaps : Nat → Tcap
  cosInfo : Nat → CosCpuLocalInfo
  pgtbl : Nat → Nat
  tls : Nat → Nat
  hwAsndCaps : Nat → Option CapAsnd
  chalKernelMemPa : Nat
  walks : List (Nat × Nat)

abbrev KCall := Procedure Fault Kernel

namespace Kernel

open Procedure

def onMemory (change : Memory → Memory) : KCall Unit :=
  update fun k => { k with memory := change k.memory }

def word (page index : Nat) : KCall Pte := do
  let m ← read (·.memory)
  require ((m.kobj page).hasWords) .dereference
  pure (m.words page index)

def setWord (page index : Nat) (value : Pte) : KCall Unit :=
  onMemory (·.setWord page index value)

/-- The page behind a virtual page number when core `cpu` accesses it in kernel
mode: above the kernel's start address all physical memory, below it whatever
the current page table maps. -/
def translate (k : Kernel) (cpu va : Nat) : Option Nat :=
  if kernStartVa ≤ va then some (va - kernStartVa)
  else
    let pgd := k.memory.words (k.pgtbl cpu) (pgdIndex va)
    let pte := k.memory.words pgd.frame (pteIndex va)
    if ¬pgd.flags.present then none
    else if pgd.flags.super then some (pgd.frame + pteIndex va)
    else if ¬pte.flags.present then none
    else some pte.frame

def pageAt (cpu va : Nat) : KCall Nat := do
  let k ← read id
  orFault .dereference (k.translate cpu va)

end Kernel

/-! Capabilities in the tables. -/

def Memory.holdsNode (m : Memory) (node : Node) : Bool :=
  match m.kobj node.1 with
  | .captblRoot => node.2
  | .captblLeaf => true
  | _ => false

namespace Kernel

open Procedure

def captblRoot (ct cap : Nat) : KCall (CaptblRoot Node) := do
  let k ← read id
  require (k.memory.kobj ct = .captblRoot) .dereference
  require ((captblLkupan (k.roots ct) cap).all fun (node, _) => k.memory.holdsNode node)
    .dereference
  pure (k.roots ct)

/-- `captbl_lkup`: the address of the capability, and what stands there. -/
def lkup (ct cap : Nat) : KCall (Option (CapAddr × Slot CapBody)) := do
  let root ← captblRoot ct (cap % captblMaxid)
  let slots ← read (·.slots)
  pure ((captblLkup root slots cap).map fun addr => (addr, slots addr.1 addr.2))

def putBody (k : Kernel) (addr : CapAddr) (body : CapBody) : Kernel :=
  { k with
    slots := Function.update k.slots addr.1
      (Function.update (k.slots addr.1) addr.2 { k.slots addr.1 addr.2 with post := body }) }

def setBody (addr : CapAddr) (body : CapBody) : KCall Unit := update (·.putBody addr body)

def captblRootBelow (ct cap : Nat) : KCall (CaptblRoot Node) :=
  if cap < captblMaxid then captblRoot ct cap else read (·.roots ct)

/-- `captbl_add`: the address of the new capability, or the code. -/
def add (ct cap : Nat) (type : CapType) : KCall CapAddr := do
  let root ← captblRootBelow ct cap
  let k ← read id
  match captblAdd root k.slots k.ltbl k.tsc cap type with
  | .error found => fault found
  | .ok (code, addr, slots) =>
    update fun k => { k with slots := slots }
    orLeave code addr

/-- `captbl_clear`. -/
def clear (ct cap : Nat) (type : CapType) (lid : Nat) : KCall Unit := do
  let root ← captblRootBelow ct cap
  let k ← read id
  let (code, slots) := captblClear root k.slots cap type lid
  update fun k => { k with slots := slots }
  leaveIf (code ≠ 0) code

end Kernel

theorem Kernel.putBody_slots (k : Kernel) (addr other : CapAddr) (body : CapBody) :
    (k.putBody addr body).slots other.1 other.2 =
      if other = addr then { k.slots addr.1 addr.2 with post := body }
      else k.slots other.1 other.2 := by
  obtain ⟨node, i⟩ := addr
  obtain ⟨n, j⟩ := other
  by_cases sameNode : n = node
  · subst sameNode
    by_cases sameSlot : j = i
    · subst sameSlot
      simp [putBody]
    · simp [putBody, sameSlot]
  · simp [putBody, sameNode]

/-! A capability of a given type: the type in the header, and the cast. -/

namespace Slot

def captbl? (slot : Slot CapBody) : Option CapTable :=
  if slot.h.type = .captbl then slot.post.captbl? else none

def pgtbl? (slot : Slot CapBody) : Option CapTable :=
  if slot.h.type = .pgtbl then slot.post.pgtbl? else none

/-- `cap_captbl` and `cap_pgtbl` alike. -/
def table? (slot : Slot CapBody) : Option CapTable := slot.captbl?.or slot.pgtbl?

def thd? (slot : Slot CapBody) : Option CapThd :=
  if slot.h.type = .thd then slot.post.thd? else none

def comp? (slot : Slot CapBody) : Option CapComp :=
  if slot.h.type = .comp then slot.post.comp? else none

def arcv? (slot : Slot CapBody) : Option CapArcv :=
  if slot.h.type = .arcv then slot.post.arcv? else none

def tcap? (slot : Slot CapBody) : Option CapTcap :=
  if slot.h.type = .tcap then slot.post.tcap? else none

end Slot

end Composite
