import Composite.Kernel.Captbl.Table
import Composite.Kernel.Invocation

/-!
# What the capabilities hold

The bodies of the capability types, besides the header that every slot has.
Kernel pages are named by their page number.  A pointer to another capability is
the address of its slot and is not kept up to date when that slot changes.
-/

namespace Composite

abbrev Node := Nat × Bool

abbrev CapAddr := Node × Nat

/-! The word `refcnt_flags`: a count of 30 bits and two flags above it. -/

/-- `CAP_REFCNT_MAX`, also used as the mask of the count. -/
def capRefcntMax : Nat := 2 ^ 30 - 1

def refcntOf (refcntFlags : Nat) : Nat := refcntFlags % 2 ^ 30

/-- `CAP_MEM_FROZEN_FLAG` is set. -/
def isFrozen (refcntFlags : Nat) : Bool := refcntFlags.testBit 30

/-- `CAP_MEM_FROZEN_FLAG`, alone in the word. -/
def capMemFrozenFlag : Nat := 2 ^ 30

def capMemScanFlag : Nat := 2 ^ 31

/-- `cos_faa` with one. -/
def refcntInc (refcntFlags : Nat) : Nat := (refcntFlags + 1) % 2 ^ 32

/-- `cos_faa` with minus one. -/
def refcntDec (refcntFlags : Nat) : Nat := (refcntFlags + (2 ^ 32 - 1)) % 2 ^ 32

/-- `struct cap_captbl` and `struct cap_pgtbl`, which have one layout.  `table` is
the page of the address kept in the capability: that of the page itself for a
capability table, the physical address for a page directory and the kernel's
virtual address for a page table of the last level. -/
structure CapTable where
  refcntFlags : Nat
  table : Nat
  lvl : Nat
  parent : Option CapAddr
  frozenTs : Nat
  deriving DecidableEq, Repr

structure CapComp where
  entryAddr : Nat
  pgd : CapAddr
  ctTop : CapAddr
  info : CompInfo
  deriving DecidableEq, Repr

structure CapAsnd where
  cpuid : Nat
  arcvCpuid : Nat
  arcvCapid : Nat
  arcvEpoch : Nat
  compInfo : CompInfo
  budget : Nat
  period : Nat
  replenishAmnt : Nat
  deriving DecidableEq, Repr

structure CapArcv where
  compInfo : CompInfo
  epoch : Nat
  cpuid : Nat
  thd : Nat
  depth : Nat
  deriving DecidableEq, Repr

structure CapThd where
  t : Nat
  cpuid : Nat
  deriving DecidableEq, Repr

structure CapTcap where
  tcap : Nat
  cpuid : Nat
  deriving DecidableEq, Repr

inductive CapBody where
  | none
  | sinv (sinvc : CapSinv)
  | asnd (asndc : CapAsnd)
  | arcv (arcvc : CapArcv)
  | thd (thdc : CapThd)
  | comp (compc : CapComp)
  | captbl (ct : CapTable)
  | pgtbl (pt : CapTable)
  | tcap (tcapc : CapTcap)
  | hw (hwBitmap : Nat)
  deriving DecidableEq, Repr

/-! The casts of the source.  They are made after a check of the type in the
header, which says the same as the constructor of the body. -/

def CapBody.captbl? : CapBody → Option CapTable
  | .captbl ct => some ct
  | _ => Option.none

def CapBody.pgtbl? : CapBody → Option CapTable
  | .pgtbl pt => some pt
  | _ => Option.none

def CapBody.thd? : CapBody → Option CapThd
  | .thd thdc => some thdc
  | _ => Option.none

def CapBody.comp? : CapBody → Option CapComp
  | .comp compc => some compc
  | _ => Option.none

def CapBody.arcv? : CapBody → Option CapArcv
  | .arcv arcvc => some arcvc
  | _ => Option.none

def CapBody.asnd? : CapBody → Option CapAsnd
  | .asnd asndc => some asndc
  | _ => Option.none

def CapBody.tcap? : CapBody → Option CapTcap
  | .tcap tcapc => some tcapc
  | _ => Option.none

structure TcapSchedInfo where
  tcapUid : Nat
  prio : Nat
  deriving DecidableEq, Repr

/-- `struct tcap`; the list of the active ones is kept with the core. -/
structure Tcap where
  arcvEp : Option Nat
  refcnt : Nat
  budget : Nat
  ndelegs : Nat
  currSchedOff : Nat
  cpuid : Nat
  permPrio : Nat
  delegations : Nat → TcapSchedInfo

end Composite
