import Composite.Kernel.Config

/-!
# Page-table entries

A word of a page table is a page number and twelve flags.  A page directory and
a page table have 1024 of them each.
-/

namespace Composite

/-- `pgtbl_flags_t`. -/
structure PteFlags where
  present : Bool
  writable : Bool
  user : Bool
  wt : Bool
  nocache : Bool
  accessed : Bool
  modified : Bool
  super : Bool
  global : Bool
  cosframe : Bool
  coskmem : Bool
  quiescence : Bool
  deriving DecidableEq, Repr

namespace PteFlags

def empty : PteFlags :=
  ⟨false, false, false, false, false, false, false, false, false, false, false, false⟩

/-- `PGTBL_USER_DEF`. -/
def userDef : PteFlags :=
  { empty with present := true, user := true, accessed := true, modified := true, writable := true }

/-- `PGTBL_INTERN_DEF`. -/
def internDef : PteFlags := userDef

/-- `pgtbl_ispresent`. -/
def isPresent (flags : PteFlags) : Bool := flags.present || flags.cosframe

def toNat (flags : PteFlags) : Nat :=
  ([flags.present, flags.writable, flags.user, flags.wt, flags.nocache, flags.accessed,
    flags.modified, flags.super, flags.global, flags.cosframe, flags.coskmem,
    flags.quiescence].reverse).foldl (fun bits flag => 2 * bits + flag.toNat) 0

end PteFlags

structure Pte where
  frame : Nat
  flags : PteFlags
  deriving DecidableEq, Repr

namespace Pte

def zero : Pte := ⟨0, .empty⟩

/-- `__pgtbl_isnull`. -/
def isNull (pte : Pte) : Bool := !pte.flags.isPresent

def toNat (pte : Pte) : Nat := pte.frame * 2 ^ 12 + pte.flags.toNat

def unmapped (livId : Nat) : Pte := ⟨livId, { PteFlags.empty with quiescence := true }⟩

def ofFrame (frame : Nat) : Pte := ⟨frame, { PteFlags.empty with cosframe := true }⟩

def setCoskmem (pte : Pte) (coskmem : Bool) : Pte :=
  { pte with flags := { pte.flags with coskmem := coskmem } }

end Pte

def pgdIndex (page : Nat) : Nat := page / 2 ^ 10 % 2 ^ 10

def pteIndex (page : Nat) : Nat := page % 2 ^ 10

def kernelPgdIndex : Nat := 768

end Composite
