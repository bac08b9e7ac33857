import Mathlib.Algebra.Order.Ring.Int

/-!
# Constants of the kernel build

The values of `cos_config.h`, `consts.h`, `cos_errno.h` and `cos_types.h` that
the modelled functions read.  Addresses and sizes are kept in pages where the
code only ever uses the page number.
-/

namespace Composite

/-! Error numbers; the kernel returns them negated. -/

namespace Errno

def eperm : Int := 1
def enoent : Int := 2
def eagain : Int := 11
def enomem : Int := 12
def efault : Int := 14
def ebusy : Int := 16
def eexist : Int := 17
def einval : Int := 22
def eoverflow : Int := 75
def equiescence : Int := 256
def ecasfail : Int := 257

end Errno

/-- How a kernel function can fail to return: an `assert` fails, one on the state marks
of a thread among them, or an address is followed that the code has not obtained from
a successful lookup. -/
inductive Fault where
  | assertion
  | marks
  | dereference
  deriving DecidableEq, Repr

def numCpu : Nat := 16

/-- `NUM_CPU_COS`: the cores whose mandatory flush the quiescence check asks for. -/
def numCpuCos : Nat := if numCpu > 1 then numCpu - 1 else 1

/-! Memory layout, in pages. -/

def cosMemStart : Nat := 0x100

/-- `COS_MAX_MEMORY` and `COS_KERNEL_MEMORY`: 512 MB less 64 MB. -/
def cosMaxMemory : Nat := (2 ^ 29 - 2 ^ 26) / 2 ^ 12

def cosMemBound : Nat := cosMemStart + cosMaxMemory

/-- `COS_MEM_KERN_START_VA`, where the kernel sees the physical memory. -/
def kernStartVa : Nat := 0xc0000

/-- `chal_pa2va`; the addition wraps around at 4 GB. -/
def chalPa2va (page : Nat) : Nat := (page + kernStartVa) % 2 ^ 20

def chalVa2pa (page : Nat) : Nat := (page + (2 ^ 20 - kernStartVa)) % 2 ^ 20

end Composite
