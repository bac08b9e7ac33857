import Composite.Lib.Transition
import Composite.Kernel.Kmem

/-!
# Untyped memory at user level

The bump allocator of `cos_kernel_api.c`.  A component that manages memory has a
range of untyped memory; kernel and user memory are taken from it in sets that are
retyped as a whole, and ranges of it are handed over to other components.  Addresses
are 32-bit numbers.  Of the kernel it matters which frames the component has in the
page table of its untyped memory, and as what they are typed.
-/

namespace Composite

namespace UserMemory

def retypeMemNpages : Nat := 1

def retypeMemSize : Nat := retypeMemNpages * pageSize

def pgdRange : Nat := 2 ^ 22

structure CosMeminfo where
  untypedPtr : Nat
  umemPtr : Nat
  kmemPtr : Nat
  untypedFrontier : Nat
  umemFrontier : Nat
  kmemFrontier : Nat
  deriving DecidableEq, Repr

/-- `cos_meminfo_init`. -/
def meminfoInit (untypedPtr untypedSz : Nat) : CosMeminfo :=
  ⟨untypedPtr, untypedPtr, untypedPtr, (untypedPtr + untypedSz) % 2 ^ 32, untypedPtr, untypedPtr⟩

inductive Frame where
  | absent
  | untyped
  | user
  | kern
  deriving DecidableEq, Repr

inductive Kind where
  | kmem
  | umem
  | untyped
  deriving DecidableEq, Repr

def Kind.frame : Kind → Frame
  | .kmem => .kern
  | .umem => .user
  | .untyped => .untyped

/-- The bookkeeping of the component, the frames by address, and what happened so far:
the pages that were returned, and the ranges that were handed over. -/
structure World where
  mi : CosMeminfo
  frames : Nat → Frame
  given : List (Kind × Nat)
  handed : List (Nat × Nat)

/-- The two bump pointers, by `km`. -/
def CosMeminfo.ptr (mi : CosMeminfo) (km : Bool) : Nat := if km then mi.kmemPtr else mi.umemPtr

def CosMeminfo.frontier (mi : CosMeminfo) (km : Bool) : Nat :=
  if km then mi.kmemFrontier else mi.umemFrontier

def CosMeminfo.set (mi : CosMeminfo) (km : Bool) (ptr frontier : Nat) : CosMeminfo :=
  if km then { mi with kmemPtr := ptr, kmemFrontier := frontier }
  else { mi with umemPtr := ptr, umemFrontier := frontier }

/-- `CAPTBL_OP_MEM_RETYPE2KERN` and `CAPTBL_OP_MEM_RETYPE2USER`: the frame has to be there
and untyped. -/
def retypeFrame (frames : Nat → Frame) (addr : Nat) (type : Frame) : Option (Nat → Frame) :=
  let page := addr / pageSize * pageSize
  if frames page = .untyped then some (Function.update frames page type) else none

/-- `__mem_bump_alloc`: the address, or 0, and the state after it. -/
def memBumpAlloc (w : World) (km retype : Bool) : Nat × World :=
  let ret := w.mi.ptr km
  let ptr := (ret + pageSize) % 2 ^ 32
  let frontier := w.mi.frontier km
  let mi := w.mi.set km ptr frontier
  let set : Option (Nat × CosMeminfo) :=
    if ret ≥ frontier ∨ frontier - ret > retypeMemSize then
      if mi.untypedPtr = mi.untypedFrontier then none
      else
        let ret := mi.untypedPtr
        let mi := { mi with untypedPtr := (mi.untypedPtr + retypeMemSize) % 2 ^ 32 }
        some (ret, mi.set km ((ret + pageSize) % 2 ^ 32) ((ret + retypeMemSize) % 2 ^ 32))
    else some (ret, mi)
  match set with
  | none => (0, { w with mi := mi })
  | some (ret, mi) =>
    if retype ∧ ret % retypeMemSize = 0 then
      match retypeFrame w.frames ret (if km then .kern else .user) with
      | none => (0, { w with mi := mi })
      | some frames => (ret, { w with mi := mi, frames := frames })
    else (ret, { w with mi := mi })

/-- `__kmem_bump_alloc`, `__umem_bump_alloc` and `__untyped_bump_alloc`; a page that is
returned is recorded. -/
def bumpAlloc (w : World) (kind : Kind) : Nat × World :=
  let (ret, w) :=
    match kind with
    | .kmem => memBumpAlloc w true true
    | .umem => memBumpAlloc w false true
    | .untyped => memBumpAlloc w true false
  if ret = 0 then (0, w) else (ret, { w with given := (kind, ret) :: w.given })

/-- `__bump_mem_expand_range`, for the iterations that remain: each takes kernel memory for
a page table, and fails an assertion without. -/
def expandRange : Nat → World → Except Fault World
  | 0, w => .ok w
  | remaining + 1, w =>
    let (ptemem, w) := bumpAlloc w .kmem
    if ptemem = 0 then .error .assertion else expandRange remaining w

/-- The loop of `CAPTBL_OP_MEMMOVE` calls; one that fails is a `BUG`. -/
def memmoveLoop : Nat → Nat → (Nat → Frame) → Except Fault (Nat → Frame)
  | 0, _, frames => .ok frames
  | remaining + 1, start, frames =>
    if frames start = .absent then .error .assertion
    else
      memmoveLoop remaining ((start + pageSize) % 2 ^ 32) (Function.update frames start .absent)

/-- The iterations of a loop from `addr` on by `step`, up to the end of a range. -/
def iterations (addr sz step : Nat) : Nat := ((addr + sz) % 2 ^ 32 - addr + step - 1) / step

/-- `__cos_meminfo_populate`, by which memory is handed over to another component that
will have it at `addr`. -/
def meminfoPopulate (w : World) (addr sz : Nat) : Except Fault World :=
  if ¬(addr % pgdRange = 0 ∧ sz % pgdRange = 0) then .error .assertion
  else do
    let w ← expandRange (iterations addr sz pgdRange) w
    let startAddr := w.mi.untypedPtr
    let mi := { w.mi with
      untypedPtr := (w.mi.untypedPtr + sz) % 2 ^ 32
      untypedFrontier := (w.mi.untypedFrontier + sz) % 2 ^ 32 }
    let frames ← memmoveLoop (iterations addr sz pageSize) startAddr w.frames
    .ok { w with mi := mi, frames := frames, handed := (startAddr, sz) :: w.handed }

inductive Op where
  | alloc (kind : Kind)
  | handOver (addr sz : Nat)
  deriving DecidableEq, Repr

def next (w : World) : Op → Option World
  | .alloc kind => some (bumpAlloc w kind).2
  | .handOver addr sz =>
    match meminfoPopulate w addr sz with
    | .error _ => none
    | .ok w => some w

def initial (base sz : Nat) : World where
  mi := meminfoInit base sz
  frames := fun page => if base ≤ page ∧ page + pageSize ≤ base + sz then .untyped else .absent
  given := []
  handed := []

end UserMemory

end Composite
