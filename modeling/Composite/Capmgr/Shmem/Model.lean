import Composite.Lib.Transition
import Composite.Kernel.Kmem

/-!
# Shared memory of the capability manager

The bookkeeping of `cap_info.c`: regions of shared memory have a number that counts
up, possibly a key, and a size in pages; there is a limit on the pages of all regions
and one for each component.  `unsigned long` has 32 bits, a key has 16.
-/

namespace Composite

namespace Shmem

/-- `MEMMGR_MAX_SHMEM_SIZE`, in bytes. -/
def maxShmemSize : Nat := 2 ^ 22

/-- `MEMMGR_COMP_MAX_SHMEM`. -/
def compMaxShmem : Nat := maxShmemSize

/-- `MEMMGR_MAX_SHMEM_REGIONS`. -/
def maxShmemRegions : Nat := 1024

/-- `struct cap_shmem_glb_info`.  The keys are the last field: from
`maxShmemRegions` on, `regionKeys` is what lies behind the array. -/
structure GlbInfo where
  freeRegionId : Nat
  totalPages : Nat
  regionNpages : Nat → Nat
  regionKeys : Nat → UInt16

/-- `struct cap_shmem_info`. -/
structure ShmemInfo where
  totalPages : Nat
  shmAddr : Nat → Nat

structure Region where
  id : Nat
  key : UInt16
  npages : Nat
  owner : Nat
  deriving DecidableEq, Repr

/-- The bookkeeping, with the number of the manager itself, and what happened so far: the
regions that were allocated, and by component the numbers and sizes of those that were
allocated by it or mapped into it. -/
structure World where
  self : Nat
  glb : GlbInfo
  comps : Nat → ShmemInfo
  initflag : Nat → Bool
  regions : List Region
  mapped : Nat → List (Nat × Nat)

def bytes (pages : Nat) : Nat := pages * pageSize % 2 ^ 32

/-- `cap_info_comp_init`, as far as shared memory is concerned. -/
def capInfoCompInit (w : World) (spd : Nat) : World :=
  { w with
    glb := ⟨0, 0, fun _ => 0, fun i => if i < maxShmemRegions then 0 else w.glb.regionKeys i⟩
    comps := Function.update w.comps spd ⟨0, fun _ => 0⟩
    initflag := Function.update w.initflag spd true }

/-- `cap_shmem_region_vaddr` and `__cap_info_shm_capmgr_vaddr`. -/
def World.vaddr (w : World) (spd id : Nat) : Nat := (w.comps spd).shmAddr (id - 1)

/-- `cap_shmem_region_vaddr_set` and `__cap_info_shm_capmgr_vaddr_set`. -/
def World.vaddrSet (w : World) (spd id addr : Nat) : World :=
  let shmAddr := Function.update (w.comps spd).shmAddr (id - 1) addr
  { w with comps := Function.update w.comps spd { w.comps spd with shmAddr := shmAddr } }

/-- The word at a key: the keys are read and written as `unsigned long`, by two. -/
def keyWord (keys : Nat → UInt16) (i : Nat) : Nat := (keys i).toNat + 2 ^ 16 * (keys (i + 1)).toNat

/-- `cap_shmem_region_key_set`; `none` is an error. -/
def capShmemRegionKeySet (glb : GlbInfo) (id : Nat) (key : UInt16) : Option GlbInfo :=
  if id > glb.freeRegionId then none
  else if glb.regionNpages (id - 1) ≠ 0 then none
  else if keyWord glb.regionKeys (id - 1) ≠ 0 then none
  else some { glb with
    regionKeys := Function.update (Function.update glb.regionKeys (id - 1) key) (id - 1 + 1) 0 }

/-- The loop of `cap_shmem_region_find`. -/
def findFrom (glb : GlbInfo) (key : UInt16) : Nat → Nat → Nat
  | 0, _ => 0
  | remaining + 1, i =>
    if keyWord glb.regionKeys (i - 1) = key.toNat then i else findFrom glb key remaining (i + 1)

def capShmemRegionFind (glb : GlbInfo) (key : UInt16) : Nat := findFrom glb key glb.freeRegionId 1

def World.granted (w : World) (spd fid : Nat) (key : UInt16) (numPages capAddr compAddr : Nat) :
    World :=
  let w := (w.vaddrSet w.self fid capAddr).vaddrSet spd fid compAddr
  { w with
    regions := ⟨fid, key, numPages, spd⟩ :: w.regions
    mapped := Function.update w.mapped spd ((fid, numPages) :: w.mapped spd) }

def World.charged (w : World) (spd fid numPages : Nat) : World :=
  { w with
    glb := { w.glb with
      regionNpages := Function.update w.glb.regionNpages (fid - 1) numPages
      totalPages := (w.glb.totalPages + numPages) % 2 ^ 32 }
    comps := Function.update w.comps spd { w.comps spd with
      totalPages := ((w.comps spd).totalPages + numPages) % 2 ^ 32 } }

/-- The second half of `cap_shmem_region_alloc`, for a number that is free.  `capAddr` and
`compAddr` are what the page allocator and the mapping into the component answer, where 0
is a failure; without pages the allocator fails an assertion. -/
def regionPages (w : World) (spd fid : Nat) (key : UInt16) (numPages capAddr compAddr : Nat) :
    Except Fault (Option Nat × World) :=
  let w := w.charged spd fid numPages
  if capAddr = 0 then .ok (none, w)
  else if bytes numPages = 0 then .error .assertion
  else if compAddr = 0 then .ok (none, w)
  else .ok (some fid, w.granted spd fid key numPages capAddr compAddr)

/-- `cap_shmem_region_alloc`: the number of the region, if there is one, and the state after
it. -/
def capShmemRegionAlloc (w : World) (spd : Nat) (key : UInt16) (numPages capAddr compAddr : Nat) :
    Except Fault (Option Nat × World) :=
  if bytes (w.glb.totalPages + numPages) > maxShmemSize then .ok (none, w)
  else if bytes ((w.comps spd).totalPages + numPages) > compMaxShmem then .ok (none, w)
  else
    let fid := (w.glb.freeRegionId + 1) % 2 ^ 32
    let w := { w with glb := { w.glb with freeRegionId := fid } }
    if fid > maxShmemRegions then .ok (none, w)
    else if fid = 0 then .error .dereference
    else if w.vaddr w.self fid ≠ 0 then .ok (none, w)
    else if w.vaddr spd fid ≠ 0 then .ok (none, w)
    else
      match (if key ≠ 0 then capShmemRegionKeySet w.glb fid key else some w.glb) with
      | none => .ok (none, w)
      | some glb => regionPages { w with glb := glb } spd fid key numPages capAddr compAddr

def World.mapInto (w : World) (spd id compAddr : Nat) : World :=
  { w.vaddrSet spd id compAddr with
    mapped := Function.update w.mapped spd ((id, w.glb.regionNpages (id - 1)) :: w.mapped spd) }

/-- `cap_shmem_region_map`: the number and the size of the region, if there is one, and the
state after it. -/
def capShmemRegionMap (w : World) (spd id : Nat) (key : UInt16) (compAddr : Nat) :
    Except Fault (Option (Nat × Nat) × World) :=
  let id := if key ≠ 0 then capShmemRegionFind w.glb key else id
  if id = 0 ∨ id > maxShmemRegions then .ok (none, w)
  else if w.vaddr w.self id = 0 then .ok (none, w)
  else
    let npages := w.glb.regionNpages (id - 1)
    if w.vaddr spd id ≠ 0 then .ok (some (id, npages), w)
    else if bytes ((w.comps spd).totalPages + npages) > compMaxShmem then .ok (none, w)
    else if bytes npages = 0 then .error .assertion
    else if compAddr = 0 then .ok (none, w)
    else .ok (some (id, npages), w.mapInto spd id compAddr)

/-- A component is registered; or one asks for a region, or for a mapping of one by its
number or its key. -/
inductive Op where
  | register (spd : Nat)
  | alloc (spd : Nat) (key : UInt16) (numPages capAddr compAddr : Nat)
  | map (spd id : Nat) (key : UInt16) (compAddr : Nat)
  deriving DecidableEq, Repr

def next (w : World) : Op → Option World
  | .register spd => some (capInfoCompInit w spd)
  | .alloc spd key numPages capAddr compAddr =>
    if w.initflag spd then
      match capShmemRegionAlloc w spd key numPages capAddr compAddr with
      | .error _ => none
      | .ok (_, w) => some w
    else some w
  | .map spd id key compAddr =>
    if w.initflag spd then
      match capShmemRegionMap w spd id key compAddr with
      | .error _ => none
      | .ok (_, w) => some w
    else some w

def initial (self : Nat) (behind : Nat → UInt16) : World where
  self := self
  glb := ⟨0, 0, fun _ => 0, fun i => if i < maxShmemRegions then 0 else behind i⟩
  comps := fun _ => ⟨0, fun _ => 0⟩
  initflag := fun _ => false
  regions := []
  mapped := fun _ => []

end Shmem

end Composite
