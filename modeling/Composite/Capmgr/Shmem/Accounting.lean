import Mathlib.Algebra.Order.BigOperators.Group.List
import Mathlib.Algebra.Order.Ring.Nat
import Composite.Capmgr.Shmem.Model

/-!
# Accounting for shared memory

What the bookkeeping of shared memory is for: the numbers and the keys of the regions are
distinct, and the totals of the pages are the sums that they stand for.  The conditions on
requests, the invariant, and what registrations and addresses do to it.
-/

namespace Composite

open Function List

namespace Shmem

def World.allocatedPages (w : World) : Nat := (w.regions.map Region.npages).sum

def World.ownPages (w : World) (spd : Nat) : Nat :=
  ((w.regions.filter fun region => region.owner = spd).map Region.npages).sum

def World.mappedPages (w : World) (spd : Nat) : Nat := ((w.mapped spd).map Prod.snd).sum

/-- Registrations come before the first allocation.  An allocation is for so few pages that
no size overflows, there are pages for it, and no region has its key. -/
def Careful (w : World) : Op → Prop
  | .register _ => w.glb.freeRegionId = 0
  | .alloc spd key numPages capAddr compAddr =>
    w.glb.totalPages + numPages < 2 ^ 20 ∧ (w.comps spd).totalPages + numPages < 2 ^ 20 ∧
      capAddr ≠ 0 ∧ compAddr ≠ 0 ∧ (key ≠ 0 → ∀ region ∈ w.regions, region.key ≠ key)
  | .map .. => True

instance (w : World) (op : Op) : Decidable (Careful w op) := by
  cases op with
  | register spd => exact inferInstanceAs (Decidable (_ = _))
  | alloc spd key numPages capAddr compAddr =>
    exact inferInstanceAs (Decidable (_ ∧ _ ∧ _ ∧ _ ∧ _))
  | map spd id key compAddr => exact inferInstanceAs (Decidable True)

def Counted (w : World) : Op → Prop
  | .map spd id key _ =>
    let id := if key ≠ 0 then capShmemRegionFind w.glb key else id
    w.vaddr w.self id = 0 ∨ w.vaddr spd id ≠ 0
  | _ => True

instance (w : World) (op : Op) : Decidable (Counted w op) := by
  cases op with
  | register spd => exact inferInstanceAs (Decidable True)
  | alloc spd key numPages capAddr compAddr => exact inferInstanceAs (Decidable True)
  | map spd id key compAddr => exact inferInstanceAs (Decidable (_ ∨ _))

structure Accounted (w : World) : Prop where
  ids : (w.regions.map Region.id).Nodup
  keys : ∀ region ∈ w.regions, ∀ other ∈ w.regions,
    region.key ≠ 0 → region.key = other.key → region = other
  named : ∀ key id, key ≠ 0 → capShmemRegionFind w.glb key = id → 0 < id → id ≤ maxShmemRegions →
    ∃ region ∈ w.regions, region.id = id ∧ region.key = key
  total : w.glb.totalPages = w.allocatedPages
  limit : w.allocatedPages * pageSize ≤ maxShmemSize
  charged : ∀ spd, (w.comps spd).totalPages = w.ownPages spd
  compLimit : ∀ spd, w.mappedPages spd * pageSize ≤ compMaxShmem

structure MappedOnce (w : World) : Prop where
  ids : ∀ spd, ((w.mapped spd).map Prod.fst).Nodup
  address : ∀ spd, ∀ entry ∈ w.mapped spd, w.vaddr spd entry.1 ≠ 0
  region : ∀ spd, ∀ entry ∈ w.mapped spd,
    ∃ region ∈ w.regions, region.id = entry.1 ∧ region.npages = entry.2

structure Inv (w : World) : Prop where
  counter : w.glb.freeRegionId < 2 ^ 32
  ids : (w.regions.map Region.id).Nodup
  bounded : ∀ region ∈ w.regions, 0 < region.id ∧ region.id ≤ w.glb.freeRegionId
  keys : ∀ region ∈ w.regions, ∀ other ∈ w.regions,
    region.key ≠ 0 → region.key = other.key → region = other
  keyed : ∀ i < maxShmemRegions, w.glb.regionKeys i ≠ 0 →
    ∃ region ∈ w.regions, region.id = i + 1 ∧ region.key = w.glb.regionKeys i
  total : w.glb.totalPages = w.allocatedPages
  limit : w.glb.totalPages ≤ 1024
  charged : ∀ spd, (w.comps spd).totalPages = w.ownPages spd
  placed : ∀ i, (w.comps w.self).shmAddr i ≠ 0 →
    ∃ region ∈ w.regions, region.id = i + 1 ∧ region.npages = w.glb.regionNpages i
  mapped : MappedOnce w

section Sums

variable {w : World}

theorem Inv.mappedPages_le (inv : Inv w) (spd : Nat) : w.mappedPages spd ≤ w.allocatedPages := by
  have distinct : (w.mapped spd).Nodup := (inv.mapped.ids spd).of_map
  have subset : w.mapped spd ⊆ w.regions.map fun region => (region.id, region.npages) := by
    intro entry mapped
    obtain ⟨region, allocated, id, npages⟩ := inv.mapped.region spd entry mapped
    exact mem_map.mpr ⟨region, allocated, Prod.ext id npages⟩
  obtain ⟨part, permuted, sublist⟩ := List.Nodup.subperm distinct subset
  calc w.mappedPages spd = (part.map Prod.snd).sum := ((permuted.map Prod.snd).sum_eq).symm
    _ ≤ ((w.regions.map fun region => (region.id, region.npages)).map Prod.snd).sum :=
        (sublist.map Prod.snd).sum_le_sum fun _ _ => Nat.zero_le _
    _ = w.allocatedPages := by rw [map_map]; rfl

theorem key_of_keyWord {keys : Nat → UInt16} {i : Nat} {key : UInt16}
    (same : keyWord keys i = key.toNat) : keys i = key := by
  have small := key.toNat_lt
  unfold keyWord at same
  exact UInt16.toNat_inj.mp (by omega)

theorem key_of_findFrom {glb : GlbInfo} {key : UInt16} (remaining : Nat) :
    ∀ i, findFrom glb key remaining i ≠ 0 →
      glb.regionKeys (findFrom glb key remaining i - 1) = key := by
  induction remaining with
  | zero => exact fun i found => absurd rfl found
  | succ remaining ih =>
    intro i found
    unfold findFrom at found ⊢
    by_cases here : keyWord glb.regionKeys (i - 1) = key.toNat
    · rw [if_pos here]
      exact key_of_keyWord here
    · rw [if_neg here] at found ⊢
      exact ih (i + 1) found

theorem Inv.accounted (inv : Inv w) : Accounted w where
  ids := inv.ids
  keys := inv.keys
  named key id keyed found positive small := by
    have here : w.glb.regionKeys (id - 1) = key := by
      subst found
      exact key_of_findFrom w.glb.freeRegionId 1 positive.ne'
    obtain ⟨region, allocated, number, named⟩ := inv.keyed (id - 1) (by omega) (here ▸ keyed)
    exact ⟨region, allocated, by omega, named.trans here⟩
  total := inv.total
  limit := by
    have total := inv.total
    have limit := inv.limit
    unfold maxShmemSize pageSize
    omega
  charged := inv.charged
  compLimit spd := by
    have part := inv.mappedPages_le spd
    have total := inv.total
    have limit := inv.limit
    unfold compMaxShmem maxShmemSize pageSize
    omega

end Sums

section Register

variable {w : World}

theorem Inv.nothing (inv : Inv w) (first : w.glb.freeRegionId = 0) : w.regions = [] := by
  refine eq_nil_iff_forall_not_mem.mpr fun region allocated => ?_
  have bounded := inv.bounded region allocated
  omega

theorem Inv.nothing_mapped (inv : Inv w) (first : w.glb.freeRegionId = 0) (spd : Nat) :
    w.mapped spd = [] := by
  refine eq_nil_iff_forall_not_mem.mpr fun entry mapped => ?_
  obtain ⟨region, allocated, -⟩ := inv.mapped.region spd entry mapped
  rw [inv.nothing first] at allocated
  cases allocated

theorem Inv.register (inv : Inv w) (first : w.glb.freeRegionId = 0) (spd : Nat) :
    Inv (capInfoCompInit w spd) := by
  have none : (capInfoCompInit w spd).regions = [] := inv.nothing first
  have noneMapped : ∀ other, (capInfoCompInit w spd).mapped other = [] := inv.nothing_mapped first
  refine ⟨Nat.two_pow_pos 32, ?_, ?_, ?_, ?_, ?_, Nat.zero_le _, ?_, ?_, ?_, ?_, ?_⟩
  · rw [none]
    exact nodup_nil
  · rw [none]
    nofun
  · rw [none]
    nofun
  · intro i small keyed
    exact absurd (if_pos small) keyed
  · unfold World.allocatedPages
    rw [none]
    rfl
  · intro other
    unfold World.ownPages
    rw [none]
    by_cases same : other = spd
    · subst same
      show (update w.comps other _ other).totalPages = _
      rw [update_self]
      rfl
    · show (update w.comps spd _ other).totalPages = _
      rw [update_of_ne same, inv.charged]
      unfold World.ownPages
      rw [inv.nothing first]
  · intro i placed
    by_cases same : w.self = spd
    · have placed : (update w.comps spd ⟨0, fun _ => 0⟩ w.self).shmAddr i ≠ 0 := placed
      rw [same, update_self] at placed
      exact absurd rfl placed
    · have placed : (update w.comps spd ⟨0, fun _ => 0⟩ w.self).shmAddr i ≠ 0 := placed
      rw [update_of_ne same] at placed
      obtain ⟨region, allocated, -⟩ := inv.placed i placed
      rw [inv.nothing first] at allocated
      cases allocated
  · intro other
    rw [noneMapped]
    exact nodup_nil
  · intro other
    rw [noneMapped]
    nofun
  · intro other
    rw [noneMapped]
    nofun

end Register

section Addresses

theorem vaddrSet_totalPages (w : World) (spd id addr other : Nat) :
    ((w.vaddrSet spd id addr).comps other).totalPages = (w.comps other).totalPages := by
  by_cases same : other = spd
  · subst same
    simp only [World.vaddrSet, update_self]
  · simp only [World.vaddrSet, update_of_ne same]

theorem vaddrSet_shmAddr (w : World) (spd id addr other i : Nat) :
    ((w.vaddrSet spd id addr).comps other).shmAddr i =
      if other = spd ∧ i = id - 1 then addr else (w.comps other).shmAddr i := by
  by_cases same : other = spd
  · subst same
    simp only [World.vaddrSet, update_self, true_and]
    by_cases here : i = id - 1
    · rw [here, update_self, if_pos rfl]
    · rw [update_of_ne here, if_neg here]
  · simp only [World.vaddrSet, update_of_ne same, same, false_and, if_false]

theorem vaddrSet_kept {w : World} {spd id addr other i : Nat} (address : addr ≠ 0)
    (placed : (w.comps other).shmAddr i ≠ 0) :
    ((w.vaddrSet spd id addr).comps other).shmAddr i ≠ 0 := by
  rw [vaddrSet_shmAddr]
  split_ifs
  · exact address
  · exact placed

theorem charged_shmAddr (w : World) (spd fid numPages other : Nat) :
    ((w.charged spd fid numPages).comps other).shmAddr = (w.comps other).shmAddr := by
  by_cases same : other = spd
  · subst same
    simp only [World.charged, update_self]
  · simp only [World.charged, update_of_ne same]

theorem charged_totalPages {w : World} {spd numPages : Nat}
    (small : (w.comps spd).totalPages + numPages < 2 ^ 20) (fid other : Nat) :
    ((w.charged spd fid numPages).comps other).totalPages =
      (w.comps other).totalPages + if other = spd then numPages else 0 := by
  by_cases same : other = spd
  · subst same
    simp only [World.charged, update_self, if_true]
    exact Nat.mod_eq_of_lt (by omega)
  · simp only [World.charged, update_of_ne same, if_neg same, Nat.add_zero]

end Addresses

/-- A region is mapped into a component that does not have it. -/
theorem MappedOnce.add {w w' : World} {spd id npages : Nat} (once : MappedOnce w)
    (mapped : w'.mapped = update w.mapped spd ((id, npages) :: w.mapped spd))
    (unmapped : ∀ entry ∈ w.mapped spd, entry.1 ≠ id)
    (kept : ∀ other i, (w.comps other).shmAddr i ≠ 0 → (w'.comps other).shmAddr i ≠ 0)
    (own : w'.vaddr spd id ≠ 0)
    (region : ∃ region ∈ w'.regions, region.id = id ∧ region.npages = npages)
    (keeps : ∀ region ∈ w.regions, region ∈ w'.regions) : MappedOnce w' := by
  have entries : ∀ other, ∀ entry ∈ w'.mapped other,
      other = spd ∧ entry = (id, npages) ∨ entry ∈ w.mapped other := by
    intro other entry member
    rw [mapped] at member
    by_cases same : other = spd
    · subst same
      rw [update_self] at member
      rcases mem_cons.mp member with new | old
      · exact .inl ⟨rfl, new⟩
      · exact .inr old
    · rw [update_of_ne same] at member
      exact .inr member
  refine ⟨?_, ?_, ?_⟩
  · intro other
    rw [mapped]
    by_cases same : other = spd
    · subst same
      rw [update_self]
      refine nodup_cons.mpr ⟨?_, once.ids other⟩
      intro again
      obtain ⟨entry, member, number⟩ := mem_map.mp again
      exact unmapped entry member number
    · rw [update_of_ne same]
      exact once.ids other
  · intro other entry member
    rcases entries other entry member with ⟨rfl, rfl⟩ | old
    · exact own
    · exact kept other _ (once.address other entry old)
  · intro other entry member
    rcases entries other entry member with ⟨rfl, rfl⟩ | old
    · exact region
    · obtain ⟨region, allocated, found⟩ := once.region other entry old
      exact ⟨region, keeps region allocated, found⟩

end Shmem

end Composite
