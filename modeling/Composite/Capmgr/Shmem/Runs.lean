import Composite.Capmgr.Shmem.Accounting

/-!
# Numbers, keys and totals of shared memory

Over every run of registrations, allocations and mappings the bookkeeping is right as long
as components are registered first, no size overflows, pages are there, and a key is used
once.  The total of a component leaves out what was mapped into it.
-/

namespace Composite

open Function List

namespace Shmem

section Alloc

variable {w w' : World} {spd numPages : Nat} {key : UInt16}

structure Grants (w : World) (spd : Nat) (key : UInt16) (numPages : Nat) (w' : World) : Prop where
  room : w.glb.freeRegionId < maxShmemRegions
  self : w'.self = w.self
  counter : w'.glb.freeRegionId = w.glb.freeRegionId + 1
  total : w'.glb.totalPages = w.glb.totalPages + numPages
  limit : w.glb.totalPages + numPages ≤ 1024
  npages : w'.glb.regionNpages = Function.update w.glb.regionNpages w.glb.freeRegionId numPages
  keys : ∀ i, w'.glb.regionKeys i ≠ 0 →
    w'.glb.regionKeys i = w.glb.regionKeys i ∨ i = w.glb.freeRegionId ∧ w'.glb.regionKeys i = key
  charged : ∀ other, (w'.comps other).totalPages =
    (w.comps other).totalPages + if other = spd then numPages else 0
  kept : ∀ other i, (w.comps other).shmAddr i ≠ 0 → (w'.comps other).shmAddr i ≠ 0
  own : (w'.comps spd).shmAddr w.glb.freeRegionId ≠ 0
  placed : ∀ i, (w'.comps w.self).shmAddr i ≠ 0 →
    i = w.glb.freeRegionId ∨ (w.comps w.self).shmAddr i ≠ 0
  regions : w'.regions = ⟨w.glb.freeRegionId + 1, key, numPages, spd⟩ :: w.regions
  mapped : w'.mapped =
    Function.update w.mapped spd ((w.glb.freeRegionId + 1, numPages) :: w.mapped spd)

theorem le_of_bytes_le {pages : Nat} (small : pages < 2 ^ 20)
    (below : ¬bytes pages > maxShmemSize) : pages ≤ 1024 := by
  unfold bytes maxShmemSize pageSize at below
  omega

theorem keySet_keys {glb glb' : GlbInfo} {id : Nat}
    (set : capShmemRegionKeySet glb id key = some glb') :
    glb'.freeRegionId = glb.freeRegionId ∧ glb'.totalPages = glb.totalPages ∧
      glb'.regionNpages = glb.regionNpages ∧
      ∀ i, glb'.regionKeys i ≠ 0 →
        glb'.regionKeys i = glb.regionKeys i ∨ i = id - 1 ∧ glb'.regionKeys i = key := by
  unfold capShmemRegionKeySet at set
  split_ifs at set
  cases set
  refine ⟨rfl, rfl, rfl, fun i keyed => ?_⟩
  by_cases behind : i = id - 1 + 1
  · exact absurd (by rw [behind]; exact update_self _ _ _) keyed
  · simp only [update_of_ne behind]
    by_cases here : i = id - 1
    · exact .inr ⟨here, by rw [here]; exact update_self _ _ _⟩
    · exact .inl (update_of_ne here _ _)

theorem keyed_keys {glb glb' : GlbInfo} {id : Nat}
    (set : (if key ≠ 0 then capShmemRegionKeySet glb id key else some glb) = some glb') :
    glb'.freeRegionId = glb.freeRegionId ∧ glb'.totalPages = glb.totalPages ∧
      glb'.regionNpages = glb.regionNpages ∧
      ∀ i, glb'.regionKeys i ≠ 0 →
        glb'.regionKeys i = glb.regionKeys i ∨ i = id - 1 ∧ glb'.regionKeys i = key := by
  by_cases keyed : key ≠ 0
  · rw [if_pos keyed] at set
    exact keySet_keys set
  · rw [if_neg keyed] at set
    cases set
    exact ⟨rfl, rfl, rfl, fun _ _ => .inl rfl⟩

theorem regionPages_ok {capAddr compAddr fid : Nat} {result : Option Nat} (pages : capAddr ≠ 0)
    (address : compAddr ≠ 0)
    (allocated : regionPages w spd fid key numPages capAddr compAddr = .ok (result, w')) :
    w' = (w.charged spd fid numPages).granted spd fid key numPages capAddr compAddr := by
  unfold regionPages at allocated
  simp only [if_neg pages, if_neg address] at allocated
  split_ifs at allocated
  cases allocated
  rfl

theorem granted_grants {capAddr compAddr : Nat} {glb : GlbInfo}
    (room : w.glb.freeRegionId < maxShmemRegions) (limit : w.glb.totalPages + numPages ≤ 1024)
    (smallOwn : (w.comps spd).totalPages + numPages < 2 ^ 20) (pages : capAddr ≠ 0)
    (address : compAddr ≠ 0)
    (recorded : glb.freeRegionId = w.glb.freeRegionId + 1 ∧ glb.totalPages = w.glb.totalPages ∧
      glb.regionNpages = w.glb.regionNpages ∧
      ∀ i, glb.regionKeys i ≠ 0 → glb.regionKeys i = w.glb.regionKeys i ∨
        i = w.glb.freeRegionId ∧ glb.regionKeys i = key) :
    Grants w spd key numPages
      ((({ w with glb := glb } : World).charged spd (w.glb.freeRegionId + 1) numPages).granted spd
        (w.glb.freeRegionId + 1) key numPages capAddr compAddr) := by
  obtain ⟨counter, total, npages, keys⟩ := recorded
  refine ⟨room, rfl, counter, ?_, limit, ?_, keys, ?_, ?_, ?_, ?_, rfl, rfl⟩
  · show (glb.totalPages + numPages) % 2 ^ 32 = _
    rw [total, Nat.mod_eq_of_lt (by omega)]
  · show update glb.regionNpages w.glb.freeRegionId numPages = _
    rw [npages]
  · intro other
    show ((World.vaddrSet _ _ _ _).comps other).totalPages = _
    rw [vaddrSet_totalPages, vaddrSet_totalPages]
    exact @charged_totalPages { w with glb := glb } _ _ smallOwn _ other
  · intro other i placed
    refine vaddrSet_kept address (vaddrSet_kept pages ?_)
    rw [charged_shmAddr]
    exact placed
  · show ((World.vaddrSet _ _ _ _).comps spd).shmAddr w.glb.freeRegionId ≠ 0
    rw [vaddrSet_shmAddr, if_pos ⟨rfl, rfl⟩]
    exact address
  · intro i placed
    by_cases here : i = w.glb.freeRegionId
    · exact .inl here
    · have placed : ((World.vaddrSet _ _ _ _).comps w.self).shmAddr i ≠ 0 := placed
      rw [vaddrSet_shmAddr, if_neg fun same => here same.2, vaddrSet_shmAddr,
        if_neg fun same => here same.2, charged_shmAddr] at placed
      exact .inr placed

theorem alloc_cases (counter : w.glb.freeRegionId < 2 ^ 32) {capAddr compAddr : Nat}
    {result : Option Nat}
    (careful : Careful w (.alloc spd key numPages capAddr compAddr))
    (allocated : capShmemRegionAlloc w spd key numPages capAddr compAddr = .ok (result, w')) :
    (∃ free, w.glb.freeRegionId ≤ free ∧ free < 2 ^ 32 ∧
      w' = { w with glb := { w.glb with freeRegionId := free } }) ∨
    Grants w spd key numPages w' := by
  obtain ⟨smallTotal, smallOwn, pages, address, -⟩ := careful
  unfold capShmemRegionAlloc at allocated
  by_cases full : bytes (w.glb.totalPages + numPages) > maxShmemSize
  · rw [if_pos full] at allocated
    cases allocated
    exact .inl ⟨_, le_rfl, counter, rfl⟩
  by_cases fullOwn : bytes ((w.comps spd).totalPages + numPages) > compMaxShmem
  · rw [if_neg full, if_pos fullOwn] at allocated
    cases allocated
    exact .inl ⟨_, le_rfl, counter, rfl⟩
  rw [if_neg full, if_neg fullOwn] at allocated
  by_cases last : w.glb.freeRegionId + 1 = 2 ^ 32
  · rw [last, Nat.mod_self] at allocated
    cases allocated
  have counted : w.glb.freeRegionId + 1 < 2 ^ 32 := by omega
  rw [Nat.mod_eq_of_lt counted] at allocated
  dsimp only at allocated
  have refused : w' = { w with glb := { w.glb with freeRegionId := w.glb.freeRegionId + 1 } } →
      ∃ free, w.glb.freeRegionId ≤ free ∧ free < 2 ^ 32 ∧
        w' = { w with glb := { w.glb with freeRegionId := free } } :=
    fun same => ⟨_, Nat.le_succ _, counted, same⟩
  split at allocated
  · cases allocated
    exact .inl (refused rfl)
  rename_i room
  split at allocated
  · cases allocated
  split at allocated
  · cases allocated
    exact .inl (refused rfl)
  split at allocated
  · cases allocated
    exact .inl (refused rfl)
  split at allocated
  · cases allocated
    exact .inl (refused rfl)
  · rename_i glb set
    rw [regionPages_ok pages address allocated]
    exact .inr (granted_grants (by omega) (le_of_bytes_le smallTotal full) smallOwn pages address
      (keyed_keys set))

theorem Inv.counted (inv : Inv w) {free : Nat} (later : w.glb.freeRegionId ≤ free)
    (counter : free < 2 ^ 32) : Inv { w with glb := { w.glb with freeRegionId := free } } where
  counter := counter
  ids := inv.ids
  bounded region allocated :=
    ⟨(inv.bounded region allocated).1, (inv.bounded region allocated).2.trans later⟩
  keys := inv.keys
  keyed := inv.keyed
  total := inv.total
  limit := inv.limit
  charged := inv.charged
  placed := inv.placed
  mapped := ⟨inv.mapped.ids, inv.mapped.address, inv.mapped.region⟩

theorem Inv.fresh (inv : Inv w) {region : Region} (allocated : region ∈ w.regions) :
    region.id ≠ w.glb.freeRegionId + 1 := by
  have bounded := inv.bounded region allocated
  omega

section

variable (grants : Grants w spd key numPages w')

include grants

theorem Grants.ownPages (other : Nat) :
    w'.ownPages other = w.ownPages other + if other = spd then numPages else 0 := by
  unfold World.ownPages
  rw [grants.regions]
  by_cases same : other = spd
  · subst same
    simp [Nat.add_comm]
  · simp [same, Ne.symm same]

theorem Grants.allocatedPages : w'.allocatedPages = w.allocatedPages + numPages := by
  unfold World.allocatedPages
  rw [grants.regions, map_cons, sum_cons, Nat.add_comm]

theorem Grants.keeps {region : Region} (allocated : region ∈ w.regions) : region ∈ w'.regions := by
  rw [grants.regions]
  exact mem_cons_of_mem _ allocated

theorem Grants.inv (inv : Inv w) (unused : key ≠ 0 → ∀ region ∈ w.regions, region.key ≠ key) :
    Inv w' := by
  have member : ∀ region ∈ w'.regions,
      region = ⟨w.glb.freeRegionId + 1, key, numPages, spd⟩ ∨ region ∈ w.regions := by
    intro region allocated
    rw [grants.regions] at allocated
    exact mem_cons.mp allocated
  have new : (⟨w.glb.freeRegionId + 1, key, numPages, spd⟩ : Region) ∈ w'.regions := by
    rw [grants.regions]
    exact mem_cons_self
  have room := grants.room
  refine ⟨?_, ?_, ?_, ?_, ?_, ?_, ?_, ?_, ?_, ?_⟩
  · rw [grants.counter]
    unfold maxShmemRegions at room
    omega
  · rw [grants.regions]
    refine nodup_cons.mpr ⟨?_, inv.ids⟩
    intro again
    obtain ⟨region, allocated, same⟩ := mem_map.mp again
    exact inv.fresh allocated same
  · intro region allocated
    rw [grants.counter]
    rcases member region allocated with rfl | allocated
    · exact ⟨Nat.succ_pos _, le_rfl⟩
    · exact ⟨(inv.bounded region allocated).1, (inv.bounded region allocated).2.trans
        (Nat.le_succ _)⟩
  · intro region allocated other otherAllocated keyed same
    rcases member region allocated with rfl | allocated <;>
      rcases member other otherAllocated with rfl | otherAllocated
    · rfl
    · exact absurd same.symm (unused keyed other otherAllocated)
    · have keyed : key ≠ 0 := fun zero => keyed (same.trans zero)
      exact absurd same (unused keyed region allocated)
    · exact inv.keys region allocated other otherAllocated keyed same
  · intro i small keyed
    rcases grants.keys i keyed with same | ⟨rfl, same⟩
    · rw [same] at keyed ⊢
      obtain ⟨region, allocated, id, named⟩ := inv.keyed i small keyed
      exact ⟨region, grants.keeps allocated, id, named⟩
    · exact ⟨_, new, rfl, same.symm⟩
  · rw [grants.total, grants.allocatedPages, inv.total]
  · rw [grants.total]
    exact grants.limit
  · intro other
    rw [grants.charged, grants.ownPages, inv.charged]
  · intro i placed
    rw [grants.self] at placed
    rw [grants.npages]
    by_cases here : i = w.glb.freeRegionId
    · subst here
      refine ⟨_, new, rfl, ?_⟩
      rw [update_self]
    · rw [update_of_ne here]
      obtain ⟨region, allocated, found⟩ := inv.placed i ((grants.placed i placed).resolve_left here)
      exact ⟨region, grants.keeps allocated, found⟩
  · refine inv.mapped.add grants.mapped ?_ grants.kept grants.own ⟨_, new, rfl, rfl⟩
      fun _ => grants.keeps
    intro entry mapped number
    obtain ⟨region, allocated, id, -⟩ := inv.mapped.region spd entry mapped
    exact inv.fresh allocated (id.trans number)

end

end Alloc

section Map

variable {w w' : World} {spd id compAddr : Nat} {key : UInt16}

structure Maps (w : World) (spd id compAddr : Nat) : Prop where
  positive : 0 < id
  placed : w.vaddr w.self id ≠ 0
  unmapped : w.vaddr spd id = 0
  address : compAddr ≠ 0

theorem map_cases {result : Option (Nat × Nat)}
    (mapped : capShmemRegionMap w spd id key compAddr = .ok (result, w')) :
    w' = w ∨
      ∃ fid, fid = (if key ≠ 0 then capShmemRegionFind w.glb key else id) ∧
        Maps w spd fid compAddr ∧ w' = w.mapInto spd fid compAddr := by
  unfold capShmemRegionMap at mapped
  generalize (if key ≠ 0 then capShmemRegionFind w.glb key else id) = fid at mapped ⊢
  dsimp only at mapped
  split_ifs at mapped with outside absent present full empty refused
  · cases mapped
    exact .inl rfl
  · cases mapped
    exact .inl rfl
  · cases mapped
    exact .inl rfl
  · cases mapped
    exact .inl rfl
  · cases mapped
    exact .inl rfl
  · cases mapped
    exact .inr ⟨fid, rfl, ⟨by omega, absent, not_not.mp present, refused⟩, rfl⟩

theorem Maps.inv (maps : Maps w spd id compAddr) (inv : Inv w) :
    Inv (w.mapInto spd id compAddr) := by
  have other : w.self ≠ spd := by
    intro same
    have placed := maps.placed
    rw [same] at placed
    exact placed maps.unmapped
  have once : MappedOnce (w.mapInto spd id compAddr) := by
    refine inv.mapped.add rfl ?_ (fun other i => vaddrSet_kept maps.address) ?_ ?_
      fun _ member => member
    · intro entry member number
      exact inv.mapped.address spd entry member (number ▸ maps.unmapped)
    · show ((w.vaddrSet spd id compAddr).comps spd).shmAddr (id - 1) ≠ 0
      rw [vaddrSet_shmAddr, if_pos ⟨rfl, rfl⟩]
      exact maps.address
    · obtain ⟨region, allocated, number, pages⟩ := inv.placed (id - 1) maps.placed
      have positive := maps.positive
      exact ⟨region, allocated, by omega, pages⟩
  refine ⟨inv.counter, inv.ids, inv.bounded, inv.keys, inv.keyed, inv.total, inv.limit, ?_, ?_,
    once⟩
  · intro spd'
    show ((w.vaddrSet spd id compAddr).comps spd').totalPages = _
    rw [vaddrSet_totalPages]
    exact inv.charged spd'
  · intro i there
    have there : ((w.vaddrSet spd id compAddr).comps w.self).shmAddr i ≠ 0 := there
    rw [vaddrSet_shmAddr, if_neg fun same => other same.1] at there
    exact inv.placed i there

end Map

theorem inv_initial (self : Nat) (behind : Nat → UInt16) : Inv (initial self behind) where
  counter := Nat.two_pow_pos 32
  ids := nodup_nil
  bounded := nofun
  keys := nofun
  keyed _ small keyed := absurd (if_pos small) keyed
  total := rfl
  limit := Nat.zero_le _
  charged _ := rfl
  placed _ placed := absurd rfl placed
  mapped := ⟨fun _ => nodup_nil, fun _ => nofun, fun _ => nofun⟩

section Step

variable {w w' : World} {op : Op}

inductive Effect (w : World) : Op → World → Prop where
  | nothing (op : Op) : Effect w op w
  | registers (spd : Nat) : w.glb.freeRegionId = 0 →
      Effect w (.register spd) (capInfoCompInit w spd)
  | counts (op : Op) (free : Nat) : w.glb.freeRegionId ≤ free → free < 2 ^ 32 →
      Effect w op { w with glb := { w.glb with freeRegionId := free } }
  | grants {spd numPages capAddr compAddr : Nat} {key : UInt16} {w' : World} :
      (key ≠ 0 → ∀ region ∈ w.regions, region.key ≠ key) → Grants w spd key numPages w' →
      Effect w (.alloc spd key numPages capAddr compAddr) w'
  | maps {spd id fid compAddr : Nat} {key : UInt16} :
      fid = (if key ≠ 0 then capShmemRegionFind w.glb key else id) → Maps w spd fid compAddr →
      Effect w (.map spd id key compAddr) (w.mapInto spd fid compAddr)

theorem next_effect (counter : w.glb.freeRegionId < 2 ^ 32) (careful : Careful w op)
    (step : next w op = some w') : Effect w op w' := by
  cases op with
  | register spd =>
    cases step
    exact .registers spd careful
  | alloc spd key numPages capAddr compAddr =>
    simp only [next] at step
    by_cases registered : w.initflag spd = true
    · rw [if_pos registered] at step
      cases allocated : capShmemRegionAlloc w spd key numPages capAddr compAddr with
      | error fault =>
        rw [allocated] at step
        cases step
      | ok outcome =>
        rw [allocated] at step
        cases step
        rcases alloc_cases counter careful allocated with ⟨free, later, counter, same⟩ | grants
        · rw [same]
          exact .counts _ free later counter
        · exact .grants careful.2.2.2.2 grants
    · rw [if_neg registered] at step
      cases step
      exact .nothing _
  | map spd id key compAddr =>
    simp only [next] at step
    by_cases registered : w.initflag spd = true
    · rw [if_pos registered] at step
      cases mapped : capShmemRegionMap w spd id key compAddr with
      | error fault =>
        rw [mapped] at step
        cases step
      | ok outcome =>
        rw [mapped] at step
        cases step
        rcases map_cases mapped with same | ⟨fid, found, maps, same⟩
        · rw [same]
          exact .nothing _
        · rw [same]
          exact .maps found maps
    · rw [if_neg registered] at step
      cases step
      exact .nothing _

theorem Effect.inv (effect : Effect w op w') (inv : Inv w) : Inv w' := by
  cases effect with
  | nothing => exact inv
  | registers spd first => exact inv.register first spd
  | counts op free later counter => exact inv.counted later counter
  | grants unused grants => exact grants.inv inv unused
  | maps found maps => exact maps.inv inv

def RecordedTotals (w : World) : Prop := ∀ spd, (w.comps spd).totalPages = w.mappedPages spd

theorem Grants.mappedPages {spd numPages : Nat} {key : UInt16}
    (grants : Grants w spd key numPages w') (other : Nat) :
    w'.mappedPages other = w.mappedPages other + if other = spd then numPages else 0 := by
  unfold World.mappedPages
  rw [grants.mapped]
  by_cases same : other = spd
  · subst same
    rw [update_self, if_pos rfl, map_cons, sum_cons, Nat.add_comm]
  · rw [update_of_ne same, if_neg same, Nat.add_zero]

/-- A step that maps no region into a component that does not have it counts all pages. -/
theorem Effect.recorded (effect : Effect w op w') (inv : Inv w) (counted : Counted w op)
    (recorded : RecordedTotals w) : RecordedTotals w' := by
  cases effect with
  | nothing => exact recorded
  | registers spd first =>
    intro other
    have none : (capInfoCompInit w spd).mappedPages other = 0 := by
      show ((w.mapped other).map Prod.snd).sum = 0
      rw [inv.nothing_mapped first other]
      rfl
    rw [(inv.register first spd).charged, none]
    show ((w.regions.filter _).map Region.npages).sum = 0
    rw [inv.nothing first]
    rfl
  | counts op free later counter => exact recorded
  | grants unused grants =>
    intro other
    rw [grants.charged, grants.mappedPages, recorded other]
  | @maps spd id fid compAddr key found maps =>
    subst found
    rcases counted with absent | present
    · exact absurd absent maps.placed
    · exact absurd maps.unmapped present

end Step

/-- In every run that registers the components first, in which no size overflows and pages
are there, and that uses a key once, numbers and keys are distinct, and the totals are what
the regions add up to; the total of a component is that of the regions mapped into it,
where none was mapped into it that it has not allocated. -/
theorem shmem_accounted {self : Nat} {behind : Nat → UInt16} {ops : List Op} {w : World}
    (careful : Transition.Meets Careful next (initial self behind) ops)
    (executed : Transition.exec next (initial self behind) ops = some w) :
    Accounted w ∧
      (Transition.Meets Counted next (initial self behind) ops → RecordedTotals w) := by
  have kept : ∀ w op w', Inv w → Careful w op → next w op = some w' → Inv w' :=
    fun w op w' inv careful step => (next_effect inv.counter careful step).inv inv
  have keptTotals : ∀ w op w', Inv w ∧ RecordedTotals w → Careful w op ∧ Counted w op →
      next w op = some w' → Inv w' ∧ RecordedTotals w' := by
    rintro w op w' ⟨inv, recorded⟩ ⟨careful, counted⟩ step
    have effect := next_effect inv.counter careful step
    exact ⟨effect.inv inv, effect.recorded inv counted recorded⟩
  have initially := inv_initial self behind
  refine ⟨(Transition.exec_invariant kept initially careful executed).accounted, fun counted => ?_⟩
  exact (Transition.exec_invariant keptTotals ⟨initially, fun _ => rfl⟩ (careful.and counted)
    executed).2

theorem shmem_accounted_two :
    ∃ w, Transition.exec next (initial 0 fun _ => 0)
        [.register 0, .register 1, .register 2, .alloc 1 7 5 0x1000 0x2000,
          .alloc 2 0 3 0x6000 0x2000, .map 1 0 7 0x9000] = some w ∧
      w.regions = [⟨2, 0, 3, 2⟩, ⟨1, 7, 5, 1⟩] ∧ Accounted w ∧ RecordedTotals w := by
  have view : (Transition.exec next (initial 0 fun _ => 0)
        [.register 0, .register 1, .register 2, .alloc 1 7 5 0x1000 0x2000,
          .alloc 2 0 3 0x6000 0x2000, .map 1 0 7 0x9000]).map World.regions =
      some [⟨2, 0, 3, 2⟩, ⟨1, 7, 5, 1⟩] := by decide +kernel
  obtain ⟨w, executed, regions⟩ := Option.map_eq_some_iff.mp view
  obtain ⟨accounted, recorded⟩ := shmem_accounted (by decide +kernel) executed
  exact ⟨w, executed, regions, accounted, recorded (by decide +kernel)⟩

/-- A region of component 1 is mapped into component 2, whose total stays 0; a size that
overflows passes both limits; one key is given to two regions; and when the manager is
registered again, a number is given to two regions. -/
theorem shmem_not_accounted :
    (∃ w, Transition.exec next (initial 0 fun _ => 0)
        [.register 0, .register 1, .register 2, .alloc 1 0 5 0x1000 0x2000, .map 2 1 0 0x3000] =
          some w ∧ (w.comps 2).totalPages = 0 ∧ w.mappedPages 2 = 5) ∧
    (∃ w, Transition.exec next (initial 0 fun _ => 0)
        [.register 0, .register 1, .alloc 1 0 (2 ^ 20 + 1) 0x1000 0x2000] = some w ∧
      w.mappedPages 1 * pageSize > compMaxShmem ∧ w.glb.totalPages * pageSize > maxShmemSize) ∧
    (∃ w, Transition.exec next (initial 0 fun _ => 0)
        [.register 0, .register 1, .alloc 1 7 5 0x1000 0x2000, .alloc 1 7 6 0x6000 0x7000] =
          some w ∧ w.regions.map (fun region => (region.id, region.key)) = [(2, 7), (1, 7)]) ∧
    (∃ w, Transition.exec next (initial 0 fun _ => 0)
        [.register 0, .register 1, .alloc 1 0 5 0x1000 0x2000, .register 0, .register 2,
          .alloc 2 0 6 0x6000 0x7000] = some w ∧
      w.regions.map (fun region => (region.id, region.npages)) = [(1, 6), (1, 5)]) := by
  refine ⟨⟨_, rfl, ?_⟩, ⟨_, rfl, ?_⟩, ⟨_, rfl, ?_⟩, ⟨_, rfl, ?_⟩⟩
  all_goals decide +kernel

end Shmem

end Composite
