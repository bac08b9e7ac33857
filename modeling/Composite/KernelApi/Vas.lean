import Composite.KernelApi.Capids.Model
import Composite.KernelApi.Memory.Model

/-!
# Virtual addresses at user level

The heap of a component grows by ranges of pages, and the page table gets a node for every 4 MB
that the ranges reach.  The recorded frontier of the nodes may be behind those constructed: a range
that starts below it does not move it.  Addresses are 32-bit numbers.
-/

namespace Composite

namespace Vas

open Transition UserMemory Checked List

/-- A failed assertion, or the loop of `__page_bump_mem_alloc` that does not end. -/
inductive Failure where
  | assertion
  | endless
  deriving DecidableEq, Repr

/-- `vas_frontier` and `vasrange_frontier` of a component, and the ranges of 4 MB with a node in its
page table in the order of construction. -/
structure World where
  vasFrontier : Nat
  vasrangeFrontier : Nat
  nodes : List Nat
  deriving DecidableEq, Repr

def roundUpToPgdPage (x : Nat) : Nat := Capids.roundUpToPow2 x pgdRange

/-- `cos_vasfrontier_init`; in the middle of 4 MB the node is taken to be there. -/
def initial (heapPtr : Nat) : World :=
  ⟨heapPtr, roundUpToPgdPage heapPtr, if heapPtr % pgdRange = 0 then [] else [heapPtr / pgdRange]⟩

/-- Where `pgtbl_create` copies the kernel's quarter of the directory to
(`KERNEL_PGD_REGION_OFFSET`): from this range of 4 MB on every page table has its nodes. -/
def kernelPgd : Nat := 768

/-- `__bump_mem_expand_intern`: without memory for the node, and where there is one, it fails. -/
def bumpMemExpandIntern (kmem : Bool) (nodes : List Nat) (memPtr : Nat) :
    Except Failure (List Nat) :=
  if kmem ∧ memPtr / pgdRange < kernelPgd ∧ memPtr / pgdRange ∉ nodes then
    .ok (nodes ++ [memPtr / pgdRange])
  else .error .assertion

/-- The loop of `__bump_mem_expand_range`.  With as many turns as there are ranges of 4 MB every one
has a node, and another turn fails. -/
def expandLoop (kmem : Bool) (limit : Nat) : Nat → Nat → List Nat → Except Failure (Nat × List Nat)
  | 0, _, _ => .error .assertion
  | turns + 1, addr, nodes =>
    if addr < limit then do
      let nodes ← bumpMemExpandIntern kmem nodes addr
      expandLoop kmem limit turns ((addr + pgdRange) % 2 ^ 32) nodes
    else .ok (addr, nodes)

def bumpMemExpandRange (kmem : Bool) (nodes : List Nat) (memPtr memSz : Nat) :
    Except Failure (List Nat) := do
  let limit := (memPtr + memSz) % 2 ^ 32
  let (addr, nodes) ← expandLoop kmem limit (2 ^ 10 + 1) memPtr nodes
  if roundUpToPgdPage addr = roundUpToPgdPage limit then .ok nodes else .error .assertion

/-- The loop at the end of `__page_bump_mem_alloc`, where nothing else moves the frontier. -/
def moveFrontier (heapVaddr frontier rounded : Nat) : Except Failure Nat :=
  if frontier > heapVaddr then .ok frontier
  else if rounded > heapVaddr then .ok rounded
  else .error .endless

/-- `__page_bump_mem_alloc`, as `__page_bump_valloc` calls it. -/
def pageBumpMemAlloc (kmem : Bool) (w : World) (sz : Nat) : Except Failure (Nat × World) :=
  let heapVaddr := w.vasFrontier
  let heapEnd := (heapVaddr + sz) % 2 ^ 32
  let rounded := (sz + 2 ^ 32 - (roundUpToPgdPage heapVaddr + 2 ^ 32 - heapVaddr) % 2 ^ 32) % 2 ^ 32
  let w := { w with vasFrontier := heapEnd }
  if sz % pageSize ≠ 0 then .error .assertion
  else if heapEnd ≤ w.vasrangeFrontier then .ok (heapVaddr, w)
  else do
    let nodes ← bumpMemExpandRange kmem w.nodes (roundUpToPgdPage heapVaddr) rounded
    if roundUpToPgdPage heapVaddr = 0 then .error .assertion
    else
      let frontier ← moveFrontier heapVaddr w.vasrangeFrontier (roundUpToPgdPage heapEnd)
      .ok (heapVaddr, { w with vasrangeFrontier := frontier, nodes })

/-- A range is allocated, with or without kernel memory for its nodes. -/
structure Alloc where
  sz : Nat
  kmem : Bool
  deriving DecidableEq, Repr

def next (w : World) (a : Alloc) : Option World :=
  (pageBumpMemAlloc a.kmem w a.sz).toOption.map Prod.snd

/-- Pages are asked for, there is memory for the nodes, and the range ends below the kernel. -/
def Legal (w : World) (a : Alloc) : Prop :=
  0 < a.sz ∧ a.sz % pageSize = 0 ∧ a.kmem = true ∧ w.vasFrontier + a.sz ≤ kernelPgd * pgdRange

instance (w : World) (a : Alloc) : Decidable (Legal w a) :=
  inferInstanceAs (Decidable (_ ∧ _ ∧ _ ∧ _))

/-- The number of ranges of 4 MB up to an address. -/
def pgds (x : Nat) : Nat := (x + (pgdRange - 1)) / pgdRange

theorem roundUpToPgdPage_eq {x : Nat} (room : x ≤ kernelPgd * pgdRange) :
    roundUpToPgdPage x = pgds x * pgdRange := by
  unfold roundUpToPgdPage Capids.roundUpToPow2 pgds
  unfold kernelPgd pgdRange at room
  unfold pgdRange
  rw [Nat.mod_eq_of_lt (by omega), Nat.add_sub_assoc (by decide)]

theorem lt_pgds_iff {i x : Nat} : i < pgds x ↔ i * pgdRange < x := by
  unfold pgds pgdRange
  omega

/-- Nodes are constructed for the ranges from the `k`-th on up to the limit. -/
theorem expandLoop_eq {limit first : Nat} (room : limit ≤ kernelPgd * pgdRange) (turns k : Nat)
    (reaches : pgds limit ≤ turns + k) (behind : first ≤ k) :
    expandLoop true limit (turns + 1) (k * pgdRange) (range' first (k - first)) =
      .ok (max k (pgds limit) * pgdRange, range' first (max k (pgds limit) - first)) := by
  have stops {turns k : Nat} (reached : pgds limit ≤ k) (nodes : List Nat) :
      expandLoop true limit (turns + 1) (k * pgdRange) nodes = .ok (k * pgdRange, nodes) := by
    rw [expandLoop, if_neg (mt lt_pgds_iff.mpr (Nat.not_lt.mpr reached))]
  induction turns generalizing k with
  | zero => rw [stops (by omega), max_eq_left (by omega)]
  | succ turns ih =>
    by_cases more : k * pgdRange < limit
    · have further : k + 1 ≤ pgds limit := lt_pgds_iff.mpr more
      have place : k * pgdRange / pgdRange = k := Nat.mul_div_cancel k (by decide)
      have absent : k ∉ range' first (k - first) := by
        rw [mem_range'_1]
        omega
      have extended : range' first (k - first) ++ [k] = range' first (k + 1 - first) := by
        rw [Nat.sub_add_comm behind, range'_1_concat, Nat.add_sub_cancel' behind]
      have below : k < kernelPgd :=
        Nat.lt_of_mul_lt_mul_right (Nat.lt_of_lt_of_le more room)
      have moved : (k * pgdRange + pgdRange) % 2 ^ 32 = (k + 1) * pgdRange := by
        rw [← Nat.succ_mul, Nat.mod_eq_of_lt]
        unfold kernelPgd at below
        unfold pgdRange
        omega
      have built : bumpMemExpandIntern true (range' first (k - first)) (k * pgdRange) =
          .ok (range' first (k + 1 - first)) := by
        rw [bumpMemExpandIntern, place, if_pos ⟨rfl, below, absent⟩, extended]
      have rest := ih (k + 1) (by omega) (Nat.le_succ_of_le behind)
      rw [max_eq_right further] at rest
      rw [expandLoop, if_pos more, built, moved, ok_bind, rest,
        max_eq_right (Nat.le_of_succ_le further)]
    · have reached : pgds limit ≤ k := Nat.not_lt.mp (mt lt_pgds_iff.mp more)
      rw [stops reached, max_eq_left reached]

/-- The nodes are those of the ranges from the start up to the allocation pointer, and the recorded
frontier is not above them. -/
structure Sound (base : Nat) (w : World) : Prop where
  nodes : w.nodes = range' (base / pgdRange) (pgds w.vasFrontier - base / pgdRange)
  frontier : w.vasrangeFrontier ≤ pgds w.vasFrontier * pgdRange
  after : base ≤ w.vasFrontier

variable {base : Nat} {w : World} {a : Alloc}

theorem initial_sound (room : base ≤ kernelPgd * pgdRange) : Sound base (initial base) where
  nodes := by
    unfold initial pgds pgdRange
    by_cases aligned : base % 2 ^ 22 = 0
    · rw [if_pos aligned, show (base + (2 ^ 22 - 1)) / 2 ^ 22 - base / 2 ^ 22 = 0 by omega]
      rfl
    · rw [if_neg aligned, show (base + (2 ^ 22 - 1)) / 2 ^ 22 - base / 2 ^ 22 = 1 by omega]
      rfl
  frontier := Nat.le_of_eq (roundUpToPgdPage_eq room)
  after := Nat.le_refl base

theorem pgds_bounds (x : Nat) : x ≤ pgds x * pgdRange ∧ pgds x * pgdRange < x + pgdRange := by
  unfold pgds pgdRange
  omega

theorem pgds_mono {x y : Nat} (order : x ≤ y) : pgds x ≤ pgds y :=
  Nat.div_le_div_right (Nat.add_le_add_right order _)

/-- The range to expand ends where the allocation does, although its size wraps around when the
allocation ends below the next 4 MB. -/
theorem rounded_end {start up sz : Nat} (above : start ≤ up) (near : up < start + pgdRange)
    (room : start + sz ≤ kernelPgd * pgdRange) :
    (up + (sz + 2 ^ 32 - (up + 2 ^ 32 - start) % 2 ^ 32) % 2 ^ 32) % 2 ^ 32 = start + sz := by
  unfold pgdRange at near
  unfold kernelPgd pgdRange at room
  omega

theorem bumpMemExpandRange_eq {first start sz : Nat} (behind : first ≤ pgds start)
    (room : start + sz ≤ kernelPgd * pgdRange) :
    bumpMemExpandRange true (range' first (pgds start - first)) (pgds start * pgdRange)
      ((sz + 2 ^ 32 - (pgds start * pgdRange + 2 ^ 32 - start) % 2 ^ 32) % 2 ^ 32) =
      .ok (range' first (pgds (start + sz) - first)) := by
  have bounds := pgds_bounds start
  have ends := pgds_bounds (start + sz)
  have order : pgds start ≤ pgds (start + sz) := pgds_mono (Nat.le_add_right ..)
  have inside : pgds (start + sz) * pgdRange ≤ kernelPgd * pgdRange := by
    unfold kernelPgd pgdRange at room ⊢
    unfold pgds pgdRange
    omega
  have few : pgds (start + sz) ≤ 2 ^ 10 + pgds start := by
    unfold kernelPgd pgdRange at inside
    omega
  have again : pgds (pgds (start + sz) * pgdRange) = pgds (start + sz) := by
    unfold pgds pgdRange
    omega
  rw [bumpMemExpandRange, rounded_end bounds.1 bounds.2 room, expandLoop_eq room _ _ few behind,
    ok_bind, max_eq_right order]
  exact if_pos (by rw [roundUpToPgdPage_eq inside, roundUpToPgdPage_eq room, again])

/-- The allocation constructs the nodes between the old and the new pointer. -/
theorem Sound.alloc (sound : Sound base w) (positive : 0 < base) (legal : Legal w a) :
    ∃ w', pageBumpMemAlloc a.kmem w a.sz = .ok (w.vasFrontier, w') ∧
      w'.vasFrontier = w.vasFrontier + a.sz ∧ Sound base w' := by
  obtain ⟨nonzero, pages, granted, room⟩ := legal
  have bounds := pgds_bounds w.vasFrontier
  have ends := pgds_bounds (w.vasFrontier + a.sz)
  have order : pgds w.vasFrontier ≤ pgds (w.vasFrontier + a.sz) := pgds_mono (Nat.le_add_right ..)
  have order' := Nat.mul_le_mul_right pgdRange order
  have behind : base / pgdRange ≤ pgds w.vasFrontier :=
    Nat.div_le_div_right (Nat.le_add_right_of_le sound.after)
  have room' : w.vasFrontier ≤ kernelPgd * pgdRange := by omega
  have small : (w.vasFrontier + a.sz) % 2 ^ 32 = w.vasFrontier + a.sz :=
    Nat.mod_eq_of_lt (by unfold kernelPgd pgdRange at room; omega)
  have after := sound.after
  have after' : base ≤ w.vasFrontier + a.sz := Nat.le_add_right_of_le after
  have known := sound.frontier
  simp only [pageBumpMemAlloc, small, if_neg (not_not.mpr pages)]
  by_cases early : w.vasFrontier + a.sz ≤ w.vasrangeFrontier
  · have same : pgds (w.vasFrontier + a.sz) = pgds w.vasFrontier := by
      refine Nat.le_antisymm (Nat.not_lt.mp fun more => ?_) order
      have := lt_pgds_iff.mp more
      omega
    rw [if_pos early]
    exact ⟨_, rfl, rfl, by rw [same]; exact sound.nodes, by rw [same]; exact known, after'⟩
  · rw [if_neg early, granted, sound.nodes, roundUpToPgdPage_eq room', roundUpToPgdPage_eq room,
      bumpMemExpandRange_eq behind room, ok_bind, if_neg (by omega), moveFrontier]
    by_cases above : w.vasrangeFrontier > w.vasFrontier
    · rw [if_pos above]
      exact ⟨_, rfl, rfl, rfl, known.trans order', after'⟩
    · rw [if_neg above, if_pos (by omega)]
      exact ⟨_, rfl, rfl, rfl, le_rfl, after'⟩

theorem Legal.base_below {allocs : List Alloc} (legal : Meets Legal next (initial base) allocs)
    (reached : exec next (initial base) allocs = some w) (isLegal : Legal w a) :
    base ≤ kernelPgd * pgdRange := by
  cases allocs with
  | nil =>
    cases reached
    exact Nat.le_trans (Nat.le_add_right _ _) isLegal.2.2.2
  | cons first rest => exact Nat.le_trans (Nat.le_add_right _ _) legal.1.2.2.2

/-- Over any sequence of allocations below the kernel no assertion fails, every range starts where
the one before it ended, no node is constructed twice, and every 4 MB that the range reaches have a
node when it is returned. -/
theorem virtual_ranges (base : Nat) (positive : 0 < base)
    {allocs : List Alloc} {w : World} (legal : Meets Legal next (initial base) allocs)
    (reached : exec next (initial base) allocs = some w) {a : Alloc} (isLegal : Legal w a) :
    ∃ w', pageBumpMemAlloc a.kmem w a.sz = .ok (w.vasFrontier, w') ∧
      w'.vasFrontier = w.vasFrontier + a.sz ∧ w'.nodes.Nodup ∧
      ∀ i, w.vasFrontier < (i + 1) * pgdRange → i * pgdRange < w.vasFrontier + a.sz →
        i ∈ w'.nodes := by
  have room := isLegal.base_below legal reached
  have sound : Sound base w := by
    refine exec_invariant (fun _ _ after sound legal stepped => ?_)
      (initial_sound room) legal reached
    obtain ⟨w', given, _, sound'⟩ := sound.alloc positive legal
    rw [next, given] at stepped
    cases stepped
    exact sound'
  obtain ⟨w', given, ends, sound'⟩ := sound.alloc positive isLegal
  refine ⟨w', given, ends, ?_, fun i starts below => ?_⟩
  · rw [sound'.nodes]
    exact nodup_range'
  · have reaches : i < pgds w'.vasFrontier := lt_pgds_iff.mpr (ends ▸ below)
    have behind : base / pgdRange < i + 1 :=
      (Nat.div_lt_iff_lt_mul (by decide)).mpr (Nat.lt_of_le_of_lt sound.after starts)
    rw [sound'.nodes, mem_range'_1]
    omega

/-- After a page and 8 MB that do not move the frontier, another page. -/
theorem virtual_ranges_lagging :
    ∃ w', pageBumpMemAlloc true ⟨0xc01000, 0x800000, [1, 2, 3]⟩ 0x1000 = .ok (0xc01000, w') ∧
      w'.nodes.Nodup := by
  have reached : exec next (initial 0x400000) [⟨0x1000, true⟩, ⟨0x800000, true⟩] =
      some ⟨0xc01000, 0x800000, [1, 2, 3]⟩ := by decide +kernel
  obtain ⟨w', given, _, once, _⟩ := virtual_ranges 0x400000 (by decide)
    (by decide +kernel) reached (a := ⟨0x1000, true⟩) (by decide)
  exact ⟨w', given, once⟩

/-- The last 4 MB of the address space are given out without a node, and an assertion fails at
address 0 and where the kernel's node is met. -/
theorem last_range_without_node :
    pageBumpMemAlloc true (initial 0xffc00000) 0x400000 = .ok (0xffc00000, ⟨0, 0xffc00000, []⟩) ∧
    pageBumpMemAlloc true (initial 0) 0x1000 = .error .assertion ∧
    pageBumpMemAlloc true (initial 0xbfc00000) 0x401000 = .error .assertion := by
  decide +kernel

end Vas

end Composite
