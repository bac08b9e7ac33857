import Composite.KernelApi.Memory.Model

/-!
# Pages are returned once

Over every run of allocations and hand-overs the pages that the allocator returns
are distinct pages of the untyped memory, of the type asked for, and outside of
what was handed over, as long as the pointers do not wrap around and no untyped page
is asked for behind the end of the memory.
-/

namespace Composite

open Function Checked List

namespace UserMemory

structure StartsAtPage (base sz : Nat) : Prop where
  nonzero : 0 < base
  start : base % pageSize = 0
  fits : base + sz + pageSize < 2 ^ 32

def Kind.km : Kind → Bool
  | .kmem | .untyped => true
  | .umem => false

def Kind.retyped : Kind → Bool
  | .kmem | .umem => true
  | .untyped => false

/-- No pointer wraps around in the step.  An untyped page is asked for while a
whole page is left, or where the untyped frontier says that there is none. -/
def Allowed (base sz : Nat) (w : World) : Op → Prop
  | .alloc kind =>
    w.mi.ptr kind.km + pageSize < 2 ^ 32 ∧ w.mi.untypedPtr + pageSize < 2 ^ 32 ∧
      (kind = .untyped → w.mi.untypedPtr + pageSize ≤ base + sz ∨
        w.mi.untypedPtr = w.mi.untypedFrontier)
  | .handOver addr len =>
    w.mi.kmemPtr + pageSize < 2 ^ 32 ∧ w.mi.untypedPtr + pageSize < 2 ^ 32 ∧ addr + len < 2 ^ 32

instance (base sz : Nat) (w : World) (op : Op) : Decidable (Allowed base sz w op) := by
  cases op <;> exact inferInstanceAs (Decidable (_ ∧ _ ∧ _))

structure ReturnedOnce (base sz : Nat) (w : World) : Prop where
  distinct : (w.given.map Prod.snd).Nodup
  inside : ∀ page ∈ w.given, base ≤ page.2 ∧ page.2 + pageSize ≤ base + sz
  kept : ∀ page ∈ w.given, ∀ range ∈ w.handed,
    page.2 + pageSize ≤ range.1 ∨ range.1 + range.2 ≤ page.2
  typed : ∀ page ∈ w.given, w.frames page.2 = page.1.frame

structure Inv (base sz : Nat) (w : World) : Prop where
  aligned : w.mi.untypedPtr % pageSize = 0
  above : base ≤ w.mi.untypedPtr
  spent : ∀ km, w.mi.frontier km ≤ w.mi.ptr km
  free : ∀ page, page % pageSize = 0 → w.mi.untypedPtr ≤ page →
    w.frames page = if page + pageSize ≤ base + sz then .untyped else .absent
  below : ∀ page ∈ w.given, page.2 + pageSize ≤ w.mi.untypedPtr
  handed : ∀ range ∈ w.handed, range.1 + range.2 ≤ w.mi.untypedPtr
  returned : ReturnedOnce base sz w

section Alloc

variable {base sz : Nat} {w w' : World} {kind : Kind}

theorem set_untypedPtr (mi : CosMeminfo) (km : Bool) (ptr frontier : Nat) :
    (mi.set km ptr frontier).untypedPtr = mi.untypedPtr := by
  cases km <;> rfl

theorem set_untypedFrontier (mi : CosMeminfo) (km : Bool) (ptr frontier : Nat) :
    (mi.set km ptr frontier).untypedFrontier = mi.untypedFrontier := by
  cases km <;> rfl

theorem set_spent {mi : CosMeminfo} (spent : ∀ km, mi.frontier km ≤ mi.ptr km) (km : Bool)
    {ptr frontier : Nat} (ordered : frontier ≤ ptr) :
    ∀ other, (mi.set km ptr frontier).frontier other ≤ (mi.set km ptr frontier).ptr other := by
  intro other
  cases km <;> cases other
  · exact ordered
  · exact spent true
  · exact spent false
  · exact ordered

def setTaken (mi : CosMeminfo) (km : Bool) : CosMeminfo :=
  ({ mi with untypedPtr := mi.untypedPtr + pageSize } : CosMeminfo).set km
    (mi.untypedPtr + pageSize) (mi.untypedPtr + pageSize)

theorem memBumpAlloc_eq (inv : Inv base sz w) {km : Bool} (retype : Bool)
    (noWrap : w.mi.ptr km + pageSize < 2 ^ 32)
    (noWrapUntyped : w.mi.untypedPtr + pageSize < 2 ^ 32) :
    memBumpAlloc w km retype =
      if w.mi.untypedPtr = w.mi.untypedFrontier then
        (0, { w with mi := w.mi.set km (w.mi.ptr km + pageSize) (w.mi.frontier km) })
      else if retype = true then
        if w.frames w.mi.untypedPtr = .untyped then
          (w.mi.untypedPtr, { w with
            mi := setTaken w.mi km
            frames := update w.frames w.mi.untypedPtr (if km then .kern else .user) })
        else (0, { w with mi := setTaken w.mi km })
      else (w.mi.untypedPtr, { w with mi := setTaken w.mi km }) := by
  have aligned := inv.aligned
  have page : w.mi.untypedPtr / pageSize * pageSize = w.mi.untypedPtr :=
    Nat.div_mul_cancel (Nat.dvd_of_mod_eq_zero aligned)
  have setSize : retypeMemSize = pageSize := rfl
  unfold memBumpAlloc
  simp only [setSize, set_untypedPtr, set_untypedFrontier]
  rw [if_pos (.inl (inv.spent km)), Nat.mod_eq_of_lt noWrap, Nat.mod_eq_of_lt noWrapUntyped]
  by_cases none : w.mi.untypedPtr = w.mi.untypedFrontier
  · rw [if_pos none, if_pos none]
  · rw [if_neg none, if_neg none]
    simp only [aligned, and_true]
    cases retype with
    | false => cases km <;> rfl
    | true =>
      simp only [if_true, retypeFrame, page]
      by_cases untyped : w.frames w.mi.untypedPtr = .untyped
      · rw [if_pos untyped, if_pos untyped]
        cases km <;> rfl
      · rw [if_neg untyped, if_neg untyped]
        cases km <;> rfl

inductive Outcome (base sz : Nat) (w : World) (kind : Kind) : Nat × World → Prop where
  | refused (mi : CosMeminfo) :
      mi.untypedPtr = w.mi.untypedPtr ∨ mi.untypedPtr = w.mi.untypedPtr + pageSize →
      (∀ km, mi.frontier km ≤ mi.ptr km) → Outcome base sz w kind (0, { w with mi := mi })
  | returned : w.mi.untypedPtr + pageSize ≤ base + sz →
      Outcome base sz w kind (w.mi.untypedPtr,
        { w with
          mi := setTaken w.mi kind.km
          frames := Function.update w.frames w.mi.untypedPtr kind.frame
          given := (kind, w.mi.untypedPtr) :: w.given })

theorem bumpAlloc_eq (w : World) (kind : Kind) :
    bumpAlloc w kind =
      let result := memBumpAlloc w kind.km kind.retyped
      if result.1 = 0 then (0, result.2)
      else (result.1, { result.2 with given := (kind, result.1) :: result.2.given }) := by
  cases kind <;> rfl

theorem retyped_frame (retyped : kind.retyped = true) :
    (if kind.km then Frame.kern else Frame.user) = kind.frame := by
  cases kind with
  | kmem => rfl
  | umem => rfl
  | untyped => cases retyped

theorem not_retyped (retyped : ¬kind.retyped = true) : kind = .untyped := by
  cases kind with
  | kmem => exact absurd rfl retyped
  | umem => exact absurd rfl retyped
  | untyped => rfl

theorem bumpAlloc_outcome (memory : StartsAtPage base sz) (inv : Inv base sz w)
    (allowed : Allowed base sz w (.alloc kind)) : Outcome base sz w kind (bumpAlloc w kind) := by
  obtain ⟨noWrap, noWrapUntyped, inMemory⟩ := allowed
  have nonzero : w.mi.untypedPtr ≠ 0 := (memory.nonzero.trans_le inv.above).ne'
  have here := inv.free w.mi.untypedPtr inv.aligned le_rfl
  have refusedPtr := set_spent inv.spent kind.km
    ((inv.spent kind.km).trans (Nat.le_add_right _ pageSize))
  have takenPtr : ∀ km, (setTaken w.mi kind.km).frontier km ≤ (setTaken w.mi kind.km).ptr km :=
    @set_spent { w.mi with untypedPtr := w.mi.untypedPtr + pageSize } inv.spent kind.km _ _ le_rfl
  have takenUntyped : (setTaken w.mi kind.km).untypedPtr = w.mi.untypedPtr + pageSize :=
    set_untypedPtr _ _ _ _
  rw [bumpAlloc_eq, memBumpAlloc_eq inv kind.retyped noWrap noWrapUntyped]
  by_cases none : w.mi.untypedPtr = w.mi.untypedFrontier
  · rw [if_pos none]
    exact .refused _ (.inl (set_untypedPtr _ _ _ _)) refusedPtr
  rw [if_neg none]
  by_cases retyped : kind.retyped = true
  · rw [if_pos retyped, retyped_frame retyped]
    by_cases untyped : w.frames w.mi.untypedPtr = .untyped
    · rw [if_pos untyped]
      have inside : w.mi.untypedPtr + pageSize ≤ base + sz := by
        by_contra outside
        rw [if_neg outside, untyped] at here
        cases here
      simp only [if_neg nonzero]
      exact .returned inside
    · rw [if_neg untyped]
      exact .refused _ (.inr takenUntyped) takenPtr
  · rw [if_neg retyped]
    obtain rfl := not_retyped retyped
    have inside : w.mi.untypedPtr + pageSize ≤ base + sz := (inMemory rfl).resolve_right none
    rw [if_pos inside] at here
    have same : update w.frames w.mi.untypedPtr .untyped = w.frames := by
      rw [← here, update_eq_self]
    have outcome : Outcome base sz w .untyped _ := .returned inside
    simp only [Kind.frame, same] at outcome
    simp only [if_neg nonzero]
    exact outcome

theorem Inv.refused (inv : Inv base sz w) {mi : CosMeminfo}
    (advanced : mi.untypedPtr = w.mi.untypedPtr ∨ mi.untypedPtr = w.mi.untypedPtr + pageSize)
    (spent : ∀ km, mi.frontier km ≤ mi.ptr km) : Inv base sz { w with mi := mi } where
  aligned := by
    have aligned := inv.aligned
    unfold pageSize at *
    show mi.untypedPtr % 4096 = 0
    omega
  above := by
    have above := inv.above
    show base ≤ mi.untypedPtr
    omega
  spent := spent
  free page aligned above := inv.free page aligned (by
    have above : mi.untypedPtr ≤ page := above
    omega)
  below page given := by
    have below := inv.below page given
    show page.2 + pageSize ≤ mi.untypedPtr
    omega
  handed range handed := by
    have below := inv.handed range handed
    show range.1 + range.2 ≤ mi.untypedPtr
    omega
  returned := ⟨inv.returned.distinct, inv.returned.inside, inv.returned.kept, inv.returned.typed⟩

theorem Inv.fresh (inv : Inv base sz w) {page : Kind × Nat} (given : page ∈ w.given) :
    page.2 ≠ w.mi.untypedPtr := by
  have below := inv.below page given
  unfold pageSize at below
  omega

/-- The next page of the untyped memory is returned. -/
theorem Inv.taken (inv : Inv base sz w) (kind : Kind)
    (inside : w.mi.untypedPtr + pageSize ≤ base + sz) :
    Inv base sz { w with
      mi := setTaken w.mi kind.km
      frames := update w.frames w.mi.untypedPtr kind.frame
      given := (kind, w.mi.untypedPtr) :: w.given } := by
  have advanced : (setTaken w.mi kind.km).untypedPtr = w.mi.untypedPtr + pageSize :=
    set_untypedPtr _ _ _ _
  have positive : 0 < pageSize := by decide
  refine ⟨?_, ?_, ?_, ?_, ?_, ?_, ?_⟩
  · have aligned := inv.aligned
    rw [advanced]
    unfold pageSize at *
    omega
  · exact advanced ▸ inv.above.trans (Nat.le_add_right _ _)
  · exact @set_spent { w.mi with untypedPtr := w.mi.untypedPtr + pageSize } inv.spent kind.km _ _
      le_rfl
  · intro page aligned above
    have above : w.mi.untypedPtr + pageSize ≤ page := advanced ▸ above
    have other : page ≠ w.mi.untypedPtr := by omega
    show update w.frames w.mi.untypedPtr kind.frame page = _
    rw [update_of_ne other]
    exact inv.free page aligned (by omega)
  · intro page given
    show page.2 + pageSize ≤ (setTaken w.mi kind.km).untypedPtr
    rw [advanced]
    rcases mem_cons.mp given with rfl | given
    · exact le_rfl
    · exact (inv.below page given).trans (Nat.le_add_right _ _)
  · intro range handed
    exact advanced ▸ (inv.handed range handed).trans (Nat.le_add_right _ _)
  · refine ⟨?_, ?_, ?_, ?_⟩
    · refine nodup_cons.mpr ⟨?_, inv.returned.distinct⟩
      intro again
      obtain ⟨page, given, same⟩ := mem_map.mp again
      exact inv.fresh given same
    · exact forall_mem_cons.mpr ⟨⟨inv.above, inside⟩, inv.returned.inside⟩
    · refine forall_mem_cons.mpr ⟨fun range handed => ?_, inv.returned.kept⟩
      exact .inr (inv.handed range handed)
    · intro page given
      show update w.frames w.mi.untypedPtr kind.frame page.2 = page.1.frame
      rcases mem_cons.mp given with rfl | given
      · exact update_self _ _ _
      · rw [update_of_ne (inv.fresh given)]
        exact inv.returned.typed page given

theorem Inv.alloc (memory : StartsAtPage base sz) (inv : Inv base sz w)
    (allowed : Allowed base sz w (.alloc kind)) : Inv base sz (bumpAlloc w kind).2 := by
  have outcome := bumpAlloc_outcome memory inv allowed
  generalize bumpAlloc w kind = result at outcome
  cases outcome with
  | refused mi advanced spent => exact inv.refused advanced spent
  | returned inside => exact inv.taken kind inside

theorem bumpAlloc_exhausted (memory : StartsAtPage base sz) (inv : Inv base sz w)
    (allowed : Allowed base sz w (.alloc kind))
    (exhausted : base + sz < w.mi.untypedPtr + pageSize) :
    (bumpAlloc w kind).1 = 0 := by
  have outcome := bumpAlloc_outcome memory inv allowed
  generalize bumpAlloc w kind = result at outcome
  cases outcome with
  | refused mi advanced spent => rfl
  | returned inside => exact absurd inside (not_le_of_gt exhausted)

end Alloc

section HandOver

variable {base sz : Nat} {w w' : World}

theorem expandRange_inv (memory : StartsAtPage base sz) (remaining : Nat) :
    ∀ w, Inv base sz w → w.mi.kmemPtr + pageSize < 2 ^ 32 → w.mi.untypedPtr + pageSize < 2 ^ 32 →
      ∀ w', expandRange remaining w = .ok w' →
        Inv base sz w' ∧ w'.mi.untypedPtr + pageSize < 2 ^ 32 ∧ w'.handed = w.handed := by
  induction remaining with
  | zero =>
    intro w inv _ noWrap w' expanded
    cases expanded
    exact ⟨inv, noWrap, rfl⟩
  | succ remaining ih =>
    intro w inv noWrapKmem noWrap w' expanded
    have fits := memory.fits
    have outcome : Outcome base sz w .kmem (bumpAlloc w .kmem) :=
      bumpAlloc_outcome memory inv ⟨noWrapKmem, noWrap, nofun⟩
    unfold expandRange at expanded
    generalize bumpAlloc w .kmem = result at outcome expanded
    cases outcome with
    | refused mi advanced spent => cases expanded
    | returned inside =>
      have nonzero : w.mi.untypedPtr ≠ 0 := (memory.nonzero.trans_le inv.above).ne'
      simp only [if_neg nonzero] at expanded
      refine ih _ (inv.taken .kmem inside) ?_ ?_ w' expanded
      · show w.mi.untypedPtr + pageSize + pageSize < 2 ^ 32
        omega
      · show w.mi.untypedPtr + pageSize + pageSize < 2 ^ 32
        omega

theorem memmoveLoop_moves {stop : Nat} (fits : stop < 2 ^ 32) (remaining : Nat) :
    ∀ start frames, start % pageSize = 0 →
      (∀ page, page % pageSize = 0 → start ≤ page → frames page ≠ .absent →
        page + pageSize ≤ stop) →
      ∀ frames', memmoveLoop remaining start frames = .ok frames' →
        (remaining ≠ 0 → start + remaining * pageSize ≤ stop) ∧
          ∀ page, page < start ∨ start + remaining * pageSize ≤ page →
            frames' page = frames page := by
  induction remaining with
  | zero =>
    intro start frames _ _ frames' moved
    cases moved
    exact ⟨fun more => absurd rfl more, fun _ _ => rfl⟩
  | succ remaining ih =>
    intro start frames aligned present frames' moved
    unfold memmoveLoop at moved
    by_cases absent : frames start = .absent
    · rw [if_pos absent] at moved
      cases moved
    · rw [if_neg absent] at moved
      have inside := present start aligned le_rfl absent
      rw [Nat.mod_eq_of_lt (inside.trans_lt fits)] at moved
      have positive : 0 < pageSize := by decide
      have later : ∀ page, page % pageSize = 0 → start + pageSize ≤ page →
          update frames start .absent page ≠ .absent → page + pageSize ≤ stop := by
        intro page pageAligned above there
        rw [update_of_ne (by omega)] at there
        exact present page pageAligned (by omega) there
      obtain ⟨within, others⟩ := ih _ _ (by rw [Nat.add_mod_right, aligned]) later frames' moved
      have size : (remaining + 1) * pageSize = remaining * pageSize + pageSize := by
        rw [Nat.add_mul, Nat.one_mul]
      refine ⟨fun _ => ?_, fun page outside => ?_⟩
      · by_cases last : remaining = 0
        · rw [last, Nat.zero_add, Nat.one_mul]
          exact inside
        · have within := within last
          omega
      · rw [others page (by omega), update_of_ne (by omega)]

theorem iterations_pages {addr len : Nat} (noWrap : addr + len < 2 ^ 32)
    (rounded : len % pgdRange = 0) : iterations addr len pageSize * pageSize = len := by
  unfold iterations
  unfold pgdRange at rounded
  rw [Nat.mod_eq_of_lt noWrap]
  unfold pageSize
  omega

/-- The part of the untyped memory from the pointer on is gone. -/
theorem Inv.moved (inv : Inv base sz w) {len frontier : Nat} {frames : Nat → Frame}
    (whole : len % pageSize = 0)
    (others : ∀ page, page < w.mi.untypedPtr ∨ w.mi.untypedPtr + len ≤ page →
      frames page = w.frames page) :
    Inv base sz { w with
      mi := { w.mi with untypedPtr := w.mi.untypedPtr + len, untypedFrontier := frontier }
      frames := frames
      handed := (w.mi.untypedPtr, len) :: w.handed } := by
  have positive : 0 < pageSize := by decide
  have before : ∀ page ∈ w.given, page.2 < w.mi.untypedPtr := by
    intro page given
    have below := inv.below page given
    omega
  refine ⟨?_, ?_, inv.spent, ?_, ?_, ?_, inv.returned.distinct, inv.returned.inside, ?_, ?_⟩
  · show (w.mi.untypedPtr + len) % pageSize = 0
    rw [Nat.add_mod, inv.aligned, whole]
    rfl
  · exact inv.above.trans (Nat.le_add_right _ _)
  · intro page aligned above
    have above : w.mi.untypedPtr + len ≤ page := above
    show frames page = _
    rw [others page (.inr above)]
    exact inv.free page aligned (by omega)
  · intro page given
    exact (inv.below page given).trans (Nat.le_add_right _ _)
  · refine forall_mem_cons.mpr ⟨le_rfl, fun range handed => ?_⟩
    exact (inv.handed range handed).trans (Nat.le_add_right _ _)
  · intro page given
    exact forall_mem_cons.mpr ⟨.inl (inv.below page given), inv.returned.kept page given⟩
  · intro page given
    show frames page.2 = _
    rw [others page.2 (.inl (before page given))]
    exact inv.returned.typed page given

theorem Inv.handOver (memory : StartsAtPage base sz) (inv : Inv base sz w) {addr len : Nat}
    (allowed : Allowed base sz w (.handOver addr len))
    (populated : meminfoPopulate w addr len = .ok w') : Inv base sz w' := by
  obtain ⟨noWrapKmem, noWrap, noWrapRange⟩ := allowed
  unfold meminfoPopulate at populated
  split_ifs at populated with rounded
  obtain ⟨w₁, expanded, populated⟩ := bind_eq_ok.mp populated
  obtain ⟨frames, moved, populated⟩ := bind_eq_ok.mp populated
  cases populated
  obtain ⟨inv, noWrap, -⟩ := expandRange_inv memory _ w inv noWrapKmem noWrap w₁ expanded
  have pages := iterations_pages noWrapRange rounded.2
  have fits := memory.fits
  have present : ∀ page, page % pageSize = 0 → w₁.mi.untypedPtr ≤ page →
      w₁.frames page ≠ .absent → page + pageSize ≤ base + sz := by
    intro page aligned above there
    by_contra outside
    rw [inv.free page aligned above, if_neg outside] at there
    exact there rfl
  obtain ⟨within, others⟩ :=
    memmoveLoop_moves (by omega : base + sz < 2 ^ 32) _ _ _ inv.aligned present frames moved
  rw [pages] at within others
  have noWrapMoved : w₁.mi.untypedPtr + len < 2 ^ 32 := by
    by_cases none : iterations addr len pageSize = 0
    · rw [none, Nat.zero_mul] at pages
      omega
    · have within := within none
      omega
  rw [Nat.mod_eq_of_lt noWrapMoved]
  exact inv.moved (pages ▸ Nat.mul_mod_left _ _) others

end HandOver

theorem Inv.next {base sz : Nat} {w w' : World} {op : Op} (memory : StartsAtPage base sz)
    (inv : Inv base sz w) (allowed : Allowed base sz w op) (step : next w op = some w') :
    Inv base sz w' := by
  cases op with
  | alloc kind =>
    cases step
    exact inv.alloc memory allowed
  | handOver addr len =>
    simp only [UserMemory.next] at step
    cases populated : meminfoPopulate w addr len with
    | error fault =>
      rw [populated] at step
      cases step
    | ok after =>
      rw [populated] at step
      cases step
      exact inv.handOver memory allowed populated

theorem inv_initial {base sz : Nat} (memory : StartsAtPage base sz) :
    Inv base sz (initial base sz) where
  aligned := memory.start
  above := le_rfl
  spent km := by cases km <;> exact le_rfl
  free page _ above := by
    have above : base ≤ page := above
    show (if base ≤ page ∧ page + pageSize ≤ base + sz then Frame.untyped else .absent) = _
    simp only [above, true_and]
  below := nofun
  handed := nofun
  returned := ⟨nodup_nil, nofun, nofun, nofun⟩

/-- In every run in which no pointer wraps around, and that asks for no untyped page behind
the end of the memory, the pages returned are distinct, inside of the memory, outside of
what was handed over, and of the type asked for; and where no page is left an allocation
returns 0. -/
theorem pages_returned_once {base sz : Nat} (memory : StartsAtPage base sz) {ops : List Op}
    {w : World} (meets : Transition.Meets (Allowed base sz) next (initial base sz) ops)
    (executed : Transition.exec next (initial base sz) ops = some w) :
    ReturnedOnce base sz w ∧
      ∀ kind, Allowed base sz w (.alloc kind) → base + sz < w.mi.untypedPtr + pageSize →
        (bumpAlloc w kind).1 = 0 := by
  have kept : ∀ w op w', Inv base sz w → Allowed base sz w op → next w op = some w' →
      Inv base sz w' := fun w op w' inv allowed step => inv.next memory allowed step
  have inv := Transition.exec_invariant kept (inv_initial memory) meets executed
  exact ⟨inv.returned, fun kind allowed exhausted =>
    bumpAlloc_exhausted memory inv allowed exhausted⟩

theorem pages_returned_once_three :
    (∃ w, Transition.exec next (initial 0x400000 0x3000)
        [.alloc .kmem, .alloc .umem, .alloc .untyped, .alloc .umem] = some w ∧
      w.given = [(.untyped, 0x402000), (.umem, 0x401000), (.kmem, 0x400000)] ∧
      ReturnedOnce 0x400000 0x3000 w ∧ (bumpAlloc w .untyped).1 = 0) := by
  have view : (Transition.exec next (initial 0x400000 0x3000)
      [.alloc .kmem, .alloc .umem, .alloc .untyped, .alloc .umem]).map
        (fun w => (w.given, w.mi)) =
      some ([(.untyped, 0x402000), (.umem, 0x401000), (.kmem, 0x400000)],
        ⟨0x403000, 0x403000, 0x403000, 0x403000, 0x402000, 0x403000⟩) := by decide +kernel
  obtain ⟨w, executed, seen⟩ := Option.map_eq_some_iff.mp view
  obtain ⟨given, mi⟩ := Prod.mk.inj seen
  obtain ⟨returned, exhausted⟩ :=
    pages_returned_once ⟨by decide, by decide, by decide⟩ (by decide +kernel) executed
  refine ⟨w, executed, given, returned, exhausted .untyped ?_ ?_⟩
  · unfold Allowed
    rw [mi]
    decide
  · rw [mi]
    decide

theorem memmoveLoop_present (remaining : Nat) :
    ∀ start frames, start + remaining * pageSize < 2 ^ 32 →
      (∀ page, start ≤ page → page < start + remaining * pageSize → frames page ≠ .absent) →
      ∃ frames', memmoveLoop remaining start frames = .ok frames' := by
  induction remaining with
  | zero => exact fun _ frames _ _ => ⟨frames, rfl⟩
  | succ remaining ih =>
    intro start frames fits present
    have positive : 0 < pageSize := by decide
    have size : (remaining + 1) * pageSize = remaining * pageSize + pageSize := by
      rw [Nat.add_mul, Nat.one_mul]
    have there : frames start ≠ .absent := present start le_rfl (by omega)
    unfold memmoveLoop
    rw [if_neg there, Nat.mod_eq_of_lt (by omega)]
    refine ih _ _ (by omega) fun page above below => ?_
    rw [update_of_ne (by omega)]
    exact present page (by omega) (by omega)

theorem expandRange_handOver :
    expandRange (iterations 0x400000 0x400000 pgdRange) (initial 0x400000 0x402000) =
      .ok { initial 0x400000 0x402000 with
        mi := ⟨0x401000, 0x400000, 0x401000, 0x802000, 0x400000, 0x401000⟩
        frames := update (initial 0x400000 0x402000).frames 0x400000 .kern
        given := [(.kmem, 0x400000)] } := rfl

theorem meminfoPopulate_of_moved {w w₁ : World} {addr len : Nat} {frames : Nat → Frame}
    (rounded : addr % pgdRange = 0 ∧ len % pgdRange = 0)
    (expanded : expandRange (iterations addr len pgdRange) w = .ok w₁)
    (moved : memmoveLoop (iterations addr len pageSize) w₁.mi.untypedPtr w₁.frames = .ok frames) :
    meminfoPopulate w addr len = .ok { w₁ with
      mi := { w₁.mi with
        untypedPtr := (w₁.mi.untypedPtr + len) % 2 ^ 32
        untypedFrontier := (w₁.mi.untypedFrontier + len) % 2 ^ 32 }
      frames := frames
      handed := (w₁.mi.untypedPtr, len) :: w₁.handed } := by
  unfold meminfoPopulate
  rw [if_neg (not_not.mpr rounded), expanded, ok_bind]
  simp only [moved, ok_bind]

theorem next_handOver {w w' : World} {addr len : Nat}
    (populated : meminfoPopulate w addr len = .ok w') : next w (.handOver addr len) = some w' := by
  simp only [next, populated]

theorem handOver_frontier :
    ∃ frames, meminfoPopulate (initial 0x400000 0x402000) 0x400000 0x400000 =
      .ok ⟨⟨0x801000, 0x400000, 0x401000, 0xC02000, 0x400000, 0x401000⟩, frames,
        [(.kmem, 0x400000)], [(0x401000, 0x400000)]⟩ := by
  have pages : iterations 0x400000 0x400000 pageSize = 1024 := by decide
  have present : ∀ page, 0x401000 ≤ page → page < 0x401000 + 1024 * pageSize →
      update (initial 0x400000 0x402000).frames 0x400000 .kern page ≠ .absent := by
    intro page above below
    have inside : 0x400000 ≤ page ∧ page + pageSize ≤ 0x400000 + 0x402000 := by
      unfold pageSize at *
      omega
    rw [update_of_ne (by omega)]
    show (if 0x400000 ≤ page ∧ page + pageSize ≤ 0x400000 + 0x402000 then Frame.untyped
      else .absent) ≠ .absent
    rw [if_pos inside]
    nofun
  obtain ⟨frames, moved⟩ := memmoveLoop_present 1024 0x401000
    (update (initial 0x400000 0x402000).frames 0x400000 .kern) (by decide) present
  rw [← pages] at moved
  have populated := meminfoPopulate_of_moved (by decide) expandRange_handOver moved
  exact ⟨frames, populated⟩

/-- A component with 1026 pages hands 1024 of them over and asks for two untyped pages,
where one is left; and one whose memory ends within its second page asks for two. -/
theorem pages_behind_the_end :
    (∃ w, Transition.exec next (initial 0x400000 0x402000)
        [.handOver 0x400000 0x400000, .alloc .untyped, .alloc .untyped] = some w ∧
      w.given = [(.untyped, 0x802000), (.untyped, 0x801000), (.kmem, 0x400000)] ∧
      ¬ReturnedOnce 0x400000 0x402000 w) ∧
    (∃ w, Transition.exec next (initial 0x400000 6000) [.alloc .untyped, .alloc .untyped] =
        some w ∧
      w.given = [(.untyped, 0x401000), (.untyped, 0x400000)] ∧ ¬ReturnedOnce 0x400000 6000 w) := by
  constructor
  · obtain ⟨frames, populated⟩ := handOver_frontier
    refine ⟨⟨⟨0x803000, 0x400000, 0x803000, 0xC02000, 0x400000, 0x803000⟩, frames,
      [(.untyped, 0x802000), (.untyped, 0x801000), (.kmem, 0x400000)], [(0x401000, 0x400000)]⟩,
      ?_, rfl, ?_⟩
    · rw [Transition.exec, next_handOver populated]
      simp [Transition.exec, next, bumpAlloc, memBumpAlloc, CosMeminfo.ptr,
        CosMeminfo.frontier, CosMeminfo.set, retypeMemSize, retypeMemNpages, pageSize]
    · intro returned
      have inside := (returned.inside (.untyped, 0x802000) (by simp)).2
      revert inside
      decide
  · refine ⟨_, rfl, rfl, fun returned => ?_⟩
    have inside := (returned.inside (.untyped, 0x401000) (by decide)).2
    revert inside
    decide

end UserMemory

end Composite
