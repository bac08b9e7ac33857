import Composite.Kernel.Endpoints.Counts

/-!
# Copies of capabilities

`cap_cpy` between capability tables activates the slot of the copy first.  The copy of
a table counts as a reference to the original; if the original is frozen or its count
is at its limit the call fails, with the copy in place.
-/

namespace Composite

open Procedure Kernel

def CapBody.withoutCount : CapBody → CapBody
  | .captbl ct => .captbl { ct with refcntFlags := 0, parent := Option.none }
  | .pgtbl pt => .pgtbl { pt with refcntFlags := 0, parent := Option.none }
  | body => body

def CapBody.counted : CapBody → Option CapTable
  | .captbl table | .pgtbl table => some table
  | _ => .none

structure Kernel.CopyUndone (k k' : Kernel) (t capTo : Nat) : Prop where
  lookups : ∀ dest, k.captblNamed t capTo = some dest →
    ∀ cap, k'.found dest.table cap = k.found dest.table cap
  tables : ∀ addr : CapAddr, (k'.slots addr.1 addr.2).post.counted.map (·.refcntFlags) =
    (k.slots addr.1 addr.2).post.counted.map (·.refcntFlags)
  threads : ∀ thd, (k'.threads thd).refcnt = (k.threads thd).refcnt
  tcaps : ∀ tcap, (k'.tcaps tcap).refcnt = (k.tcaps tcap).refcnt
  frames : k'.memory.entries = k.memory.entries

/-- The destination id resolves to what the source id resolved to, except for its own
count and parent link. -/
def Kernel.CopyDone (k k' : Kernel) (t capTo capinTo capFrom capinFrom : Nat) : Prop :=
  ∃ ct addr slot dest target copy, k.captblNamed t capFrom = some ct ∧
    k.found ct.table capinFrom = some (addr, slot) ∧ k.captblNamed t capTo = some dest ∧
    k'.found dest.table capinTo = some (target, copy) ∧ copy.h.type = slot.h.type ∧
    copy.post.withoutCount = slot.post.withoutCount

def Kernel.CopyExact (k k' : Kernel) (t capTo capinTo capFrom capinFrom : Nat) :
    Except Int Unit → Prop
  | .error _ => k.CopyUndone k' t capTo
  | .ok () => k.CopyDone k' t capTo capinTo capFrom capinFrom

/-- The source is a table that is frozen or has as many references as it can have, and
the destination slot can be activated. -/
def Kernel.CopyUncounted (k : Kernel) (t capTo capinTo capFrom capinFrom : Nat) : Prop :=
  ∃ ct addr slot table target, k.captblNamed t capFrom = some ct ∧
    k.found ct.table capinFrom = some (addr, slot) ∧ slot.post.counted = some table ∧
    (isFrozen table.refcntFlags ∨ refcntOf table.refcntFlags = capRefcntMax) ∧
    k.Activates t capTo capinTo slot.h.type target

theorem Kernel.CopyUndone.refl (k : Kernel) (t capTo : Nat) : k.CopyUndone k t capTo :=
  ⟨fun _ _ _ => rfl, fun _ => rfl, fun _ => rfl, fun _ => rfl, rfl⟩

/-! The state between the activation and the end of the call. -/

def Kernel.withCopy (k : Kernel) (target : CapAddr) (type : CapType) (body : CapBody) : Kernel :=
  ({ k with slots := committed k.slots target.1 target.2 type }).putBody target body

section Copying

variable {k : Kernel} {t capTo capinTo : Nat} {type : CapType} {target : CapAddr}

theorem Kernel.withCopy_found {dest : CapTable} (body : CapBody)
    (addable : Addable (k.roots dest.table) k.slots capinTo type target.1 target.2) :
    ∃ copy, (k.withCopy target type body).found dest.table capinTo = some (target, copy) ∧
      copy.h.type = type ∧ copy.post = body := by
  have leads : captblLkup (k.roots dest.table) (k.withCopy target type body).slots capinTo =
      some target := by
    rw [Kernel.withCopy, captblLkup_putBody]
    exact addable.lkup_after
  refine ⟨(k.withCopy target type body).slots target.1 target.2, ?_, ?_, ?_⟩
  · rw [Kernel.found, show (k.withCopy target type body).roots = k.roots from rfl, leads]
    rfl
  · rw [Kernel.withCopy, putBody_h]
    exact committed_type _ _ _ _
  · rw [Kernel.withCopy, putBody_post, if_pos rfl]

theorem Kernel.Activates.not_undone (activates : k.Activates t capTo capinTo type target)
    (body : CapBody) : ¬k.CopyUndone (k.withCopy target type body) t capTo := by
  intro undone
  obtain ⟨dest, named, addable⟩ := activates.addable
  obtain ⟨copy, found, -⟩ := Kernel.withCopy_found body addable
  have missing : k.found dest.table capinTo = none := by
    rw [Kernel.found, addable.lkup_before]
    rfl
  cases (found.symm.trans (undone.lookups dest named capinTo)).trans missing

theorem found_putBody {ct cap : Nat} {copy : Slot CapBody}
    (found : k.found ct cap = some (target, copy)) (addr : CapAddr) (body : CapBody) :
    ∃ copy', (k.putBody addr body).found ct cap = some (target, copy') ∧ copy'.h = copy.h ∧
      copy'.post = if target = addr then body else copy.post := by
  have held := Kernel.found_names found
  obtain ⟨_, leads, pair⟩ := Option.map_eq_some_iff.mp found
  cases pair
  refine ⟨(k.putBody addr body).slots target.1 target.2, ?_, ?_, ?_⟩
  · rw [Kernel.found, captblLkup_putBody, show (k.putBody addr body).roots = k.roots from rfl,
      leads]
    rfl
  · exact putBody_h _ _ _ _ _
  · exact putBody_post _ _ _ _

end Copying

/-! References. -/

theorem copyTable_ensures {k : Kernel} {source target : CapAddr} {table : CapTable}
    {body : CapTable → CapBody} (isTable : body = .captbl ∨ body = .pgtbl)
    (original : (k.slots source.1 source.2).post = body table)
    (copied : (k.slots target.1 target.2).post = body table) :
    (copyTable source target).Ensures k fun outcome k' =>
      match outcome with
      | .error _ => k' = k ∧
          (isFrozen table.refcntFlags ∨ refcntOf table.refcntFlags = capRefcntMax)
      | .ok () => ¬(isFrozen table.refcntFlags ∨ refcntOf table.refcntFlags = capRefcntMax) ∧
          k' = (k.putBody source (body { table with
            refcntFlags := refcntInc table.refcntFlags })).putBody target
              (body { table with refcntFlags := 1, parent := some source }) := by
  refine ensures_bind.mpr (ensures_tableAt isTable original ?_)
  refine leaveIf_bind (fun frozen => ⟨rfl, .inl frozen⟩) fun thawed => ?_
  refine leaveIf_bind (fun full => ⟨rfl, .inr full⟩) fun room => ?_
  refine ensures_bind.mpr (ensures_modRefcntFlags isTable original (ensures_bind.mpr ?_))
  have held : ∃ count, ((k.putBody source (body { table with
      refcntFlags := refcntInc table.refcntFlags })).slots target.1 target.2).post =
        body { table with refcntFlags := count } := by
    rw [putBody_post]
    split_ifs
    · exact ⟨_, rfl⟩
    · exact ⟨table.refcntFlags, copied⟩
  obtain ⟨count, held⟩ := held
  exact ensures_tableAt isTable held (ensures_update.mpr ⟨not_or.mpr ⟨thawed, room⟩, rfl⟩)

/-! The call. -/

structure Kernel.Copying (k : Kernel) (t capTo capinTo capFrom capinFrom : Nat)
    (source target : CapAddr) : Prop where
  found : ∃ ct, k.captblNamed t capFrom = some ct ∧
    k.found ct.table capinFrom = some (source, k.slots source.1 source.2)
  activates : k.Activates t capTo capinTo (k.slots source.1 source.2).h.type target

namespace Kernel.Copying

variable {k k' : Kernel} {t capTo capinTo capFrom capinFrom : Nat} {source target : CapAddr}
  {table : CapTable} {body : CapTable → CapBody}

section

variable (copying : k.Copying t capTo capinTo capFrom capinFrom source target)

include copying

theorem uncounted_iff :
    k.CopyUncounted t capTo capinTo capFrom capinFrom ↔
      ∃ table, (k.slots source.1 source.2).post.counted = some table ∧
        (isFrozen table.refcntFlags ∨ refcntOf table.refcntFlags = capRefcntMax) := by
  obtain ⟨ct, named, found⟩ := copying.found
  constructor
  · rintro ⟨_, _, _, table, _, named', found', counted, full, -⟩
    cases named'.symm.trans named
    cases found'.symm.trans found
    exact ⟨table, counted, full⟩
  · rintro ⟨table, counted, full⟩
    exact ⟨ct, source, _, table, target, named, found, counted, full, copying.activates⟩

theorem done
    (copied : ∀ dest : CapTable,
      Addable (k.roots dest.table) k.slots capinTo (k.slots source.1 source.2).h.type
        target.1 target.2 →
      ∃ copy, k'.found dest.table capinTo = some (target, copy) ∧
        copy.h.type = (k.slots source.1 source.2).h.type ∧
        copy.post.withoutCount = (k.slots source.1 source.2).post.withoutCount) :
    k.CopyDone k' t capTo capinTo capFrom capinFrom := by
  obtain ⟨ct, named, found⟩ := copying.found
  obtain ⟨dest, destination, addable⟩ := copying.activates.addable
  obtain ⟨copy, leads, type, post⟩ := copied dest addable
  exact ⟨ct, source, _, dest, target, copy, named, found, destination, leads, type, post⟩

theorem exact_of_same (noTable : (k.slots source.1 source.2).post.counted = none)
    (roots : k'.roots = k.roots)
    (slots : k'.slots = (k.withCopy target (k.slots source.1 source.2).h.type
      (k.slots source.1 source.2).post).slots) :
    k.CopyExact k' t capTo capinTo capFrom capinFrom (.ok ()) ↔
      ¬k.CopyUncounted t capTo capinTo capFrom capinFrom := by
  refine iff_of_true (copying.done fun dest addable => ?_) fun uncounted => ?_
  · obtain ⟨copy, leads, type, post⟩ :=
      Kernel.withCopy_found (k.slots source.1 source.2).post addable
    refine ⟨copy, ?_, type, by rw [post]⟩
    rw [Kernel.found, slots, roots]
    exact leads
  · obtain ⟨table, counted, -⟩ := copying.uncounted_iff.mp uncounted
    cases counted.symm.trans noTable

theorem copyTable_exact (isTable : body = .captbl ∨ body = .pgtbl)
    (held : (k.slots source.1 source.2).post = body table) :
    (copyTable source target).Ensures
      (k.withCopy target (k.slots source.1 source.2).h.type (k.slots source.1 source.2).post)
      fun outcome k' => k.CopyExact k' t capTo capinTo capFrom capinFrom outcome ↔
        ¬k.CopyUncounted t capTo capinTo capFrom capinFrom := by
  have counted : ∀ table, (body table).counted = some table := by
    rcases isTable with rfl | rfl <;> exact fun _ => rfl
  have withoutCount : ∀ table count parent, (body { table with
      refcntFlags := count, parent := parent }).withoutCount = (body table).withoutCount := by
    rcases isTable with rfl | rfl <;> exact fun _ _ _ => rfl
  have post : ∀ addr, addr = source ∨ addr = target →
      ((k.withCopy target (k.slots source.1 source.2).h.type (body table)).slots addr.1 addr.2).post
        = body table := by
    intro addr either
    rw [Kernel.withCopy, putBody_post]
    split_ifs with same
    · rfl
    · rw [committed_post, (either.resolve_right same), held]
  rw [held]
  refine (copyTable_ensures isTable (post source (.inl rfl)) (post target (.inr rfl))).mono ?_
  rintro (code | ⟨⟩) k' ended
  · obtain ⟨rfl, full⟩ := ended
    refine iff_of_false (copying.activates.not_undone _) (not_not.mpr ?_)
    exact copying.uncounted_iff.mpr ⟨table, by rw [held, counted], full⟩
  · obtain ⟨room, rfl⟩ := ended
    refine iff_of_true (copying.done fun dest addable => ?_) fun uncounted => ?_
    · obtain ⟨copy, leads, type, -⟩ := Kernel.withCopy_found (body table) addable
      obtain ⟨between, leads, header, -⟩ := found_putBody leads source
        (body { table with refcntFlags := refcntInc table.refcntFlags })
      obtain ⟨final, leads, header', post⟩ := found_putBody leads target
        (body { table with refcntFlags := 1, parent := some source })
      refine ⟨final, leads, by rw [header', header, type], ?_⟩
      rw [post, if_pos rfl, held, withoutCount]
    · obtain ⟨_, counted', full⟩ := copying.uncounted_iff.mp uncounted
      rw [held, counted] at counted'
      cases counted'
      exact room full

theorem copyReference_exact :
    (copyReference source target (k.slots source.1 source.2).post).Ensures
      (k.withCopy target (k.slots source.1 source.2).h.type (k.slots source.1 source.2).post)
      fun outcome k' => k.CopyExact k' t capTo capinTo capFrom capinFrom outcome ↔
        ¬k.CopyUncounted t capTo capinTo capFrom capinFrom := by
  cases held : (k.slots source.1 source.2).post with
  | thd tc =>
    refine ensures_update.mpr (copying.exact_of_same ?_ rfl ?_)
    · rw [held]
      rfl
    · rw [held]
  | captbl table =>
    have counted := copying.copyTable_exact (.inl rfl) held
    rwa [held] at counted
  | pgtbl table =>
    have counted := copying.copyTable_exact (.inr rfl) held
    rwa [held] at counted
  | none | sinv | asnd | arcv | comp | tcap | hw =>
    refine ensures_pure.mpr (copying.exact_of_same ?_ rfl ?_)
    · rw [held]
      rfl
    · rw [held]

end

end Kernel.Copying

section Call

variable {k k' : Kernel} {cpu t capTo capinTo capFrom capinFrom : Nat} {ct : CapTable}
  {outcome : Except Int Unit}

theorem captblCpy_exact (named : k.captblNamed t capFrom = some ct) :
    (captblCpy t capTo capinTo ct.table capinFrom).Ensures k fun outcome k' =>
      k.CopyExact k' t capTo capinTo capFrom capinFrom outcome ↔
        ¬k.CopyUncounted t capTo capinTo capFrom capinFrom := by
  refine lkup_bind ?_
  refine orLeave_bind (fun missing => ?_) ?_
  · refine iff_of_true (.refl k t capTo) ?_
    rintro ⟨_, _, _, _, _, named', found, -⟩
    cases named'.symm.trans named
    cases found.symm.trans missing
  rintro ⟨source, slot⟩ found
  obtain rfl := Kernel.found_names found
  refine ensures_bind.mpr (ensures_attempt.mpr ((capCapactivatePre_activates _ _ _ _ _).mono ?_))
  rintro (code | target) k₁ activated
  · obtain ⟨rfl, -, refused⟩ := activated
    refine orLeave_none_bind (iff_of_true (.refl _ t capTo) ?_)
    rintro ⟨_, _, _, _, target, named', found', -, -, activates⟩
    cases named'.symm.trans named
    cases found'.symm.trans found
    exact refused target activates
  obtain ⟨rfl, activates⟩ := activated
  refine orLeave_some_bind (read_bind ?_)
  have copying : k.Copying t capTo capinTo capFrom capinFrom source target :=
    ⟨⟨ct, named, found⟩, activates⟩
  have body : ((committed k.slots target.1 target.2 (k.slots source.1 source.2).h.type)
      source.1 source.2).post = (k.slots source.1 source.2).post := committed_post _ _
  dsimp only [id_eq]
  rw [body]
  exact update_bind copying.copyReference_exact

/-- A copy of a capability does all or nothing, unless it is the copy of a table whose
count cannot be taken. -/
theorem capability_copy_exact_iff (notMapping : k.pgtblNamed t capFrom = none)
    (ran : capCpy cpu t capTo capinTo capFrom capinFrom k = .ok (outcome, k')) :
    k.CopyExact k' t capTo capinTo capFrom capinFrom outcome ↔
      ¬k.CopyUncounted t capTo capinTo capFrom capinFrom := by
  suffices ensures : (capCpy cpu t capTo capinTo capFrom capinFrom).Ensures k fun outcome k' =>
      k.CopyExact k' t capTo capinTo capFrom capinFrom outcome ↔
        ¬k.CopyUncounted t capTo capinTo capFrom capinFrom from ensures outcome k' ran
  have unnamed : k.captblNamed t capFrom = none →
      ¬k.CopyUncounted t capTo capinTo capFrom capinFrom := by
    rintro none ⟨_, _, _, _, _, named, -⟩
    cases named.symm.trans none
  refine lkup_bind ?_
  refine orLeave_bind (fun missing => ?_) ?_
  · refine iff_of_true (.refl k t capTo) (unnamed ?_)
    rw [Kernel.captblNamed, missing]
    rfl
  rintro ⟨addr, slot⟩ found
  dsimp only
  rw [← Kernel.captblNamed_eq found, ← Kernel.pgtblNamed_eq found, notMapping]
  cases named : k.captblNamed t capFrom with
  | none => exact ensures_leave.mpr (iff_of_true (.refl k t capTo) (unnamed named))
  | some ct => exact captblCpy_exact named

end Call

/-! A component that copies the capability of a table within its own table. -/

def sharingKernel (refcntFlags : Nat) : Kernel :=
  { rootKernel with
    memory :=
      { rootKernel.memory with
        kobj := fun page => if page = 30 then .captblLeaf else rootKobj page }
    slots := fun node i =>
      if node = (10, true) ∧ i = 40 then
        ⟨⟨0, 1, captblCap2sz .captbl, 0, .captbl⟩, .captbl ⟨refcntFlags, 30, 1, none, 0⟩⟩
      else rootKernel.slots node i }

def sharingView (outcome : Except Int Unit) (k : Kernel) :
    Except Int Unit × Option CapBody × Option CapBody :=
  (outcome, (k.found 10 40).map (·.2.post), (k.found 10 48).map (·.2.post))

theorem capability_copy_exact_counted :
    ∃ k', capCpy 0 10 4 48 4 40 (sharingKernel 1) = .ok (.ok (), k') ∧
      (sharingKernel 1).pgtblNamed 10 4 = none ∧
      ((sharingKernel 1).CopyExact k' 10 4 48 4 40 (.ok ()) ↔
        ¬(sharingKernel 1).CopyUncounted 10 4 48 4 40) := by
  have view : (capCpy 0 10 4 48 4 40 (sharingKernel 1)).toOption.map
      (fun (outcome, k') => sharingView outcome k') =
        some (.ok (), some (.captbl ⟨2, 30, 1, none, 0⟩),
          some (.captbl ⟨1, 30, 1, some ((10, true), 40), 0⟩)) := by
    decide +kernel
  obtain ⟨outcome, k', ran, seen⟩ := exists_of_view view
  have done : outcome = .ok () := congrArg Prod.fst seen
  subst done
  have notMapping : (sharingKernel 1).pgtblNamed 10 4 = none := by decide +kernel
  have copied := capability_copy_exact_iff notMapping ran
  exact ⟨k', ran, notMapping, copied⟩

/-- The copy of a frozen table fails and leaves the copy behind. -/
theorem capability_copy_left_behind :
    ∃ k', capCpy 0 10 4 48 4 40 (sharingKernel (1 + capMemFrozenFlag)) =
        .ok (.error (-Errno.einval), k') ∧
      (sharingKernel (1 + capMemFrozenFlag)).pgtblNamed 10 4 = none ∧
      (k'.found 10 48).isSome ∧
      ¬(sharingKernel (1 + capMemFrozenFlag)).CopyExact k' 10 4 48 4 40
        (.error (-Errno.einval)) := by
  have view : (capCpy 0 10 4 48 4 40 (sharingKernel (1 + capMemFrozenFlag))).toOption.map
      (fun (outcome, k') => sharingView outcome k') =
        some (.error (-Errno.einval), some (.captbl ⟨1 + capMemFrozenFlag, 30, 1, none, 0⟩),
          some (.captbl ⟨1 + capMemFrozenFlag, 30, 1, none, 0⟩)) := by
    decide +kernel
  obtain ⟨outcome, k', ran, seen⟩ := exists_of_view view
  have failed : outcome = .error (-Errno.einval) := congrArg Prod.fst seen
  subst failed
  have present : (k'.found 10 48).isSome := by
    have body : (k'.found 10 48).map (·.2.post) = _ := congrArg (·.2.2) seen
    rw [← Option.isSome_map, body]
    rfl
  have own : (sharingKernel (1 + capMemFrozenFlag)).captblNamed 10 4 =
      some ⟨1, 10, 0, none, 0⟩ := by
    decide +kernel
  have free : (sharingKernel (1 + capMemFrozenFlag)).found 10 48 = none := by decide +kernel
  refine ⟨k', ran, by decide +kernel, present, fun undone => ?_⟩
  have same := undone.lookups _ own 48
  dsimp only at same
  rw [same, free] at present
  cases present

end Composite
