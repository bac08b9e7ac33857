import Composite.Kernel.Captbl.Represents
import Composite.Kernel.SameObjects

/-!
# What the ids of a table name

An id of a capability table leads to a slot, and the header of the line says which
capability covers it.  A store of a body changes no header, so the ids keep naming
the same slots; an addition makes its id name the new slot and leaves all other
names as they are.
-/

namespace Composite

open Procedure Kernel Option

/-! Casts. -/

variable {slot : Slot CapBody}

theorem captbl?_eq_some {ct : CapTable} :
    slot.captbl? = some ct ↔ slot.h.type = .captbl ∧ slot.post = .captbl ct := by
  unfold Slot.captbl? CapBody.captbl?
  split_ifs with typed
  · cases slot.post <;> simp [typed]
  · simp [typed]

theorem pgtbl?_eq_some {pt : CapTable} :
    slot.pgtbl? = some pt ↔ slot.h.type = .pgtbl ∧ slot.post = .pgtbl pt := by
  unfold Slot.pgtbl? CapBody.pgtbl?
  split_ifs with typed
  · cases slot.post <;> simp [typed]
  · simp [typed]

def Kernel.captblNamed (k : Kernel) (t cap : Nat) : Option CapTable :=
  (k.found t cap).bind fun (_, slot) => slot.captbl?

def Kernel.pgtblNamed (k : Kernel) (t cap : Nat) : Option CapTable :=
  (k.found t cap).bind fun (_, slot) => slot.pgtbl?

theorem Kernel.captblNamed_eq {k : Kernel} {t cap : Nat} {addr : CapAddr}
    (found : k.found t cap = some (addr, slot)) : k.captblNamed t cap = slot.captbl? := by
  rw [Kernel.captblNamed, found]
  rfl

theorem Kernel.pgtblNamed_eq {k : Kernel} {t cap : Nat} {addr : CapAddr}
    (found : k.found t cap = some (addr, slot)) : k.pgtblNamed t cap = slot.pgtbl? := by
  rw [Kernel.pgtblNamed, found]
  rfl

theorem Kernel.found_names {k : Kernel} {ct cap : Nat} {addr : CapAddr}
    (found : k.found ct cap = some (addr, slot)) : slot = k.slots addr.1 addr.2 := by
  simp only [Kernel.found, map_eq_some_iff, Prod.mk.injEq] at found
  obtain ⟨at_, -, rfl, rfl⟩ := found
  rfl

/-! Stores into the slot of a table. -/

section PutBody

variable (k : Kernel) (addr : CapAddr) (body : CapBody)

theorem putBody_self (held : (k.slots addr.1 addr.2).post = body) : k.putBody addr body = k := by
  subst held
  simp [Kernel.putBody]

theorem putBody_putBody (later : CapBody) :
    (k.putBody addr body).putBody addr later = k.putBody addr later := by
  simp [Kernel.putBody]

theorem putBody_h (node : Node) (i : Nat) :
    ((k.putBody addr body).slots node i).h = (k.slots node i).h := by
  rw [k.putBody_slots addr (node, i) body]
  split_ifs with same
  · rw [← same]
  · rfl

theorem putBody_post (other : CapAddr) :
    ((k.putBody addr body).slots other.1 other.2).post =
      if other = addr then body else (k.slots other.1 other.2).post := by
  rw [k.putBody_slots addr other body]
  split_ifs <;> rfl

theorem captblGetleaf_putBody (node : Node) (slot : Nat) :
    captblGetleaf ((k.putBody addr body).slots node) slot = captblGetleaf (k.slots node) slot := by
  simp only [captblGetleaf, putBody_h]

theorem captblRemovable_putBody (root : CaptblRoot Node) (cap : Nat) (type : CapType) :
    captblRemovable root (k.putBody addr body).slots cap type =
      captblRemovable root k.slots cap type := by
  simp only [captblRemovable, putBody_h, captblGetleaf_putBody]

theorem captblLkup_putBody (root : CaptblRoot Node) (cap : Nat) :
    captblLkup root (k.putBody addr body).slots cap = captblLkup root k.slots cap := by
  simp only [captblLkup, captblGetleaf_putBody]

end PutBody

theorem ensures_tableAt {k : Kernel} {addr : CapAddr} {table : CapTable}
    {body : CapTable → CapBody} (isTable : body = .captbl ∨ body = .pgtbl)
    (held : (k.slots addr.1 addr.2).post = body table)
    {post : Except Int (CapTable × (CapTable → CapBody)) → Kernel → Prop}
    (holds : post (.ok (table, body)) k) : (tableAt addr).Ensures k post := by
  refine read_bind ?_
  rw [held]
  rcases isTable with rfl | rfl
  · exact ensures_pure.mpr holds
  · exact ensures_pure.mpr holds

theorem ensures_modRefcntFlags {k : Kernel} {addr : CapAddr} {table : CapTable}
    {body : CapTable → CapBody} (isTable : body = .captbl ∨ body = .pgtbl)
    (held : (k.slots addr.1 addr.2).post = body table) {change : Nat → Nat}
    {post : Except Int Unit → Kernel → Prop}
    (holds : post (.ok ()) (k.putBody addr (body { table with
      refcntFlags := change table.refcntFlags }))) :
    (modRefcntFlags addr change).Ensures k post :=
  ensures_bind.mpr (ensures_tableAt isTable held (ensures_update.mpr holds))

/-! The id of an addition. -/

section Addition

variable {Node Body : Type*} {root : CaptblRoot Node} {slots : Slots Node Body} {cap p : Nat}
  {type : CapType} {node : Node}

theorem CapSz.ctMsk_eq {sz : CapSz} {p : Nat} (starts : sz.mask.getLsbD (p % 4) = true) :
    ctMsk p sz.order = p := by
  have below : p % 4 < 4 := Nat.mod_lt _ (by decide)
  unfold ctMsk
  cases sz with
  | sz16B => simp [CapSz.order]
  | sz32B =>
    have even : p % 4 = 0 ∨ p % 4 = 2 := by
      generalize p % 4 = offset at starts below
      interval_cases offset <;> simp_all [CapSz.mask]
    simp only [CapSz.order, pow_one]
    omega
  | sz64B =>
    have first : p % 4 = 0 := by
      generalize p % 4 = offset at starts below
      interval_cases offset <;> simp_all [CapSz.mask]
    simp only [CapSz.order]
    omega
  | err => simp [CapSz.mask] at starts

theorem captblGetleaf_empty {leaf : Nat → Slot Body} {slot : Nat}
    (empty : (leaf (lineOf slot)).h.amap = 0) : captblGetleaf leaf slot = none := by
  simp [captblGetleaf, empty]

section

variable (addable : Addable root slots cap type node p)

include addable

theorem Addable.wellFormed_before (sized : (slots node (lineOf p)).h.size = captblCap2sz type) :
    (slots node (lineOf p)).h.WellFormed := by
  refine ⟨sized ▸ addable.sized, ?_⟩
  have allowed := addable.allowed
  rw [BitVec.and_or_distrib_right] at allowed
  rw [sized]
  exact (BitVec.or_eq_zero_iff.mp allowed).1

theorem Addable.cover_eq {leaf : Nat → Slot Body}
    (sized : (leaf (lineOf p)).h.size = captblCap2sz type) : cover leaf p = p := by
  rw [cover, sized]
  exact CapSz.ctMsk_eq addable.own_mask

theorem Addable.getleaf_before : captblGetleaf (slots node) p = none := by
  rcases addable.fits with empty | sized
  · exact captblGetleaf_empty empty
  · rw [captblGetleaf_eq (addable.wellFormed_before sized), addable.cover_eq sized, addable.free]
    rfl

theorem Addable.lkup_before : captblLkup root slots cap = none := by
  simp [captblLkup, Nat.mod_eq_of_lt addable.bounded, addable.reached, addable.getleaf_before]

end

variable [DecidableEq Node]

theorem committed_post (n : Node) (s : Nat) :
    (committed slots node p type n s).post = (slots n s).post := by
  rw [committed, captblAddCommit_apply]
  split_ifs <;> rfl

theorem committed_type (slots : Slots Node Body) (node : Node) (p : Nat) (type : CapType) :
    (committed slots node p type node p).h.type = type := by
  simp [captblAddCommit_apply]

theorem committed_type_other {n : Node} {s : Nat} (other : ¬(n = node ∧ s = p)) :
    (committed slots node p type n s).h.type = (slots n s).h.type := by
  rw [committed, captblAddCommit_apply, if_neg other]
  split_ifs with line
  · obtain ⟨rfl, rfl⟩ := line
    rfl
  · rfl

theorem committed_flags (n : Node) (s : Nat) :
    (committed slots node p type n s).h.flags = (slots n s).h.flags := by
  rw [committed, captblAddCommit_apply]
  split_ifs with here header line
  · obtain ⟨rfl, rfl⟩ := here
    show (slots n (lineOf s)).h.flags = (slots n s).h.flags
    rw [← header]
  · obtain ⟨rfl, rfl⟩ := here
    rfl
  · obtain ⟨rfl, rfl⟩ := line
    rfl
  · rfl

section

variable (addable : Addable root slots cap type node p)

include addable

theorem Addable.wellFormed_after : (committed slots node p type node (lineOf p)).h.WellFormed := by
  obtain ⟨amap, size⟩ := committed_line slots node p type
  refine ⟨size ▸ addable.sized, ?_⟩
  rw [amap, size]
  exact addable.allowed

theorem Addable.getleaf_after : captblGetleaf (committed slots node p type node) p = some p := by
  rw [captblGetleaf_eq addable.wellFormed_after,
    addable.cover_eq (committed_line slots node p type).2, active_committed]
  simp

theorem Addable.lkup_after :
    captblLkup root (committed slots node p type) cap = some (node, p) := by
  simp [captblLkup, Nat.mod_eq_of_lt addable.bounded, addable.reached, addable.getleaf_after]

theorem Addable.getleaf_kept {n : Node} {s c : Nat} (covered : captblGetleaf (slots n) s = some c) :
    captblGetleaf (committed slots node p type n) s = some c := by
  by_cases sameLine : n = node ∧ lineOf s = lineOf p
  · obtain ⟨rfl, line⟩ := sameLine
    have nonempty : (slots n (lineOf p)).h.amap ≠ 0 := by
      intro empty
      rw [← line] at empty
      cases (captblGetleaf_empty empty).symm.trans covered
    have sized := addable.fits.resolve_left nonempty
    have after := committed_line slots n p type
    have cover_eq : cover (committed slots n p type n) s = cover (slots n) s := by
      rw [cover, cover, line, after.2, sized]
    rw [captblGetleaf_eq (line ▸ addable.wellFormed_before sized)] at covered
    rw [captblGetleaf_eq (line ▸ addable.wellFormed_after), cover_eq, active_committed]
    split_ifs at covered with allocated
    rw [allocated, Bool.true_or, if_pos rfl]
    exact covered
  · rw [← covered]
    simp only [captblGetleaf, committed_line_other sameLine]

theorem Addable.lkup_kept {other : CaptblRoot Node} {id : Nat} {address : Node × Nat}
    (leads : captblLkup other slots id = some address) :
    captblLkup other (committed slots node p type) id = some address := by
  obtain ⟨⟨n, s⟩, reached, covers⟩ := bind_eq_some_iff.mp leads
  obtain ⟨c, covered, rfl⟩ := map_eq_some_iff.mp covers
  rw [captblLkup, reached, bind_some]
  dsimp only
  rw [addable.getleaf_kept covered]
  rfl

end

end Addition

theorem active_of_lkup {Node Body : Type*} {root : CaptblRoot Node} {slots : Slots Node Body}
    {cap p : Nat} {node : Node} (wellFormed : ∀ node slot, (slots node (lineOf slot)).h.WellFormed)
    (leads : captblLkup root slots cap = some (node, p)) : active (slots node) p = true := by
  rw [captblLkup_eq wellFormed] at leads
  obtain ⟨⟨n, s⟩, -, covers⟩ := bind_eq_some_iff.mp leads
  dsimp only at covers
  split_ifs at covers with allocated
  cases covers
  exact allocated

/-! Activation. -/

/-- `__cap_capactivate_pre` would give out the slot. -/
def Kernel.Activates (k : Kernel) (t cap capin : Nat) (type : CapType) (target : CapAddr) : Prop :=
  ∃ ct slots, k.captblNamed t cap = some ct ∧ ¬isFrozen ct.refcntFlags ∧
    captblAdd (k.roots ct.table) k.slots k.ltbl k.tsc capin type = .ok (0, some target, slots)

theorem Kernel.Activates.addable {k : Kernel} {t cap capin : Nat} {type : CapType}
    {target : CapAddr} (activates : k.Activates t cap capin type target) :
    ∃ ct, k.captblNamed t cap = some ct ∧
      Addable (k.roots ct.table) k.slots capin type target.1 target.2 := by
  obtain ⟨ct, slots, named, -, added⟩ := activates
  rcases captblAdd_cases added with ⟨refused, -⟩ | ⟨node, p, -, accepted, addable, -⟩
  · cases refused
  · cases accepted
    exact ⟨ct, named, addable⟩

theorem add_activates (k : Kernel) (ct cap : Nat) (type : CapType) :
    (add ct cap type).Ensures k fun outcome k' =>
      match outcome with
      | .error code => k' = k ∧ code ≠ 0 ∧ ∀ target slots,
          captblAdd (k.roots ct) k.slots k.ltbl k.tsc cap type ≠ .ok (0, some target, slots)
      | .ok target => k' = { k with slots := committed k.slots target.1 target.2 type } ∧
          ∃ slots, captblAdd (k.roots ct) k.slots k.ltbl k.tsc cap type =
            .ok (0, some target, slots) := by
  refine ensures_bind.mpr (ensures_captblRootBelow ?_)
  simp only [ensures_bind, ensures_read, id_eq]
  cases added : captblAdd (k.roots ct) k.slots k.ltbl k.tsc cap type with
  | error found => exact ensures_fault
  | ok result =>
    obtain ⟨ret, found, slots⟩ := result
    simp only [ensures_bind, ensures_update]
    rcases captblAdd_cases added with ⟨rfl, rfl, failed⟩ | ⟨node, p, rfl, rfl, addable, rfl⟩
    · exact ensures_leave.mpr ⟨rfl, failed, by simp⟩
    · exact ensures_pure.mpr ⟨rfl, _, rfl⟩

theorem capCapactivatePre_activates (k : Kernel) (t cap capin : Nat) (type : CapType) :
    (capCapactivatePre t cap capin type).Ensures k fun outcome k' =>
      match outcome with
      | .error code => k' = k ∧ code ≠ 0 ∧ ∀ target, ¬k.Activates t cap capin type target
      | .ok target => k' = { k with slots := committed k.slots target.1 target.2 type } ∧
          k.Activates t cap capin type target := by
  refine lkup_bind ?_
  refine orLeave_bind ?_ fun ct named => ?_
  · rintro unnamed
    refine ⟨rfl, by decide, ?_⟩
    rintro target ⟨ct, slots, named, -⟩
    cases named.symm.trans unnamed
  refine leaveIf_bind (fun frozen => ?_) fun thawed => ?_
  · refine ⟨rfl, by decide, ?_⟩
    rintro target ⟨_, slots, named', thawed, -⟩
    cases named'.symm.trans named
    exact thawed frozen
  refine (add_activates k ct.table capin type).mono fun outcome k' added => ?_
  cases outcome with
  | error code =>
    refine ⟨added.1, added.2.1, ?_⟩
    rintro target ⟨_, slots, named', -, accepted⟩
    cases named'.symm.trans named
    exact added.2.2 target slots accepted
  | ok target =>
    obtain ⟨same, slots, accepted⟩ := added
    exact ⟨same, ct, slots, named, thawed, accepted⟩

end Composite
