import Composite.Kernel.Named

/-!
# What the calls on receive end-points do

An end-point is a thread that is bound to a tcap and has a parent, which it
notifies.  Receive capabilities name the thread and record its distance from the
root.  An activation binds a thread, a deactivation releases it, and copies and
moves only carry receive capabilities from one slot to another.
-/

namespace Composite

open Procedure Kernel Function

namespace Threads

/-- `__arcv_setup` on the threads. -/
def bind (threads : Threads) (thd tcap notif : Nat) : Threads :=
  ((threads.modify thd fun t => { t with
    schedulerThread := some notif
    rcvcap := { t.rcvcap with rcvcapThdNotif := some notif } }).modify notif
    fun t => { t with rcvcap := { t.rcvcap with refcnt := t.rcvcap.refcnt + 1 } }).modify thd
    fun t => { t with rcvcap := { t.rcvcap with isbound := true, rcvcapTcap := some tcap } }

/-- `thd_rcvcap_release` on the parent of a thread. -/
def releaseParent (threads : Threads) : Option Nat → Threads
  | none => threads
  | some notif =>
    threads.modify notif
      fun t => { t with rcvcap := { t.rcvcap with refcnt := t.rcvcap.refcnt - 1 } }

/-- `__arcv_teardown` on the threads. -/
def release (threads : Threads) (thd : Nat) : Threads :=
  (threads.releaseParent (threads.arcvNotif thd)).modify thd
    fun t => { t with rcvcap := { t.rcvcap with isbound := false, rcvcapTcap := none } }

section Fields

variable (threads : Threads) (thd tcap notif t : Nat)

theorem modify_rcvcap (change : Thread → Thread) :
    (threads.modify thd change t).rcvcap =
      if t = thd then (change (threads t)).rcvcap else (threads t).rcvcap := by
  by_cases same : t = thd
  · subst same
    simp [modify]
  · simp [modify, same]

theorem bind_rcvcap :
    (threads.bind thd tcap notif t).rcvcap =
      { (threads t).rcvcap with
        isbound := if t = thd then true else (threads t).rcvcap.isbound
        refcnt := (threads t).rcvcap.refcnt + if t = notif then 1 else 0
        rcvcapTcap := if t = thd then some tcap else (threads t).rcvcap.rcvcapTcap
        rcvcapThdNotif := if t = thd then some notif else (threads t).rcvcap.rcvcapThdNotif } := by
  simp only [bind, modify_rcvcap]
  split_ifs <;> rfl

theorem releaseParent_rcvcap (parent : Option Nat) :
    (threads.releaseParent parent t).rcvcap =
      { (threads t).rcvcap with
        refcnt := (threads t).rcvcap.refcnt - if parent = some t then 1 else 0 } := by
  cases parent with
  | none => simp [releaseParent]
  | some notif =>
    by_cases same : t = notif
    · simp [releaseParent, modify_rcvcap, same]
    · simp [releaseParent, modify_rcvcap, same, Ne.symm same]

theorem release_rcvcap :
    (threads.release thd t).rcvcap =
      { (threads t).rcvcap with
        isbound := if t = thd then false else (threads t).rcvcap.isbound
        refcnt := (threads t).rcvcap.refcnt - if threads.arcvNotif thd = some t then 1 else 0
        rcvcapTcap := if t = thd then none else (threads t).rcvcap.rcvcapTcap } := by
  unfold release
  by_cases self : t = thd <;> simp [modify_rcvcap, releaseParent_rcvcap, self]

end Fields

end Threads

def Kernel.NamesArcv (k : Kernel) (arcv : CapArcv) : Prop :=
  ∃ addr : CapAddr, (k.slots addr.1 addr.2).arcv? = some arcv

structure SameEndpoints (k k' : Kernel) : Prop where
  rcvcap : ∀ t, (k'.threads t).rcvcap = (k.threads t).rcvcap
  tcaps : k'.tcaps = k.tcaps
  kobj : k'.memory.kobj = k.memory.kobj
  named : ∀ arcv, k'.NamesArcv arcv → k.NamesArcv arcv

instance : IsPreorder Kernel SameEndpoints where
  refl _ := ⟨fun _ => rfl, rfl, rfl, fun _ => id⟩
  trans _ _ _ before after :=
    ⟨fun t => (after.rcvcap t).trans (before.rcvcap t), after.tcaps.trans before.tcaps,
      after.kobj.trans before.kobj, fun arcv named => before.named arcv (after.named arcv named)⟩

/-- A thread has been bound below the end-point that `parent` names. -/
structure Bound (k k' : Kernel) (thd tcap : Nat) (parent : CapArcv) : Prop where
  unbound : (k.threads thd).rcvcap.isbound = false
  below : k.NamesArcv parent
  shallow : (parent.depth + 1) % 2 ^ 8 < arcvNotifDepth
  threads : k'.threads = k.threads.bind thd tcap parent.thd
  tcaps : k'.tcaps = Function.update k.tcaps tcap ((k.tcaps tcap).bind thd)
  kobj : k'.memory.kobj = k.memory.kobj
  named : ∀ arcv, k'.NamesArcv arcv →
    k.NamesArcv arcv ∨ arcv.thd = thd ∧ arcv.depth = (parent.depth + 1) % 2 ^ 8

structure Released (k k' : Kernel) (thd tcap : Nat) : Prop where
  childless : (k.threads thd).rcvcap.refcnt = 0
  boundTo : (k.threads thd).rcvcap.rcvcapTcap = some tcap
  allowed : ¬((k.tcaps tcap).refcnt > 1 ∧ (k.tcaps tcap).arcvEp = some thd)
  threads : k'.threads = k.threads.release thd
  tcaps : k'.tcaps = Function.update k.tcaps tcap (k.tcaps tcap).unbind
  kobj : k'.memory.kobj = k.memory.kobj
  named : ∀ arcv, k'.NamesArcv arcv → k.NamesArcv arcv

/-! Receive capabilities in the slots. -/

section Slots

variable {k k' : Kernel} {arcv : CapArcv} {node : Node}

theorem Kernel.NamesArcv.of_slots (slots : k'.slots = k.slots) (named : k'.NamesArcv arcv) :
    k.NamesArcv arcv := by
  obtain ⟨addr, held⟩ := named
  exact ⟨addr, slots ▸ held⟩

theorem arcv?_eq_some {slot : Slot CapBody} :
    slot.arcv? = some arcv ↔ slot.h.type = .arcv ∧ slot.post = .arcv arcv := by
  unfold Slot.arcv?
  cases post : slot.post <;> simp [CapBody.arcv?]

theorem arcv_of_removed {slots : Slots Node CapBody} {p lid : Nat} {addr : CapAddr}
    (held : (captblRemoveCommit slots node p lid .free addr.1 addr.2).arcv? = some arcv) :
    (slots addr.1 addr.2).arcv? = some arcv ∧ addr ≠ (node, p) := by
  obtain ⟨n, s⟩ := addr
  rw [arcv?_eq_some, captblRemoveCommit_apply] at held
  obtain ⟨type, post⟩ := held
  by_cases here : n = node ∧ s = p
  · rw [if_pos here] at type
    simp at type
  · rw [if_neg here] at type post
    refine ⟨arcv?_eq_some.mpr ?_, fun same => here (by simpa using same)⟩
    by_cases line : n = node ∧ s = lineOf p
    · rw [if_pos line] at type post
      obtain ⟨rfl, rfl⟩ := line
      refine ⟨?_, post⟩
      simp only at type
      split at type
      · cases type
      · exact type
    · rw [if_neg line] at type post
      exact ⟨type, post⟩

theorem arcv_of_added {p : Nat} {type : CapType} {body : CapBody} {addr : CapAddr}
    (held : ((Kernel.putBody { k with
      slots := captblAddCommit k.slots node p type (lineAfterAdd k.slots node p type) }
        (node, p) body).slots addr.1 addr.2).arcv? = some arcv) :
    (addr = (node, p) ∧ type = .arcv ∧ body = .arcv arcv) ∨
      (k.slots addr.1 addr.2).arcv? = some arcv := by
  rw [Kernel.putBody_slots] at held
  by_cases here : addr = (node, p)
  · rw [if_pos here, arcv?_eq_some] at held
    refine .inl ⟨here, ?_, held.2⟩
    simpa [captblAddCommit_apply] using held.1
  · rw [if_neg here, arcv?_eq_some] at held
    obtain ⟨n, s⟩ := addr
    simp only [captblAddCommit_apply] at held
    have other : ¬(n = node ∧ s = p) := fun same => here (by simp [same])
    rw [if_neg other] at held
    refine .inr (arcv?_eq_some.mpr ?_)
    by_cases line : n = node ∧ s = lineOf p
    · rw [if_pos line] at held
      obtain ⟨rfl, rfl⟩ := line
      exact held
    · rwa [if_neg line] at held

theorem named_of_added {p : Nat} {type : CapType} {body : CapBody}
    (copied : type = .arcv → body = .arcv arcv → k.NamesArcv arcv)
    (named : (Kernel.putBody { k with
      slots := captblAddCommit k.slots node p type (lineAfterAdd k.slots node p type) }
        (node, p) body).NamesArcv arcv) : k.NamesArcv arcv := by
  obtain ⟨addr, held⟩ := named
  rcases arcv_of_added held with ⟨-, typed, same⟩ | held
  · exact copied typed same
  · exact ⟨addr, held⟩

end Slots

/-! Activation. -/

theorem arcvSetup_ensures (k : Kernel) (thd tcap notif : Nat) :
    (arcvSetup thd tcap notif).Ensures k fun outcome k' =>
      outcome = .ok () ∧
        k' = { k with
          threads := k.threads.bind thd tcap notif
          tcaps := update k.tcaps tcap ((k.tcaps tcap).bind thd) } := by
  simp only [arcvSetup, onThread, onTcap, ensures_bind, ensures_read, ensures_require,
    ensures_update, id_eq]
  exact fun _ => ⟨trivial, rfl⟩

theorem arcvActivate_ensures (k : Kernel) (cpu t cap capin compCap thdCap tcapCap arcvCap : Nat) :
    (arcvActivate cpu t cap capin compCap thdCap tcapCap arcvCap).Ensures k fun outcome k' =>
      match outcome with
      | .error _ => k' = k
      | .ok () => ∃ thd tcap parent, Bound k k' thd tcap parent := by
  refine lkup_bind ?_
  refine orLeave_bind (fun _ => rfl) fun compc _ => ?_
  refine lkup_bind ?_
  refine orLeave_bind (fun _ => rfl) fun thdc _ => ?_
  refine leaveIf_bind (fun _ => rfl) fun _ => ?_
  refine lkup_bind ?_
  refine orLeave_bind (fun _ => rfl) fun tcapc _ => ?_
  refine leaveIf_bind (fun _ => rfl) fun _ => ?_
  refine read_bind ?_
  refine leaveIf_bind (fun _ => rfl) fun unbound => ?_
  refine require_bind fun _ => ?_
  refine lkup_bind ?_
  refine orLeave_bind (fun _ => rfl) fun parent found => ?_
  refine leaveIf_bind (fun _ => rfl) fun _ => ?_
  refine leaveIf_bind (fun _ => rfl) fun shallow => ?_
  refine (capCapactivatePre_activates k t cap capin .arcv).bind ?_
  rintro (code | addr) k₁ ⟨rfl, -⟩
  · rfl
  refine update_bind ((arcvSetup_ensures _ _ _ _).mono ?_)
  rintro _ k' ⟨rfl, rfl⟩
  obtain ⟨⟨at_, slot⟩, lookup, cast⟩ := Option.bind_eq_some_iff.mp found
  refine ⟨thdc.t, tcapc.tcap, parent, ?_⟩
  exact {
    unbound := by simpa using unbound
    below := ⟨at_, found_names lookup ▸ cast⟩
    shallow := not_le.mp shallow
    threads := rfl
    tcaps := rfl
    kobj := rfl
    named := by
      rintro arcv ⟨other, held⟩
      rcases arcv_of_added held with ⟨-, -, same⟩ | held
      · cases same
        exact .inr ⟨rfl, rfl⟩
      · exact .inl ⟨other, held⟩ }

/-! Deactivation. -/

theorem thdRcvcapRelease_ensures (k : Kernel) (parent : Option Nat) :
    (thdRcvcapRelease parent).Ensures k fun outcome k' =>
      outcome = .ok () ∧ k' = { k with threads := k.threads.releaseParent parent } := by
  cases parent with
  | none => exact ensures_pure.mpr ⟨rfl, rfl⟩
  | some notif => exact ensures_update.mpr ⟨rfl, rfl⟩

theorem arcvTeardown_ensures (k : Kernel) (thd : Nat) :
    (arcvTeardown thd).Ensures k fun outcome k' =>
      match outcome with
      | .error code => k' = k ∧ code ≠ 0 ∧ ∃ tcap, (k.threads thd).rcvcap.rcvcapTcap = some tcap ∧
          (k.tcaps tcap).refcnt > 1 ∧ (k.tcaps tcap).arcvEp = some thd
      | .ok () => ∃ tcap, (k.threads thd).rcvcap.rcvcapTcap = some tcap ∧
          ¬((k.tcaps tcap).refcnt > 1 ∧ (k.tcaps tcap).arcvEp = some thd) ∧
          k' = { k with
            threads := k.threads.release thd
            tcaps := update k.tcaps tcap (k.tcaps tcap).unbind } := by
  refine read_bind ?_
  refine ensures_bind.mpr (ensures_orFault.mpr fun tcap boundTo => ?_)
  refine leaveIf_bind (fun refused => ⟨rfl, by decide, tcap, boundTo, refused⟩) fun allowed => ?_
  refine (thdRcvcapRelease_ensures _ _).bind ?_
  rintro _ k₁ ⟨rfl, rfl⟩
  refine update_bind (ensures_update.mpr ?_)
  exact ⟨tcap, boundTo, allowed, rfl⟩

theorem arcvDeactivate_ensures (k : Kernel) (cpu : Nat) (t : CapTable) (capin lid : Nat) :
    (arcvDeactivate cpu t capin lid).Ensures k fun _ k' =>
      k' = k ∨ ∃ addr slot arcvc tcap, k.found t.table capin = some (addr, slot) ∧
        slot.arcv? = some arcvc ∧ Released k k' arcvc.thd tcap ∧
        (captblRemovable (k.roots t.table) k.slots capin .arcv = .ok addr →
          ∀ other arcv, (k'.slots other.1 other.2).arcv? = some arcv →
            (k.slots other.1 other.2).arcv? = some arcv ∧ other ≠ addr) := by
  refine lkup_bind ?_
  refine orLeave_bind (fun _ => .inl rfl) fun arcvc found => ?_
  refine leaveIf_bind (fun _ => .inl rfl) fun _ => ?_
  refine read_bind ?_
  refine leaveIf_bind (fun _ => .inl rfl) fun childless => ?_
  refine ensures_bind.mpr (ensures_code.mpr ((arcvTeardown_ensures k arcvc.thd).mono ?_))
  obtain ⟨⟨addr, slot⟩, lookup, cast⟩ := Option.bind_eq_some_iff.mp found
  rintro (code | ⟨⟩) k₁ tornDown
  · refine leaveIf_bind (fun _ => .inl tornDown.1) fun zero => ?_
    exact absurd tornDown.2.1 zero
  obtain ⟨tcap, boundTo, allowed, rfl⟩ := tornDown
  refine leaveIf_bind (fun nonzero => absurd rfl nonzero) fun _ => ?_
  have released : ∀ slots : Slots Node CapBody,
      (∀ (other : CapAddr) (arcv : CapArcv), (slots other.1 other.2).arcv? = some arcv →
        (k.slots other.1 other.2).arcv? = some arcv) →
      Released k { k with
        threads := k.threads.release arcvc.thd
        tcaps := update k.tcaps tcap (k.tcaps tcap).unbind
        slots := slots } arcvc.thd tcap := fun slots fewer =>
    ⟨by simpa using childless, boundTo, allowed, rfl, rfl, rfl,
      fun arcv ⟨other, held⟩ => ⟨other, fewer other arcv held⟩⟩
  refine clear_ensures (fun ret removable => .inr ⟨addr, slot, arcvc, tcap, lookup, cast, ?_⟩)
    fun place removable => .inr ⟨addr, slot, arcvc, tcap, lookup, cast, ?_⟩
  · exact ⟨released k.slots fun _ _ => id, fun taken => by cases removable.symm.trans taken⟩
  · refine ⟨released _ fun other arcv held => (arcv_of_removed held).1, fun taken => ?_⟩
    cases removable.symm.trans taken
    exact fun other arcv held => arcv_of_removed held

/-! Copies and moves. -/

theorem MemoryOnly.sameEndpoints {k k' : Kernel} (kept : MemoryOnly k k') : SameEndpoints k k' where
  rcvcap t := by rw [kept.sameObjects.threads]
  tcaps := kept.sameObjects.tcaps
  kobj := kept.kobj
  named _ := .of_slots kept.slots

theorem sameEndpoints_setBody (addr : CapAddr) {body : CapBody}
    (other : ∀ arcv, body ≠ .arcv arcv) :
    Keeps SameEndpoints (setBody addr body) := by
  refine keeps_update fun k => ⟨fun _ => rfl, rfl, rfl, ?_⟩
  rintro arcv ⟨place, held⟩
  rw [putBody_slots] at held
  split at held
  · exact absurd (arcv?_eq_some.mp held).2 (other arcv)
  · exact ⟨place, held⟩

theorem tableAt_ensures (k : Kernel) (addr : CapAddr) :
    (tableAt addr).Ensures k fun outcome k' =>
      k' = k ∧ ∃ table body, outcome = .ok (table, body) ∧ (body = .captbl ∨ body = .pgtbl) := by
  simp only [tableAt, ensures_bind, ensures_read]
  split
  all_goals simp_all

theorem table_ne_arcv {body : CapTable → CapBody} (tableBody : body = .captbl ∨ body = .pgtbl)
    (table : CapTable) (arcv : CapArcv) : body table ≠ .arcv arcv := by
  rcases tableBody with rfl | rfl <;> nofun

theorem sameEndpoints_modRefcntFlags (addr : CapAddr) (change : Nat → Nat) :
    Keeps SameEndpoints (modRefcntFlags addr change) := by
  intro k
  refine (tableAt_ensures k addr).bind ?_
  rintro _ _ ⟨rfl, table, body, rfl, tableBody⟩
  exact sameEndpoints_setBody addr (table_ne_arcv tableBody _) _

theorem sameEndpoints_copyTable (source target : CapAddr) :
    Keeps SameEndpoints (copyTable source target) := by
  intro k
  refine (tableAt_ensures k source).bind ?_
  rintro _ _ ⟨rfl, table, body, rfl, tableBody⟩
  exact Keeps.bind (keeps_leaveIf _ _) (fun _ => .bind (keeps_leaveIf _ _) fun _ =>
    .bind (sameEndpoints_modRefcntFlags _ _) fun _ => .bind (keeps_tableAt _) fun _ =>
    sameEndpoints_setBody _ (table_ne_arcv tableBody _)) _

theorem sameEndpoints_copyReference (source target : CapAddr) (body : CapBody) :
    Keeps SameEndpoints (copyReference source target body) := by
  unfold copyReference
  split
  · refine keeps_update fun k => ⟨fun t => ?_, rfl, rfl, fun _ => .of_slots rfl⟩
    rw [Threads.modify_rcvcap]
    split <;> rfl
  · exact sameEndpoints_copyTable source target
  · exact sameEndpoints_copyTable source target
  · exact keeps_pure ()

theorem sameEndpoints_copied (k : Kernel) (source target : CapAddr) :
    let added := { k with
      slots := captblAddCommit k.slots target.1 target.2 (k.slots source.1 source.2).h.type
        (lineAfterAdd k.slots target.1 target.2 (k.slots source.1 source.2).h.type) }
    SameEndpoints k (added.putBody target (added.slots source.1 source.2).post) := by
  refine ⟨fun _ => rfl, rfl, rfl, fun arcv named => named_of_added ?_ named⟩
  intro type body
  refine ⟨source, arcv?_eq_some.mpr ⟨type, ?_⟩⟩
  rw [← body]
  simp only [captblAddCommit_apply]
  split_ifs <;> rfl

theorem sameEndpoints_clear (ct cap : Nat) (type : CapType) (lid : Nat) :
    Keeps SameEndpoints (clear ct cap type lid) := by
  refine fun k => clear_ensures (fun _ _ => refl_of SameEndpoints k) fun _ _ => ?_
  exact ⟨fun _ => rfl, rfl, rfl, fun arcv ⟨addr, held⟩ => ⟨addr, (arcv_of_removed held).1⟩⟩

theorem sameEndpoints_captblCpy (t capTo capinTo ctFrom capinFrom : Nat) :
    Keeps SameEndpoints (captblCpy t capTo capinTo ctFrom capinFrom) := by
  intro k
  refine lkup_bind ?_
  refine orLeave_bind (fun _ => refl_of SameEndpoints k) ?_
  rintro ⟨addr, slot⟩ found
  obtain rfl := found_names found
  refine ensures_bind.mpr (ensures_attempt.mpr ((capCapactivatePre_activates _ _ _ _ _).mono ?_))
  rintro (code | target) k₁ ⟨rfl, -⟩
  · exact orLeave_none_bind (refl_of SameEndpoints _)
  refine orLeave_some_bind (read_bind ?_)
  refine update_bind ?_
  refine (sameEndpoints_copyReference addr target _ _).mono fun _ k' referred => ?_
  exact trans_of SameEndpoints (sameEndpoints_copied k addr target) referred

theorem captblMoveTo_ensures (k : Kernel) (t capTo capinTo : Nat) (addr : CapAddr) :
    (captblMoveTo t capTo capinTo addr (k.slots addr.1 addr.2)).Ensures k
      fun _ k' => SameEndpoints k k' := by
  refine ensures_ite.mpr ⟨fun _ => ensures_pure.mpr (refl_of SameEndpoints k), fun _ => ?_⟩
  refine ensures_bind.mpr (ensures_attempt.mpr ((capCapactivatePre_activates _ _ _ _ _).mono ?_))
  rintro (code | target) k₁ ⟨rfl, -⟩
  · exact orLeave_none_bind (refl_of SameEndpoints _)
  refine orLeave_some_bind (read_bind ?_)
  exact ensures_update.mpr (sameEndpoints_copied k addr target)

theorem sameEndpoints_captblMove (t capTo capinTo capFrom ctFrom capinFrom : Nat) :
    Keeps SameEndpoints (captblMove t capTo capinTo capFrom ctFrom capinFrom) := by
  intro k
  refine lkup_bind ?_
  refine orLeave_bind (fun _ => refl_of SameEndpoints k) ?_
  rintro ⟨addr, slot⟩ found
  obtain rfl := found_names found
  refine (captblMoveTo_ensures k t capTo capinTo addr).bind ?_
  rintro (code | ⟨⟩) k₁ moved
  · exact moved
  refine lkup_bind ?_
  dsimp only
  split
  · exact ensures_pure.mpr moved
  · refine (Keeps.bind (sameEndpoints_clear _ _ _ _).code (fun _ => keeps_pure ()) k₁).mono ?_
    exact fun _ _ cleared => trans_of SameEndpoints moved cleared

theorem sameEndpoints_capCpy (cpu t capTo capinTo capFrom capinFrom : Nat) :
    Keeps SameEndpoints (capCpy cpu t capTo capinTo capFrom capinFrom) := by
  refine .bind (keeps_lkup _ _) fun _ => .bind (keeps_orLeave _ _) fun ⟨_, slot⟩ => ?_
  dsimp only
  split
  · exact sameEndpoints_captblCpy _ _ _ _ _
  · exact fun k => (memoryOnly_pgtblCpy _ _ _ _ _ _ k).mono fun _ _ => MemoryOnly.sameEndpoints
  · exact keeps_leave _

theorem sameEndpoints_capMove (cpu t capTo capinTo capFrom capinFrom : Nat) :
    Keeps SameEndpoints (capMove cpu t capTo capinTo capFrom capinFrom) := by
  refine .bind (keeps_lkup _ _) fun _ => .bind (keeps_orLeave _ _) fun ⟨_, slot⟩ => ?_
  dsimp only
  split
  · exact sameEndpoints_captblMove _ _ _ _ _ _
  · exact fun k => (memoryOnly_pgtblMoveCas _ _ _ _ _ _ _ _ k).mono fun _ _ =>
      MemoryOnly.sameEndpoints
  · exact keeps_leave _

/-! The steps of a run. -/

def Kernel.operand (k : Kernel) (call : TableCall) : Option (Nat × CapAddr × Slot CapBody) := do
  let (_, ch) ← k.found call.ct call.cap
  let opCap ← ch.captbl?
  let (addr, slot) ← k.found opCap.table call.args.a1
  some (opCap.table, addr, slot)

def Kernel.deactivated (k : Kernel) (call : TableCall) : Option (Nat × CapAddr × CapArcv) :=
  if call.args.op = .arcvDeactivate then do
    let (table, addr, slot) ← k.operand call
    let arcvc ← slot.arcv?
    some (table, addr, arcvc)
  else none

def KernelEvent.OnEndpoints : KernelEvent → Prop
  | .call issued =>
    issued.args.op ∈ [.arcvActivate, .arcvDeactivate, .cpy, .move, .memMove]
  | _ => True

instance (event : KernelEvent) : Decidable event.OnEndpoints := by
  cases event <;> unfold KernelEvent.OnEndpoints <;> infer_instance

inductive EndpointStep (k : Kernel) (event : KernelEvent) (k' : Kernel) : Prop
  | same (kept : SameEndpoints k k')
  | bound {thd tcap : Nat} {parent : CapArcv} (bound : Bound k k' thd tcap parent)
  | released {call : TableCall} {table tcap : Nat} {addr : CapAddr} {arcvc : CapArcv}
      (called : event = .call call) (named : k.deactivated call = some (table, addr, arcvc))
      (held : (k.slots addr.1 addr.2).arcv? = some arcvc)
      (released : Released k k' arcvc.thd tcap)
      (removed : captblRemovable (k.roots table) k.slots call.args.a1 .arcv = .ok addr →
        ∀ other arcv, (k'.slots other.1 other.2).arcv? = some arcv →
          (k.slots other.1 other.2).arcv? = some arcv ∧ other ≠ addr)

theorem EndpointStep.of_keeps {Value : Type} {procedure : KCall Value} {k : Kernel}
    {event : KernelEvent} (keeps : Keeps SameEndpoints procedure) :
    procedure.Ensures k fun _ k' => EndpointStep k event k' :=
  (keeps k).mono fun _ _ => .same

theorem tableCall_endpoints (k : Kernel) (call : TableCall)
    (onEndpoints : KernelEvent.OnEndpoints (.call call)) :
    (tableCall call).Ensures k fun _ k' => EndpointStep k (.call call) k' := by
  obtain ⟨cpu, ct, cap, ⟨op, a1, a2, a3, a4⟩, stale⟩ := call
  refine lkup_bind ?_
  refine orLeave_bind (fun _ => .same (refl_of SameEndpoints k)) ?_
  rintro ⟨place, ch⟩ found
  refine read_bind ?_
  dsimp only at found ⊢
  simp only [KernelEvent.OnEndpoints, List.mem_cons, List.not_mem_nil, or_false] at onEndpoints
  split
  · rename_i opCap cast
    rcases onEndpoints with rfl | rfl | rfl | rfl | rfl
    · refine ensures_code.mpr ((arcvActivate_ensures k _ _ _ _ _ _ _ _).mono ?_)
      rintro (code | ⟨⟩) k' activated
      · exact .same (activated ▸ refl_of SameEndpoints k)
      · obtain ⟨thd, tcap, parent, bound⟩ := activated
        exact .bound bound
    · refine ensures_code.mpr ((arcvDeactivate_ensures k _ _ _ _).mono ?_)
      rintro _ k' (rfl | ⟨addr, slot, arcvc, tcap, lookup, held, released, removed⟩)
      · exact .same (refl_of SameEndpoints _)
      · obtain rfl := found_names lookup
        refine .released rfl ?_ held released removed
        simp [Kernel.deactivated, Kernel.operand, found, cast, lookup, held]
    · exact .of_keeps (sameEndpoints_capCpy _ _ _ _ _ _).code
    · exact .of_keeps (sameEndpoints_capMove _ _ _ _ _ _).code
    · exact .of_keeps (keeps_leave _)
  · rcases onEndpoints with rfl | rfl | rfl | rfl | rfl
    · exact .of_keeps (keeps_leave _)
    · exact .of_keeps (keeps_leave _)
    · exact .of_keeps (sameEndpoints_capCpy _ _ _ _ _ _).code
    · exact .of_keeps (keeps_leave _)
    · exact .of_keeps (sameEndpoints_capMove _ _ _ _ _ _).code
  · exact .of_keeps (keeps_leave _)

theorem endpointStep_of_next {k k' : Kernel} {event : KernelEvent}
    (onEndpoints : event.OnEndpoints) (stepped : kernelNext k event = some k') :
    EndpointStep k event k' := by
  cases event with
  | call call =>
    obtain ⟨outcome, ran⟩ := tableCall_of_next stepped
    exact tableCall_endpoints k call onEndpoints _ _ ran
  | tick | periodicFlush cpu time | mandatoryFlush cpu time | loadPgtbl cpu pgtbl =>
    cases stepped
    exact .same ⟨fun _ => rfl, rfl, rfl, fun _ => .of_slots rfl⟩

end Composite
