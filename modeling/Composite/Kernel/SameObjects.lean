import Composite.Kernel.Captbl.Update
import Composite.Kernel.Syscall

/-!
# What a call leaves alone

A walk through a page table and a change of a mapping touch the words of memory
and the reference counts of frames only.  The functions on capability tables
touch the slots.  Neither concerns threads, tcaps, the cores or what the pages of
kernel objects hold.
-/

namespace Composite

open Procedure Kernel Option

def SameKernel (k k' : Kernel) : Prop := k' = { k with walks := k'.walks }

instance : IsPreorder Kernel SameKernel where
  refl _ := rfl
  trans first second third before after :=
    calc third = { second with walks := third.walks } := after
      _ = { first with walks := third.walks } := by rw [before]

structure MemoryOnly (k k' : Kernel) : Prop where
  kobj : k'.memory.kobj = k.memory.kobj
  rest : k' = { k with memory := k'.memory, walks := k'.walks }

instance : IsPreorder Kernel MemoryOnly where
  refl _ := ⟨rfl, rfl⟩
  trans first second third before after :=
    ⟨after.kobj.trans before.kobj,
      calc third = { second with memory := third.memory, walks := third.walks } := after.rest
        _ = { first with memory := third.memory, walks := third.walks } := by rw [before.rest]⟩

structure SameObjects (k k' : Kernel) : Prop where
  threads : k'.threads = k.threads
  tcaps : k'.tcaps = k.tcaps
  cosInfo : k'.cosInfo = k.cosInfo
  kobj : k'.memory.kobj = k.memory.kobj

instance : IsPreorder Kernel SameObjects where
  refl _ := ⟨rfl, rfl, rfl, rfl⟩
  trans _ _ _ before after :=
    ⟨after.threads.trans before.threads, after.tcaps.trans before.tcaps,
      after.cosInfo.trans before.cosInfo, after.kobj.trans before.kobj⟩

theorem SameKernel.memoryOnly {k k' : Kernel} (same : SameKernel k k') : MemoryOnly k k' where
  kobj := by rw [same]
  rest := by rw [same]

namespace MemoryOnly

variable {k k' : Kernel}

theorem slots (kept : MemoryOnly k k') : k'.slots = k.slots := by rw [kept.rest]

theorem exists_eq (kept : MemoryOnly k k') :
    ∃ m w, m.kobj = k.memory.kobj ∧ k' = { k with memory := m, walks := w } :=
  ⟨_, _, kept.kobj, kept.rest⟩

theorem sameObjects (kept : MemoryOnly k k') : SameObjects k k' where
  threads := by rw [kept.rest]
  tcaps := by rw [kept.rest]
  cosInfo := by rw [kept.rest]
  kobj := kept.kobj

end MemoryOnly

/-! Functions that change nothing. -/

/-- What `captbl_lkup` finds in a state. -/
def Kernel.found (k : Kernel) (ct cap : Nat) : Option (CapAddr × Slot CapBody) :=
  (captblLkup (k.roots ct) k.slots cap).map fun addr => (addr, k.slots addr.1 addr.2)

theorem ensures_captblRoot {k : Kernel} {ct cap : Nat}
    {post : Except Int (CaptblRoot Node) → Kernel → Prop} (holds : post (.ok (k.roots ct)) k) :
    (captblRoot ct cap).Ensures k post := by
  simp only [captblRoot, ensures_bind, ensures_read, ensures_require, id_eq, ensures_pure]
  exact fun _ _ => holds

theorem ensures_captblRootBelow {k : Kernel} {ct cap : Nat}
    {post : Except Int (CaptblRoot Node) → Kernel → Prop} (holds : post (.ok (k.roots ct)) k) :
    (captblRootBelow ct cap).Ensures k post :=
  ensures_ite.mpr ⟨fun _ => ensures_captblRoot holds, fun _ => ensures_read.mpr holds⟩

theorem ensures_lkup {k : Kernel} {ct cap : Nat}
    {post : Except Int (Option (CapAddr × Slot CapBody)) → Kernel → Prop}
    (holds : post (.ok (k.found ct cap)) k) : (lkup ct cap).Ensures k post :=
  ensures_bind.mpr <| ensures_captblRoot <|
    ensures_bind.mpr <| ensures_read.mpr <| ensures_pure.mpr holds

section Binds

variable {Value Result : Type} {k : Kernel} {ct cap : Nat}
  {result : Except Int Result → Kernel → Prop}

theorem lkup_bind {rest : Option (CapAddr × Slot CapBody) → KCall Result}
    (continues : (rest (k.found ct cap)).Ensures k result) :
    Ensures (lkup ct cap >>= rest) k result :=
  ensures_bind.mpr (ensures_lkup continues)

theorem cast_bind {cast : Slot CapBody → Option Value} {found : Option (CapAddr × Slot CapBody)}
    {code : Int} {rest : CapAddr × Value → KCall Result}
    (leaves : (∀ addr slot, found = some (addr, slot) → cast slot = none) → result (.error code) k)
    (continues : ∀ addr slot value, found = some (addr, slot) → cast slot = some value →
      (rest (addr, value)).Ensures k result) :
    Ensures (orLeave code (found.bind fun (addr, slot) => (cast slot).map fun value =>
      (addr, value)) >>= rest) k result := by
  refine orLeave_bind (fun absent => leaves fun addr slot present => ?_) ?_
  · rw [present] at absent
    exact map_eq_none_iff.mp absent
  rintro ⟨addr, value⟩ seen
  obtain ⟨⟨place, slot⟩, present, seen⟩ := bind_eq_some_iff.mp seen
  obtain ⟨value, casts, same⟩ := map_eq_some_iff.mp seen
  cases same
  exact continues _ _ _ present casts

end Binds

theorem ensures_pageAt {k : Kernel} {cpu va : Nat} {post : Except Int Nat → Kernel → Prop}
    (holds : ∀ page, k.translate cpu va = some page → post (.ok page) k) :
    (pageAt cpu va).Ensures k post :=
  read_bind (ensures_orFault.mpr holds)

theorem word_bind {Result : Type} {k : Kernel} {page index : Nat} {rest : Pte → KCall Result}
    {result : Except Int Result → Kernel → Prop}
    (continues : (rest (k.memory.words page index)).Ensures k result) :
    Ensures (Kernel.word page index >>= rest) k result :=
  ensures_bind.mpr <| read_bind <| require_bind fun _ => ensures_pure.mpr continues

section Reading

variable {relation : Kernel → Kernel → Prop} [IsPreorder Kernel relation]

theorem keeps_lkup (ct cap : Nat) : Keeps relation (lkup ct cap) :=
  fun k => ensures_lkup (refl_of relation k)

theorem keeps_word (page index : Nat) : Keeps relation (word page index) :=
  .bind (keeps_read _) fun _ => .bind (keeps_require _ _) fun _ => keeps_pure _

theorem keeps_pageAt (cpu va : Nat) : Keeps relation (pageAt cpu va) :=
  .bind (keeps_read _) fun _ => keeps_orFault _ _

theorem keeps_next (n : ErtIntern) : Keeps relation n.next := by
  cases n with
  | root next => exact keeps_pure next
  | word page index => exact keeps_word page index

theorem keeps_tableAt (addr : CapAddr) : Keeps relation (tableAt addr) := by
  refine .bind (keeps_read _) fun slots => ?_
  split
  · exact keeps_pure _
  · exact keeps_pure _
  · exact keeps_fault _

theorem keeps_pgtblQuieCheck (cpu : Nat) (orig : Pte) : Keeps relation (pgtblQuieCheck cpu orig) :=
  .bind (keeps_read _) fun _ => .ite
    (fun _ => .bind (keeps_require _ _) fun _ => .bind (keeps_orLeave _ _) fun _ =>
      keeps_leaveIf _ _)
    fun _ => keeps_pure ()

end Reading

/-! Page tables. -/

theorem memoryOnly_onMemory {change : Memory → Memory} (kobj : ∀ m, (change m).kobj = m.kobj) :
    Keeps MemoryOnly (onMemory change) :=
  keeps_update fun k => ⟨kobj k.memory, rfl⟩

theorem memoryOnly_store (n : ErtIntern) (value : Pte) : Keeps MemoryOnly (n.store value) := by
  cases n with
  | root next => exact keeps_pure ()
  | word page index =>
    show Keeps MemoryOnly (onMemory (·.setWord page index value))
    exact memoryOnly_onMemory fun _ => rfl

/-! A walk leaves nothing but its record behind. -/

theorem sameKernel_recordWalk (n : ErtIntern) : Keeps SameKernel (recordWalk n) := by
  cases n with
  | root next => exact keeps_pure ()
  | word page index => exact keeps_update fun _ => rfl

theorem sameKernel_ertWalk (cpu page levels i : Nat) (n : ErtIntern) (accum : PteFlags) :
    Keeps SameKernel (ertWalk cpu page levels i n accum) := by
  induction levels generalizing i n accum with
  | zero =>
    rw [ertWalk]
    exact keeps_pure _
  | succ levels ih =>
    rw [ertWalk, ertStep]
    refine .bind (keeps_next n) fun value => .ite (fun _ => keeps_pure _) fun _ => ?_
    refine .bind (sameKernel_recordWalk n) fun _ => .bind (keeps_pageAt _ _) fun target => ?_
    exact ih _ _ _

theorem sameKernel_pgtblLkupLvl (cpu pt page startLvl endLvl : Nat) :
    Keeps SameKernel (pgtblLkupLvl cpu pt page startLvl endLvl) := by
  refine .bind (keeps_require _ _) fun _ => .bind (sameKernel_ertWalk _ _ _ _ _ _) fun found => ?_
  match found with
  | none => exact keeps_pure _
  | some (n, accum) =>
    refine .ite (fun _ => .bind ?_ fun _ => keeps_pure _) fun _ => keeps_pure _
    exact .bind (keeps_next _) fun _ => .bind (keeps_pageAt _ _) fun _ => keeps_pure _

theorem memoryOnly_pgtblLkupLvl (cpu pt page startLvl endLvl : Nat) :
    Keeps MemoryOnly (pgtblLkupLvl cpu pt page startLvl endLvl) :=
  fun k => (sameKernel_pgtblLkupLvl _ _ _ _ _ k).mono fun _ _ same => same.memoryOnly

theorem memoryOnly_pgtblLkupPte (cpu pt page : Nat) :
    Keeps MemoryOnly (pgtblLkupPte cpu pt page) :=
  memoryOnly_pgtblLkupLvl _ _ _ _ _

theorem memoryOnly_modRefCnt (cpu page : Nat) (op : Bool) (typeCheck : Option MemType) :
    Keeps MemoryOnly (modRefCnt cpu page op typeCheck) :=
  .ite (fun _ => keeps_pure ()) fun _ => .bind (keeps_read _) fun _ =>
    .bind (keeps_leaveIf _ _) fun _ => .bind (keeps_leaveIf _ _) fun _ =>
    .bind (keeps_leaveIf _ _) fun _ => .bind (keeps_leaveIf _ _) fun _ =>
    memoryOnly_onMemory fun _ => rfl

theorem memoryOnly_pgtblMappingAdd (cpu pt addr page : Nat) (flags : PteFlags) :
    Keeps MemoryOnly (pgtblMappingAdd cpu pt addr page flags) :=
  .bind (keeps_require _ _) fun _ => .bind (memoryOnly_pgtblLkupPte _ _ _) fun _ =>
    .bind (keeps_orLeave _ _) fun (_, _) => .bind (keeps_next _) fun _ =>
    .bind (keeps_leaveIf _ _) fun _ => .bind (keeps_leaveIf _ _) fun _ =>
    .bind (keeps_pgtblQuieCheck _ _) fun _ => .bind (memoryOnly_modRefCnt _ _ _ _) fun _ =>
    memoryOnly_store _ _

theorem memoryOnly_pgtblCpy (cpu t capTo capinTo : Nat) (ctFrom : CapTable) (capinFrom : Nat) :
    Keeps MemoryOnly (pgtblCpy cpu t capTo capinTo ctFrom capinFrom) :=
  .bind (keeps_lkup _ _) fun _ => .bind (keeps_orLeave _ _) fun (_, _) =>
    .bind (keeps_orLeave _ _) fun _ => .bind (keeps_leaveIf _ _) fun _ =>
    .bind (memoryOnly_pgtblLkupPte _ _ _) fun _ => .bind (keeps_orLeave _ _) fun (_, _) =>
    .bind (keeps_next _) fun _ => .bind (keeps_leaveIf _ _) fun _ =>
    memoryOnly_pgtblMappingAdd _ _ _ _ _

theorem memoryOnly_pgtblMoveCas (first second : Bool) (cpu t capTo capinTo : Nat)
    (ctFrom : CapTable) (capinFrom : Nat) :
    Keeps MemoryOnly (pgtblMoveCas first second cpu t capTo capinTo ctFrom capinFrom) :=
  .bind (keeps_lkup _ _) fun _ => .bind (keeps_orLeave _ _) fun (_, _) =>
    .bind (keeps_orLeave _ _) fun _ => .bind (keeps_leaveIf _ _) fun _ =>
    .bind (memoryOnly_pgtblLkupPte _ _ _) fun _ => .bind (keeps_orLeave _ _) fun (_, _) =>
    .bind (keeps_next _) fun _ => .bind (memoryOnly_pgtblLkupPte _ _ _) fun _ =>
    .bind (keeps_orLeave _ _) fun (_, _) => .bind (keeps_next _) fun _ =>
    .bind (keeps_leaveIf _ _) fun _ => .bind (keeps_leaveIf _ _) fun _ =>
    .bind (keeps_pgtblQuieCheck _ _) fun _ => .bind (keeps_leaveIf _ _) fun _ =>
    .bind (memoryOnly_store _ _) fun _ => .bind (keeps_leaveIf _ _) fun _ => memoryOnly_store _ _

/-! Capability tables. -/

theorem sameObjects_slots (k : Kernel) (slots : Slots Node CapBody) :
    SameObjects k { k with slots := slots } :=
  ⟨rfl, rfl, rfl, rfl⟩

theorem clear_ensures {k : Kernel} {ct cap lid : Nat} {type : CapType}
    {post : Except Int Unit → Kernel → Prop}
    (refused : ∀ ret, captblRemovable (k.roots ct) k.slots cap type = .error ret →
      post (.error ret) k)
    (taken : ∀ addr, captblRemovable (k.roots ct) k.slots cap type = .ok addr →
      post (.ok ()) { k with slots := captblRemoveCommit k.slots addr.1 addr.2 lid .free }) :
    (clear ct cap type lid).Ensures k post := by
  refine ensures_bind.mpr (ensures_captblRootBelow ?_)
  simp only [ensures_bind, ensures_read, id_eq, ensures_update, ensures_leaveIf]
  cases removable : captblRemovable (k.roots ct) k.slots cap type with
  | error ret =>
    have kept : captblClear (k.roots ct) k.slots cap type lid = (ret, k.slots) := by
      simp only [captblClear, removable]
    rw [kept]
    exact ⟨fun _ => refused ret removable, fun zero =>
      absurd (captblRemovable_error removable) zero⟩
  | ok addr =>
    have cleared : captblClear (k.roots ct) k.slots cap type lid =
        (0, captblRemoveCommit k.slots addr.1 addr.2 lid .free) := by
      simp only [captblClear, removable]
    rw [cleared]
    exact ⟨fun nonzero => absurd rfl nonzero, fun _ => taken addr removable⟩

theorem sameObjects_clear (ct cap : Nat) (type : CapType) (lid : Nat) :
    Keeps SameObjects (clear ct cap type lid) := fun k =>
  clear_ensures (fun _ _ => refl_of SameObjects k) fun _ _ => sameObjects_slots k _

/-! Calls. -/

theorem tableCall_of_next {k k' : Kernel} {call : TableCall}
    (stepped : kernelNext k (.call call) = some k') :
    ∃ outcome, tableCall call k = .ok (outcome, k') := by
  simp only [kernelNext] at stepped
  split at stepped
  · cases ran : tableCall call k with
    | error found => simp [ran, Except.toOption] at stepped
    | ok reached =>
      simp only [ran, Except.toOption, map_some, some.injEq] at stepped
      obtain ⟨outcome, after⟩ := reached
      exact ⟨outcome, congrArg (fun final => Except.ok (outcome, final)) stepped⟩
  · cases stepped

end Composite
