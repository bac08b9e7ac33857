import Composite.Kernel.Endpoints.Counts

/-!
# The release of a thread

The deactivation of the last capability to a thread gives its page back.  It looks
whether the thread is an end-point, and clears the saved next thread of the core it
runs on.  Whatever else refers to the thread refers to a page that is free.
-/

namespace Composite

open Procedure Kernel Function

/-- A thread descriptor refers to another thread: as its scheduler, as its parent, or
through an event list. -/
def Thread.RefersTo (t : Thread) (thd : Nat) : Prop :=
  t.schedulerThread = some thd ∨ t.rcvcap.rcvcapThdNotif = some thd ∨ thd ∈ t.eventHead ∨
    t.eventList = some thd

instance (t : Thread) (thd : Nat) : Decidable (t.RefersTo thd) :=
  inferInstanceAs (Decidable (_ ∨ _))

/-- Something in the kernel refers to a thread.  Of the saved next threads those of
`cores` count, and of the thread descriptors those of `threads`. -/
inductive Kernel.RefersFrom (k : Kernel) (cores threads : Set Nat) (thd : Nat) : Prop
  | current {cpu : Nat} (core : cpu < numCpu) (refers : (k.cosInfo cpu).currThd = thd)
  | next {cpu : Nat} (core : cpu < numCpu) (counts : cpu ∈ cores)
      (refers : (k.cosInfo cpu).nextTi.thd = some thd)
  | thread {t : Nat} (isThd : k.memory.kobj t = .thd) (counts : t ∈ threads)
      (refers : (k.threads t).RefersTo thd)
  | tcap {tcap : Nat} (isTcap : k.memory.kobj tcap = .tcap)
      (refers : (k.tcaps tcap).arcvEp = some thd)
  | arcv {addr : CapAddr} {arcvc : CapArcv} (isNode : k.memory.holdsNode addr.1 = true)
      (isActive : active (k.slots addr.1) addr.2 = true)
      (held : (k.slots addr.1 addr.2).arcv? = some arcvc) (refers : arcvc.thd = thd)

abbrev Kernel.Refers (k : Kernel) (thd : Nat) : Prop := k.RefersFrom Set.univ Set.univ thd

structure Freed (k k' : Kernel) (cpu thd : Nat) : Prop where
  threads : k'.threads = k.threads.modify thd fun t => { t with refcnt := t.refcnt - 1 }
  tcaps : k'.tcaps = k.tcaps
  cosInfo : k'.cosInfo = Function.update k.cosInfo cpu
    (if (k.cosInfo cpu).nextTi.thd = some thd then { k.cosInfo cpu with nextTi := .clear }
    else k.cosInfo cpu)
  kobj : ∃ frame, k'.memory.kobj = Function.update k.memory.kobj frame .none
  slots : ∃ root capin node p lid, captblRemovable root k.slots capin .thd = .ok (node, p) ∧
    k'.slots = captblRemoveCommit k.slots node p lid .free

/-! The checks before the page is given back. -/

theorem thd?_eq_some {slot : Slot CapBody} {tc : CapThd} (cast : slot.thd? = some tc) :
    slot.post = .thd tc := by
  unfold Slot.thd? at cast
  split at cast
  · cases post : slot.post <;> simp_all [CapBody.thd?]
  · cases cast

theorem kmemDeactPre_ensures {k : Kernel} {addr : CapAddr} {tc : CapThd}
    (held : (k.slots addr.1 addr.2).post = .thd tc) (cpu ct pgtblCap cosframeAddr : Nat) :
    (kmemDeactPre cpu addr ct pgtblCap cosframeAddr).Ensures k fun _ k' => MemoryOnly k k' := by
  have same := refl_of MemoryOnly k
  refine leaveIf_bind (fun _ => same) fun _ => ?_
  refine lkup_bind ?_
  refine orLeave_bind (fun _ => same) fun capPt _ => ?_
  refine (memoryOnly_pgtblLkupPte _ _ _ k).bind ?_
  rintro (code | found) walked kept
  · exact kept
  refine ensures_bind.mpr (ensures_orFault.mpr fun reached _ => ?_)
  refine ((keeps_next _ : Keeps MemoryOnly _) walked).bind ?_
  rintro (code | old) k₁ read
  · exact trans_of MemoryOnly kept read
  have unchanged := trans_of MemoryOnly kept read
  refine leaveIf_bind (fun _ => unchanged) fun _ => ?_
  refine require_bind fun _ => ?_
  refine ensures_bind.mpr (read_bind ?_)
  simp only [id_eq, unchanged.slots, held]
  exact ensures_leaveIf.mpr ⟨fun _ => unchanged, fun _ => ensures_pure.mpr unchanged⟩

theorem kmemDeactPost_ensures (k : Kernel) (cpu : Nat) (pte : ErtIntern) (old : Pte) :
    (kmemDeactPost cpu pte old).Ensures k fun _ k' =>
      MemoryOnly k k' ∨ ∃ m w, m.kobj = update k.memory.kobj old.frame .none ∧
        k' = { k with memory := m, walks := w } := by
  refine (memoryOnly_store pte _ k).bind ?_
  rintro (code | ⟨⟩) k₁ stored
  · exact .inl stored
  refine ensures_bind.mpr ((memoryOnly_modRefCnt _ _ _ _).code k₁ |>.mono ?_)
  rintro (code | ret) k₂ counted
  · exact .inl (trans_of MemoryOnly stored counted)
  have unchanged := trans_of MemoryOnly stored counted
  refine ensures_ite.mpr ⟨fun _ => ?_, fun _ => ensures_update.mpr (.inr ?_)⟩
  · refine (Keeps.bind (memoryOnly_store pte old) (fun _ => keeps_leave ret) k₂).mono ?_
    exact fun _ _ restored => .inl (trans_of MemoryOnly unchanged restored)
  · obtain ⟨m, w, kobj, rfl⟩ := unchanged.exists_eq
    refine ⟨(m.setPage old.frame fun _ => .zero).setKobj old.frame .none, w, ?_, rfl⟩
    rw [← kobj]
    rfl

theorem thdDeactivate_ensures (k : Kernel) (cpu ct : Nat) (destCt : CapTable)
    (capin lid pgtblCap cosframeAddr : Nat) (root : Bool) :
    (thdDeactivate cpu ct destCt capin lid pgtblCap cosframeAddr root).Ensures k fun _ k' =>
      k'.memory.kobj = k.memory.kobj ∨ ∃ addr slot tc,
        k.found destCt.table capin = some (addr, slot) ∧ slot.thd? = some tc ∧
          Freed k k' cpu tc.t := by
  refine lkup_bind (cast_bind (fun _ => .inl rfl) fun addr slot tc found isThd => ?_)
  obtain rfl := found_names found
  refine read_bind ?_
  refine require_bind fun _ => ?_
  refine ensures_ite.mpr ⟨fun _ => ?_, fun _ => ?_⟩
  · refine leaveIf_bind (fun _ => .inl rfl) fun _ => ?_
    refine leaveIf_bind (fun _ => .inl rfl) fun _ => ?_
    refine (kmemDeactPre_ensures (thd?_eq_some isThd) _ _ _ _).bind ?_
    rintro (code | ⟨pte, old⟩) k₁ checked
    · exact .inl checked.kobj
    obtain ⟨m, w, kobj, rfl⟩ := checked.exists_eq
    refine ensures_bind.mpr (clear_ensures (fun _ _ => .inl kobj) fun removed removable => ?_)
    refine update_bind (update_bind ?_)
    refine (kmemDeactPost_ensures _ cpu pte old).mono fun _ k' posted => ?_
    rcases posted with kept | ⟨m', w', frame, rfl⟩
    · exact .inl (kept.kobj.trans kobj)
    · refine .inr ⟨_, _, tc, found, isThd, rfl, rfl, rfl, ⟨old.frame, ?_⟩, ?_⟩
      · exact frame.trans (by rw [← kobj])
      · exact ⟨_, _, _, _, lid, removable, rfl⟩
  · refine leaveIf_bind (fun _ => .inl rfl) fun _ => ?_
    have kept : Keeps (fun before after => after.memory.kobj = before.memory.kobj)
        (clear destCt.table capin .thd lid) := fun before =>
      (sameObjects_clear _ _ _ _ before).mono fun _ _ same => same.kobj
    refine (kept k).bind ?_
    rintro (code | ⟨⟩) k₁ same
    · exact .inl same
    · exact ensures_update.mpr (.inl same)

/-! What still refers to the thread. -/

section Refers

variable {k k' : Kernel} {cpu thd : Nat}

namespace Freed

section

variable (freed : Freed k k' cpu thd)

include freed

theorem kobj_eq (isThd : k.memory.kobj thd = .thd) (gone : k'.memory.kobj thd ≠ .thd) (page : Nat) :
    k'.memory.kobj page = if page = thd then .none else k.memory.kobj page := by
  obtain ⟨frame, kobj⟩ := freed.kobj
  have same : frame = thd := by
    by_contra different
    rw [kobj, update_of_ne (Ne.symm different)] at gone
    exact gone isThd
  rw [kobj, same, update_apply]

theorem currThd_eq (core : Nat) : (k'.cosInfo core).currThd = (k.cosInfo core).currThd := by
  rw [freed.cosInfo, update_apply]
  split_ifs with own
  · rw [own]
  · rw [own]
  · rfl

theorem nextTi_iff (core : Nat) :
    (k'.cosInfo core).nextTi.thd = some thd ↔
      core ≠ cpu ∧ (k.cosInfo core).nextTi.thd = some thd := by
  rw [freed.cosInfo, update_apply]
  by_cases own : core = cpu
  · simp only [own, if_true, ne_eq, not_true_eq_false, false_and, iff_false]
    split
    · exact nofun
    · assumption
  · simp [own]

theorem arcv_iff (addr : CapAddr) (arcvc : CapArcv) :
    (active (k'.slots addr.1) addr.2 = true ∧ (k'.slots addr.1 addr.2).arcv? = some arcvc) ↔
      active (k.slots addr.1) addr.2 = true ∧ (k.slots addr.1 addr.2).arcv? = some arcvc := by
  obtain ⟨root, capin, node, p, lid, removable, slots⟩ := freed.slots
  obtain ⟨n, s⟩ := addr
  have removed := (captblRemovable_ok removable).2.2.2.1
  have isActive : active (captblRemoveCommit k.slots node p lid .free n) s = _ := active_removed n s
  rw [slots, arcv?_eq_some, arcv?_eq_some, isActive]
  by_cases here : n = node ∧ s = p
  · obtain ⟨rfl, rfl⟩ := here
    simp [removed]
  · have other := decide_eq_true here
    rw [other, Bool.and_true]
    refine and_congr_right fun allocated => ?_
    rw [(removed_kept here allocated).1, (removed_kept here allocated).2]

theorem refers_iff (isThd : k.memory.kobj thd = .thd) (gone : k'.memory.kobj thd ≠ .thd) :
    k'.Refers thd ↔ k.RefersFrom {cpu}ᶜ {thd}ᶜ thd := by
  have kobj := freed.kobj_eq isThd gone
  have holdsNode : ∀ node, k'.memory.holdsNode node = k.memory.holdsNode node := by
    intro node
    unfold Memory.holdsNode
    rw [kobj]
    by_cases own : node.1 = thd
    · simp [own, isThd]
    · simp [own]
  have others : ∀ t, t ≠ thd → k'.threads t = k.threads t := fun t different => by
    rw [freed.threads]
    exact update_of_ne different _ _
  constructor
  · intro refers
    cases refers with
    | current core refers => exact .current core (freed.currThd_eq _ ▸ refers)
    | next core _ refers =>
      obtain ⟨other, refers⟩ := (freed.nextTi_iff _).mp refers
      exact .next core other refers
    | @thread t isThread _ refers =>
      have different : t ≠ thd := fun same => gone (same ▸ isThread)
      rw [kobj, if_neg different] at isThread
      exact .thread isThread different (others t different ▸ refers)
    | @tcap tcap isTcap refers =>
      have different : tcap ≠ thd := fun same => by
        simp [kobj, same] at isTcap
      rw [kobj, if_neg different] at isTcap
      exact .tcap isTcap (freed.tcaps ▸ refers)
    | @arcv addr arcvc isNode isActive held refers =>
      obtain ⟨isActive, held⟩ := (freed.arcv_iff addr arcvc).mp ⟨isActive, held⟩
      exact .arcv (holdsNode addr.1 ▸ isNode) isActive held refers
  · intro refers
    cases refers with
    | current core refers => exact .current core ((freed.currThd_eq _).trans refers)
    | next core other refers =>
      exact .next core trivial ((freed.nextTi_iff _).mpr ⟨other, refers⟩)
    | @thread t isThread counts refers =>
      have different : t ≠ thd := counts
      refine .thread ?_ trivial ((others t different).symm ▸ refers)
      rw [kobj, if_neg different]
      exact isThread
    | @tcap tcap isTcap refers =>
      have different : tcap ≠ thd := fun same => by
        simp [same, isThd] at isTcap
      refine .tcap ?_ (by rw [freed.tcaps]; exact refers)
      rw [kobj, if_neg different]
      exact isTcap
    | @arcv addr arcvc isNode isActive held refers =>
      obtain ⟨isActive, held⟩ := (freed.arcv_iff addr arcvc).mpr ⟨isActive, held⟩
      exact .arcv ((holdsNode addr.1).trans isNode) isActive held refers

end

end Freed

end Refers

def Kernel.namedThd (k : Kernel) (call : TableCall) : Option Nat := do
  let (_, _, slot) ← k.operand call
  let tc ← slot.thd?
  some tc.t

theorem tableCall_thdDeactivate (k : Kernel) (call : TableCall)
    (deactivates : call.args.op = .thdDeactivate ∨ call.args.op = .thdDeactivateRoot) :
    (tableCall call).Ensures k fun _ k' =>
      k'.memory.kobj = k.memory.kobj ∨
        ∃ thd, k.namedThd call = some thd ∧ Freed k k' call.cpu thd := by
  obtain ⟨cpu, ct, cap, ⟨op, a1, a2, a3, a4⟩, stale⟩ := call
  refine lkup_bind ?_
  refine orLeave_bind (fun _ => .inl rfl) ?_
  rintro ⟨place, ch⟩ found
  refine read_bind ?_
  dsimp only at found deactivates ⊢
  split
  · rename_i opCap cast
    have freed : ∀ k', (∃ addr slot tc, k.found opCap.table a1 = some (addr, slot) ∧
        slot.thd? = some tc ∧ Freed k k' cpu tc.t) →
        ∃ thd, k.namedThd ⟨cpu, ct, cap, ⟨op, a1, a2, a3, a4⟩, stale⟩ = some thd ∧
          Freed k k' cpu thd := by
      rintro k' ⟨addr, slot, tc, lookup, isThd, freed⟩
      exact ⟨tc.t, by simp [Kernel.namedThd, Kernel.operand, found, cast, lookup, isThd], freed⟩
    rcases deactivates with rfl | rfl
    · refine ensures_code.mpr ((thdDeactivate_ensures k _ _ _ _ _ _ _ _).mono ?_)
      exact fun _ k' => Or.imp_right (freed k')
    · refine ensures_code.mpr ((thdDeactivate_ensures k _ _ _ _ _ _ _ _).mono ?_)
      exact fun _ k' => Or.imp_right (freed k')
  · rcases deactivates with rfl | rfl <;> exact ensures_leave.mpr (.inl rfl)
  · exact ensures_leave.mpr (.inl rfl)

def threadWords (page i : Nat) : Pte :=
  if page = 20 ∧ i = 0 then ⟨21, .internDef⟩
  else if page = 21 ∧ i = 1 then (Pte.ofFrame 2).setCoskmem true
  else if page = 21 ∧ i = 2 then (Pte.ofFrame 3).setCoskmem true
  else .zero

def threadKernel : Kernel :=
  { rootKernel with
    memory :=
      { rootKernel.memory with
        words := threadWords
        kobj := fun page => if page = 20 then .pgd else if page = 21 then .pte else rootKobj page
        entries := fun _ _ => ⟨⟨.kern, 1⟩, 0⟩ }
    slots := fun node i =>
      if node = (10, true) ∧ i = 36 then
        ⟨⟨0, 1, captblCap2sz .pgtbl, 0, .pgtbl⟩, .pgtbl ⟨1, 20, 0, none, 0⟩⟩
      else rootKernel.slots node i
    threads := fun t => { rootThreads t with schedulerThread := some 2 }
    cosInfo := fun cpu => { rootKernel.cosInfo cpu with currThd := if cpu = 0 then 2 else 1 } }

def freeCall (thdCap cosframeAddr : Nat) : TableCall :=
  ⟨0, 10, 4, ⟨.thdDeactivateRoot, thdCap, 0, 36, cosframeAddr⟩, ⟨0, 0⟩⟩

theorem threadKernel_unreferred : ¬threadKernel.RefersFrom {0}ᶜ {3}ᶜ 3 := by
  intro refers
  cases refers with
  | @current cpu core refers =>
    simp only [threadKernel] at refers
    split at refers <;> cases refers
  | next core counts refers => cases refers
  | @thread t isThd counts refers =>
    by_cases root : t = 1 <;>
      simp [threadKernel, Thread.RefersTo, rootThreads, Thread.zero, root] at refers
  | @tcap tcap isTcap refers =>
    by_cases first : tcap = 4 <;>
      simp [threadKernel, rootKernel, rootTcaps, Tcap.bind, Tcap.init, first] at refers
  | @arcv addr arcvc isNode isActive held refers =>
    simp only [threadKernel] at held
    split at held
    · cases held
    · rw [rootKernel_arcv ⟨addr, held⟩] at refers
      cases refers

end Composite
