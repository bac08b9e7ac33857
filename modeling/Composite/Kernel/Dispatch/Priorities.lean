import Composite.Kernel.Dispatch.Scheduling
import Composite.Kernel.Tcap.Delegations

/-!
# The priorities of tcaps

The priority of a tcap is in its own entry of the delegation list; besides it the tcap
has a permanent priority.  A switch can give the current tcap another priority, which
`tcap_current_set` takes back when the core goes on.  A delegation writes the priority it
grants into the entry of the giver as well, and a receive gives the saved tcap its
priority before it is known that the core goes on with it.
-/

namespace Composite

open Function

namespace Tcap

def Settled (t : Tcap) : Prop := t.schedInfo.prio = t.permPrio

instance (t : Tcap) : Decidable t.Settled := inferInstanceAs (Decidable (_ = _))

structure SameOwn (t t' : Tcap) : Prop where
  offset : t'.currSchedOff = t.currSchedOff
  permPrio : t'.permPrio = t.permPrio
  entry : t'.delegations t.currSchedOff = t.delegations t.currSchedOff

variable {t t' t'' : Tcap}

theorem SameOwn.refl (t : Tcap) : t.SameOwn t := ⟨rfl, rfl, rfl⟩

theorem SameOwn.trans (first : t.SameOwn t') (second : t'.SameOwn t'') : t.SameOwn t'' :=
  ⟨second.offset.trans first.offset, second.permPrio.trans first.permPrio, by
    have entry := second.entry
    rw [first.offset] at entry
    exact entry.trans first.entry⟩

theorem SameOwn.schedInfo (same : t.SameOwn t') : t'.schedInfo = t.schedInfo := by
  unfold Tcap.schedInfo
  rw [same.offset, same.entry]

theorem SameOwn.settled (same : t.SameOwn t') (settled : t.Settled) : t'.Settled := by
  unfold Settled
  rw [same.schedInfo, same.permPrio]
  exact settled

theorem sameOwn_write (t : Tcap) (k : Nat) {n : TcapSchedInfo}
    (kept : k = t.currSchedOff → n = t.schedInfo) :
    t.SameOwn { t with delegations := update t.delegations k n } := by
  refine ⟨rfl, rfl, ?_⟩
  by_cases own : k = t.currSchedOff
  · rw [kept own, own]
    exact update_self ..
  · exact update_of_ne (Ne.symm own) ..

theorem schedInfo_setprio (t : Tcap) (prio : Nat) :
    (t.setprio prio).schedInfo = { t.schedInfo with prio := prio } :=
  update_self ..

theorem settled_restored (t : Tcap) : (Core.restored t).Settled := by
  unfold Core.restored Settled
  split_ifs with differs
  · rw [schedInfo_setprio]
    rfl
  · exact (not_not.mp differs).symm

theorem settled_setDelegations (t : Tcap) (tmp : List TcapSchedInfo) (si prio : Nat) :
    (t.setDelegations tmp si prio).Settled := by
  unfold setDelegations Settled
  rw [schedInfo_setprio]
  rfl

end Tcap

def OwnPrio (core : TcapCore) (dst src prio : Nat) : Prop :=
  (prio = 0 ∨ prio = (core.tcaps src).schedInfo.prio) ∧
    (core.tcaps dst).schedInfo.tcapUid ≠ (core.tcaps src).schedInfo.tcapUid

instance (core : TcapCore) (dst src prio : Nat) : Decidable (OwnPrio core dst src prio) :=
  inferInstanceAs (Decidable (_ ∧ _))

section Merge

variable {m : DelegMerge}

theorem TcapSchedInfo.grant_of_ne {n : TcapSchedInfo} {s prio : Nat} (other : n.tcapUid ≠ s) :
    n.grant s prio = n := if_neg other

theorem TcapSchedInfo.grant_self {n : TcapSchedInfo} {s prio : Nat} (same : n.prio = prio) :
    n.grant s prio = n := by
  unfold TcapSchedInfo.grant
  split_ifs
  · rw [← same]
  · rfl

theorem sameOwn_take {s prio : Nat} (ownPrio : m.src.schedInfo.prio = prio)
    (otherId : m.dst.schedInfo.tcapUid ≠ s) :
    m.dst.SameOwn (m.take s prio).2.dst ∧ m.src.SameOwn (m.take s prio).2.src := by
  have source : m.src.SameOwn (m.takeSrc s prio).2.src :=
    m.src.sameOwn_write m.j fun own => by
      rw [own]
      exact TcapSchedInfo.grant_self ownPrio
  have destination : m.dst.SameOwn (m.takeDst s prio).2.dst :=
    m.dst.sameOwn_write m.i fun own => by
      rw [own]
      exact TcapSchedInfo.grant_of_ne otherId
  unfold DelegMerge.take
  simp only
  split_ifs
  · exact ⟨.refl _, source⟩
  · exact ⟨destination, .refl _⟩
  · exact ⟨.refl _, source⟩
  · exact ⟨.refl _, .refl _⟩

theorem sameOwn_loop (d : Nat) {s prio : Nat} (entries : Nat) (m : DelegMerge)
    (ownPrio : m.src.schedInfo.prio = prio) (otherId : m.dst.schedInfo.tcapUid ≠ s) :
    m.dst.SameOwn (DelegMerge.loop d s prio entries m).2.dst ∧
      m.src.SameOwn (DelegMerge.loop d s prio entries m).2.src := by
  refine loop_keeps (P := fun m' => m.dst.SameOwn m'.dst ∧ m.src.SameOwn m'.src)
    (fun m' same => ?_) (fun _ _ same => same) entries ⟨.refl _, .refl _⟩
  have sameOwn : m'.src.schedInfo.prio = prio := by rw [same.2.schedInfo, ownPrio]
  have taken := sameOwn_take sameOwn (by rw [same.1.schedInfo]; exact otherId)
  exact ⟨same.1.trans taken.1, same.2.trans taken.2⟩

/-- The merge has room if the entries that are left fit behind those collected. -/
theorem loop_room (d s prio entries : Nat) (m : DelegMerge)
    (room : m.tmp.length + entries ≤ tcapMaxDelegations) :
    (DelegMerge.loop d s prio entries m).1 = 0 := by
  induction entries generalizing m with
  | zero => rfl
  | succ entries ih =>
    have notFull : (m.take s prio).2.tmp.length ≠ tcapMaxDelegations := by
      rw [(take_kept m s prio).2.2.1]
      omega
    unfold DelegMerge.loop
    split_ifs
    · simp only [if_neg notFull]
      refine ih _ ?_
      rw [List.length_append, (take_kept m s prio).2.2.1]
      simp only [List.length_singleton]
      omega
    · rfl

end Merge

section Delegate

variable {core core' : TcapCore} {dst src cycles prio : Nat} {ret : Int}

/-- The delegation lists of the two tcaps fit into one. -/
def ListsFit (core : TcapCore) (dst src : Nat) : Prop :=
  (core.tcaps dst).ndelegs + (core.tcaps src).ndelegs ≤ tcapMaxDelegations

instance (core : TcapCore) (dst src : Nat) : Decidable (ListsFit core dst src) :=
  inferInstanceAs (Decidable (_ ≤ _))

theorem budgetXfer_whole (moved : tcapBudgetXfer core dst src 0 = .ok (ret, core'))
    (here : (core.tcaps src).cpuid = core.cosInfo.cpuid)
    (together : (core.tcaps dst).cpuid = (core.tcaps src).cpuid) : ret = 0 := by
  unfold tcapBudgetXfer at moved
  simp only [if_true] at moved
  split_ifs at moved with inactive elsewhere infinite finite
  · exact absurd elsewhere (not_or.mpr ⟨not_not.mpr here, not_not.mpr together⟩)
  · exact absurd infinite finite
  all_goals
    cases moved
    rfl

theorem sameOwn_budgetXfer (moved : tcapBudgetXfer core dst src cycles = .ok (ret, core'))
    (t : Nat) : (core.tcaps t).SameOwn (core'.tcaps t) := by
  rw [(budgetsOnly_budgetXfer moved).tcaps t]
  exact ⟨rfl, rfl, rfl⟩

theorem merging_tcaps (core : TcapCore) (m : DelegMerge) (dst src t : Nat) :
    (core.merging dst src m).tcaps t =
      if t = src then m.src else if t = dst then m.dst else core.tcaps t := by
  unfold TcapCore.merging
  rw [modify_tcaps]
  split_ifs with isSrc isDst
  · rfl
  · rw [modify_tcaps, if_pos isDst]
  · rw [modify_tcaps, if_neg isDst]

/-- What a delegation does to the own entries: a destination that has received something
has its new priority, and all other entries stay if the priority is that of the source.
Where all of the budget is given and the lists fit, nothing fails after the first checks. -/
structure PrioritiesAfter (core core' : TcapCore) (dst src cycles prio : Nat) (ret : Int) :
    Prop where
  others : ∀ t, t ≠ dst → t ≠ src → (core.tcaps t).SameOwn (core'.tcaps t)
  granted : ret = 0 → (core'.tcaps dst).Settled
  source : dst ≠ src → OwnPrio core dst src prio → (core.tcaps src).SameOwn (core'.tcaps src)
  failed : ret ≠ 0 → OwnPrio core dst src prio ∨ dst = src →
    (core.tcaps dst).SameOwn (core'.tcaps dst)
  whole : cycles = 0 → ListsFit core dst src → ret ≠ 0 → core' = core

theorem sameOwn_merging {m : DelegMerge}
    (ran : DelegMerge.run (core.tcaps dst) (core.tcaps src) (core.requested src prio) = (ret, m))
    {t : Nat} (spared : t = dst ∨ t = src → OwnPrio core dst src prio) :
    (core.tcaps t).SameOwn ((core.merging dst src m).tcaps t) := by
  have kept (own : OwnPrio core dst src prio) :
      (core.tcaps dst).SameOwn m.dst ∧ (core.tcaps src).SameOwn m.src := by
    have ownPrio : (core.tcaps src).schedInfo.prio = core.requested src prio := by
      unfold TcapCore.requested
      split_ifs with zero
      · rfl
      · exact (own.1.resolve_left zero).symm
    have loop := sameOwn_loop (core.tcaps dst).schedInfo.tcapUid
      ((core.tcaps dst).ndelegs + (core.tcaps src).ndelegs)
      ⟨core.tcaps dst, core.tcaps src, 0, 0, [], none⟩ ownPrio own.2
    unfold DelegMerge.run at ran
    rwa [ran] at loop
  rw [merging_tcaps]
  split_ifs with isSrc isDst
  · rw [isSrc]
    exact (kept (spared (.inr isSrc))).2
  · rw [isDst]
    exact (kept (spared (.inl isDst))).1
  · exact .refl _

/-- A merge of lists that fit into one does not fail. -/
theorem merges_of_fit {m : DelegMerge} (fit : ListsFit core dst src)
    (ran : DelegMerge.run (core.tcaps dst) (core.tcaps src) prio = (ret, m)) : ret = 0 := by
  have room := loop_room (core.tcaps dst).schedInfo.tcapUid (core.tcaps src).schedInfo.tcapUid
    prio _ ⟨core.tcaps dst, core.tcaps src, 0, 0, [], none⟩ ((Nat.zero_add _).trans_le fit)
  unfold DelegMerge.run at ran
  rwa [ran] at room

/-- After the merge, a transfer of all budget does not fail. -/
theorem transfers_whole {m : DelegMerge} {merged : Int} (different : dst ≠ src)
    (here : (core.tcaps src).cpuid = core.cosInfo.cpuid)
    (together : (core.tcaps dst).cpuid = (core.tcaps src).cpuid)
    (ran : DelegMerge.run (core.tcaps dst) (core.tcaps src) prio = (merged, m))
    (transfer : tcapBudgetXfer (core.merging dst src m) dst src 0 = .ok (ret, core')) :
    ret = 0 := by
  have left := merged_run ran
  refine budgetXfer_whole transfer ?_ ?_
  · rw [merging_tcaps, if_pos rfl, left.srcKept.frame]
    exact here
  · rw [merging_tcaps, merging_tcaps, if_pos rfl, if_neg different, if_pos rfl, left.srcKept.frame,
      left.dstKept.frame]
    exact together

theorem priorities_delegate (outcome : DelegateOutcome core dst src cycles prio ret core') :
    PrioritiesAfter core core' dst src cycles prio ret := by
  cases outcome with
  | refused failed =>
    exact ⟨fun _ _ _ => .refl _, fun zero => absurd zero failed, fun _ _ => .refl _,
      fun _ _ => .refl _, fun _ _ _ => rfl⟩
  | own same =>
    refine ⟨fun t notDst _ => ?_, fun _ => ?_, fun different => absurd same different,
      fun failed => absurd rfl failed, fun _ _ failed => absurd rfl failed⟩
    · rw [modify_tcaps, if_neg notDst]
      exact .refl _
    · rw [modify_tcaps, if_pos rfl]
      exact congrArg TcapSchedInfo.prio ((core.tcaps dst).schedInfo_setprio prio)
  | noRoom different failed ran =>
    exact ⟨fun _ notDst notSrc => sameOwn_merging ran fun either => absurd either (by simp [*]),
      fun zero => absurd zero failed, fun _ own => sameOwn_merging ran fun _ => own,
      fun _ either => sameOwn_merging ran fun _ => either.resolve_right different,
      fun _ fit _ => absurd (merges_of_fit fit ran) failed⟩
  | noBudget different here together ran transfer failed returned =>
    have moved := sameOwn_budgetXfer transfer
    refine ⟨fun _ notDst notSrc => (sameOwn_merging ran ?_).trans (moved _),
      fun zero => absurd zero returned,
      fun _ own => (sameOwn_merging ran fun _ => own).trans (moved src),
      fun _ either => (sameOwn_merging ran fun _ => either.resolve_right different).trans
        (moved dst), fun all _ _ => ?_⟩
    · exact fun either => absurd either (by simp [*])
    · subst all
      exact absurd (transfers_whole different here together ran transfer) failed
  | delegated different ran transfer located =>
    have moved := sameOwn_budgetXfer transfer
    refine ⟨fun t notDst notSrc => ?_, fun _ => ?_, fun _ own => ?_,
      fun failed => absurd rfl failed, fun _ _ failed => absurd rfl failed⟩
    · rw [modify_tcaps, if_neg notDst]
      exact (sameOwn_merging ran fun either => absurd either (by simp [*])).trans (moved t)
    · rw [modify_tcaps, if_pos rfl]
      exact Tcap.settled_setDelegations ..
    · rw [modify_tcaps, if_neg (Ne.symm different)]
      exact (sameOwn_merging ran fun _ => own).trans (moved src)

/-- A merge that is not refused at once is of two tcaps whose lists fit into one, or is made
at the priority of the tcap to remove. -/
def SparesMerge (core : TcapCore) (dst rm : Nat) : Prop :=
  dst ≠ rm → (core.tcaps rm).refcnt ≤ 1 →
    ListsFit core dst rm ∨ OwnPrio core dst rm (core.tcaps dst).schedInfo.prio

theorem settled_merge {rm : Nat} (merged : tcapMerge core dst rm = .ok (ret, core'))
    (spared : SparesMerge core dst rm) {t : Nat} (settled : (core.tcaps t).Settled) :
    (core'.tcaps t).Settled := by
  rcases tcapMerge_cases merged with ⟨-, rfl⟩ |
    ⟨different, single, delegated, core₁, outcome, ⟨-, failed, rfl⟩ | ⟨-, rfl, rfl, deleted⟩⟩
  · exact settled
  · have after := priorities_delegate outcome
    rcases spared different single with fit | own
    · rw [after.whole rfl fit failed]
      exact settled
    by_cases isDst : t = dst
    · rw [isDst] at settled ⊢
      exact (after.failed failed (.inl own)).settled settled
    by_cases isRm : t = rm
    · rw [isRm] at settled ⊢
      exact (after.source different own).settled settled
    · exact (after.others t isDst isRm).settled settled
  · have after := priorities_delegate outcome
    rw [tcapDelete_tcaps deleted]
    split_ifs with isRm
    · rfl
    · by_cases isDst : t = dst
      · rw [isDst]
        exact after.granted rfl
      · exact (after.others t isDst isRm).settled settled

end Delegate

namespace Core

def PrioritiesSettled (s : Core) : Prop :=
  ∀ tc, tc ≠ s.cosInfo.currTcap → (s.tcaps tc).Settled

/-- A delegation to another tcap grants the priority that the giver has, and so does a merge
unless the delegation lists of the two tcaps fit into one.  A receive that goes on with a
saved tcap finds it with budget, or it is the current one, or it gets its permanent
priority, or the current one is not used up. -/
def SparesPriorities (thresh : Nat) (s : Core) (event : CoreEvent) : Prop :=
  (∀ d, s.delegation event = some d → d.dst ≠ d.src → OwnPrio s.tcapCore d.dst d.src d.prio) ∧
  (∀ dst rm, s.merging event = some (dst, rm) → SparesMerge s.tcapCore dst rm) ∧
  ∀ tc prio, s.resumes event = some (tc, prio) →
    tc = s.cosInfo.currTcap ∨ (s.tcaps tc).budget ≠ 0 ∨ prio = (s.tcaps tc).permPrio ∨
      ¬s.Depleted thresh

variable {s s' s₁ : Core} {thresh : Nat} {event : CoreEvent}

theorem SameScheduling.settled (same : s.SameScheduling s') (settled : s.PrioritiesSettled) :
    s'.PrioritiesSettled := by
  intro tc other
  rw [same.currTcap] at other
  rw [same.tcaps]
  exact settled tc other

theorem Readied.settled (readied : Readied s event s₁) (spares : s.SparesPriorities thresh event)
    (settled : s.PrioritiesSettled) : s₁.PrioritiesSettled := by
  cases readied with
  | same same => exact same.settled settled
  | token used validated same => exact same.settled settled
  | @delegate d ret core named ran same =>
    have after := priorities_delegate (tcapDelegate_outcome ran)
    have current := (tcapsOnly_delegate (tcapDelegate_outcome ran)).currTcap
    have own := spares.1 d named
    refine same.settled fun tc other => ?_
    have other : tc ≠ s.cosInfo.currTcap := current ▸ other
    by_cases isDst : tc = d.dst
    · by_cases granted : ret = 0
      · rw [isDst]
        exact after.granted granted
      · have kept := after.failed granted
          (if equal : d.dst = d.src then .inr equal else .inl (own equal))
        rw [isDst] at other ⊢
        exact kept.settled (settled d.dst other)
    by_cases isSrc : tc = d.src
    · have different : d.dst ≠ d.src := fun equal => isDst (isSrc.trans equal.symm)
      rw [isSrc] at other ⊢
      exact (after.source different (own different)).settled (settled d.src other)
    · exact (after.others tc isDst isSrc).settled (settled tc other)
  | @merge dst rm ret core named ran same =>
    have spared := spares.2.1 dst rm named
    have current := (tcapsOnly_merge ran).currTcap
    refine same.settled fun tc other => ?_
    have other : tc ≠ s.cosInfo.currTcap := current ▸ other
    exact settled_merge ran spared (settled tc other)

/-- `cap_update` leaves a tcap at its permanent priority, and brings the one that was
current back to it. -/
theorem Updated.settled {tc t : Nat} (updated : Updated thresh s tc s')
    (settled : t = s.cosInfo.currTcap ∨ (s.tcaps t).Settled) : (s'.tcaps t).Settled := by
  rw [updated.tcaps]
  split_ifs with current
  · exact Tcap.settled_restored _
  · rw [charged_of_ne thresh current]
    exact settled.resolve_left current

theorem PrioritiesSettled.updated {tc : Nat} (settled : s.PrioritiesSettled)
    (updated : Updated thresh s tc s') (t : Nat) : (s'.tcaps t).Settled :=
  updated.settled
    (if current : t = s.cosInfo.currTcap then .inl current else .inr (settled t current))

/-- Every entry that spares the priorities keeps them settled. -/
theorem PrioritiesSettled.next (settled : s.PrioritiesSettled)
    (spares : s.SparesPriorities thresh event) (stepped : s.next thresh event = some s') :
    s'.PrioritiesSettled := by
  cases scheduled_of_next stepped with
  | back readied _ => exact readied.settled spares settled
  | update readied aim updated =>
    obtain ⟨choice, -, updated⟩ := capUpdate_updated updated
    exact fun t _ => (readied.settled spares settled).updated updated t
  | @carry s₁ s₂ thd next tc timeout prio ci regs readied active updated current carried =>
    obtain ⟨choice, -, updated⟩ := capUpdate_updated updated
    intro t other
    have other : t ≠ s₂.cosInfo.currTcap := by
      rw [carried] at other
      exact other
    rw [carried]
    have unchanged : (s₂.withTcaps (s₂.tcapCore.modify tc (·.setprio prio))).tcaps t = s₂.tcaps t :=
      update_of_ne (current ▸ other) ..
    rw [unchanged]
    exact (readied.settled spares settled).updated updated t
  | @resume s₁ thd next tc timeout prio ci regs resumed same updated =>
    obtain ⟨choice, chosen, settles⟩ := capUpdate_updated updated
    have currTcap : s₁.cosInfo.currTcap = s.cosInfo.currTcap := same.currTcap
    intro t other
    refine settles.settled ?_
    rw [currTcap]
    by_cases current : t = s.cosInfo.currTcap
    · exact .inl current
    refine .inr ?_
    rw [same.tcaps]
    by_cases saved : t = tc
    · subst saved
      have tcap : (s.withTcaps (s.tcapCore.modify t (·.setprio prio))).tcaps t =
          (s.tcaps t).setprio prio := update_self ..
      rw [tcap]
      -- only a saved tcap that the core does not go on with can be left unsettled
      have missed : choice.tc ≠ t := fun same => other (same.symm.trans settles.currTcap.symm)
      rcases spares.2.2 t prio resumed with isCurrent | funded | permanent | left
      · exact absurd isCurrent current
      · have budget : ((s₁.charged thresh).tcaps t).budget ≠ 0 := by
          rw [charged_of_ne thresh (currTcap ▸ current), same.tcaps, tcap]
          exact funded
        rcases choose_tcap chosen with ⟨asked, -⟩ | ⟨-, -, goes⟩
        · exact absurd asked missed
        · exact absurd (goes rfl budget) missed
      · rw [permanent]
        exact congrArg TcapSchedInfo.prio ((s.tcaps t).schedInfo_setprio _)
      · have unchanged : s₁.tcaps s.cosInfo.currTcap = s.tcaps s.cosInfo.currTcap := by
          rw [same.tcaps]
          exact update_of_ne (Ne.symm current) ..
        have cycles : s₁.cosInfo.cycles = s.cosInfo.cycles := same.cycles
        have tsc : s₁.tsc = s.tsc := same.tsc
        have left : ¬s₁.Depleted thresh := by
          simpa only [Depleted, expended, currTcap, unchanged, cycles, tsc] using left
        have budget := budgetsUpdate_left left thd
        rcases choose_tcap chosen with ⟨asked, -⟩ | ⟨expended, -⟩
        · exact absurd asked missed
        · exact absurd expended budget
    · have unchanged : (s.withTcaps (s.tcapCore.modify tc (·.setprio prio))).tcaps t = s.tcaps t :=
        update_of_ne saved ..
      rw [unchanged]
      exact settled t current
  | wait cycles waited =>
    rw [waited]
    exact settled

end Core

/-- In every run whose delegations, merges and receives spare the priorities, every tcap but
the current one has its permanent priority, and giving budget away at the priority that the
giver has does not change it. -/
theorem tcap_priorities {thresh : Nat} {start s : Core} {events : List CoreEvent}
    (settled : start.PrioritiesSettled)
    (spares : Transition.Meets (Core.SparesPriorities thresh) (Core.next thresh) start events)
    (reached : Transition.exec (Core.next thresh) start events = some s) :
    (∀ tc, tc ≠ s.cosInfo.currTcap → (s.tcaps tc).schedInfo.prio = (s.tcaps tc).permPrio) ∧
      ∀ (d : Core.Delegation) ret core, d.dst ≠ d.src → OwnPrio s.tcapCore d.dst d.src d.prio →
        d.run s.tcapCore = .ok (ret, core) →
        (core.tcaps d.src).schedInfo.prio = (s.tcaps d.src).schedInfo.prio := by
  have kept : ∀ (s : Core) event s', s.PrioritiesSettled → s.SparesPriorities thresh event →
      s.next thresh event = some s' → s'.PrioritiesSettled :=
    fun _ _ _ settled spares stepped => settled.next spares stepped
  refine ⟨Transition.exec_invariant kept settled spares reached, fun d ret core different own ran =>
    ?_⟩
  exact congrArg TcapSchedInfo.prio
    ((priorities_delegate (tcapDelegate_outcome ran)).source different own).schedInfo

theorem threeTcaps_settled : threeTcaps.PrioritiesSettled := by
  intro tc _
  match tc with
  | 0 => decide
  | 1 => decide
  | 2 => decide
  | _ + 3 => rfl

/-- Tcap 1 gives budget to tcap 2 and keeps its priority. -/
theorem tcap_priorities_transfer :
    ∃ s ∈ Transition.exec (Core.next 0) threeTcaps
        [.tcap endpointCaps ⟨1, 0⟩ (.transfer 4 10 0) .zero],
      (s.tcaps 2).budget = 10 ∧ (s.tcaps 1).schedInfo.prio = (s.tcaps 1).permPrio := by
  have run : ((Transition.exec (Core.next 0) threeTcaps
      [.tcap endpointCaps ⟨1, 0⟩ (.transfer 4 10 0) .zero]).map fun s =>
        ((s.tcaps 2).budget, s.cosInfo.currTcap)) = some (10, 0) := by decide +kernel
  obtain ⟨s, reached, facts⟩ := Option.map_eq_some_iff.mp run
  obtain ⟨budget, current⟩ := Prod.mk.inj facts
  have spares : Core.SparesPriorities 0 threeTcaps
      (.tcap endpointCaps ⟨1, 0⟩ (.transfer 4 10 0) .zero) := by
    refine ⟨fun d named _ => ?_, fun _ _ named => ?_, fun _ _ resumed => ?_⟩
    · obtain rfl := Option.some_inj.mp
        ((by rfl : _ = some (Core.Delegation.mk 2 1 10 0)).symm.trans named)
      decide
    · cases named
    · cases resumed
  have spared : Transition.Meets (Core.SparesPriorities 0) (Core.next 0) threeTcaps
      [.tcap endpointCaps ⟨1, 0⟩ (.transfer 4 10 0) .zero] := ⟨spares, fun _ _ => trivial⟩
  have settled := tcap_priorities threeTcaps_settled spared reached
  exact ⟨s, reached, budget, settled.1 1 (by rw [current]; decide)⟩

/-- Tcap 1 is not the current one and gives budget to tcap 2 at the priority 5, which is then
its own priority as well. -/
theorem tcap_priorities_giver :
    ∃ s ∈ Transition.exec (Core.next 0) threeTcaps
        [.tcap endpointCaps ⟨1, 0⟩ (.transfer 4 10 5) .zero],
      s.cosInfo.currTcap = 0 ∧ (s.tcaps 1).schedInfo.prio = 5 ∧ (s.tcaps 1).permPrio = 3 := by
  have run : ((Transition.exec (Core.next 0) threeTcaps
      [.tcap endpointCaps ⟨1, 0⟩ (.transfer 4 10 5) .zero]).map fun s =>
        (s.cosInfo.currTcap, (s.tcaps 1).schedInfo.prio, (s.tcaps 1).permPrio)) =
      some (0, 5, 3) := by decide +kernel
  obtain ⟨s, reached, facts⟩ := Option.map_eq_some_iff.mp run
  simp only [Prod.mk.injEq] at facts
  exact ⟨s, reached, facts⟩

end Composite
