import Composite.Kernel.Dispatch.Scheduling
import Composite.Kernel.Tcap.Budgets

/-!
# The budget that user code resumes on

`cap_update` charges the current tcap and, when it is used up, looks for one with budget.
When it is not used up, the core goes on with the tcap that the call asks for, and not
every call has checked that this one has budget.
-/

namespace Composite

open Checked Option

namespace Core

structure Funded (s : Core) : Prop where
  listed : BudgetsListed s.tcapCore
  current : (s.tcaps s.cosInfo.currTcap).budget ≠ 0

/-- A send with yield and a receive that blocks go on with a tcap that has budget, or is the
current one, or the current one is used up.  A merge fails or removes a tcap with a finite
budget that is not the current one. -/
def ResumesFunded (thresh : Nat) (s : Core) (event : CoreEvent) : Prop :=
  (∀ tc, s.yieldsTo event = some tc → tc = s.cosInfo.currTcap ∨ (s.tcaps tc).budget ≠ 0 ∨
    ((s.charged thresh).tcaps s.cosInfo.currTcap).budget = 0) ∧
  ∀ dst rm, s.merging event = some (dst, rm) →
    (∀ ret core, tcapMerge s.tcapCore dst rm = .ok (ret, core) → ret ≠ 0) ∨
      rm ≠ s.cosInfo.currTcap ∧ (s.tcaps rm).budget ≠ tcapResInf

variable {s s' s₁ : Core} {thresh : Nat} {event : CoreEvent} {d : Delegation} {tc : Nat}

theorem SameScheduling.sameBudgets (same : s.SameScheduling s') :
    SameBudgets s.tcapCore s'.tcapCore :=
  ⟨fun t => congrArg Tcap.budget (congrFun same.tcaps t), same.active⟩

theorem delegation_cycles (named : s.delegation event = some d) : d.cycles ≤ tcapResInf := by
  have bounded (res : Nat) : res % 2 ^ 32 ≤ tcapResInf :=
    Nat.le_of_lt_succ (Nat.mod_lt _ (by decide))
  unfold delegation at named
  split at named
  · obtain ⟨arcv, -, mapped⟩ := bind_eq_some_iff.mp named
    obtain ⟨dst, -, rfl⟩ := map_eq_some_iff.mp mapped
    exact bounded _
  · obtain ⟨arcv, -, mapped⟩ := bind_eq_some_iff.mp named
    obtain ⟨dst, -, rfl⟩ := map_eq_some_iff.mp mapped
    exact bounded _
  · cases named

theorem yieldsTo_of_delegation (named : s.delegation event = some d) : s.yieldsTo event = none := by
  cases event with
  | tcap caps tcapc call regs => rfl
  | _ => cases named

theorem yieldsTo_of_merging {dst rm : Nat} (named : s.merging event = some (dst, rm)) :
    s.yieldsTo event = none := by
  cases event with
  | tcap caps tcapc call regs => rfl
  | _ => cases named

theorem yieldsTo_of_resumes {prio : Nat} (resumed : s.resumes event = some (tc, prio)) :
    s.yieldsTo event = some tc := by
  cases event with
  | arcv arcvc regs =>
    simp only [resumes, ite_none_right_eq_some, map_eq_some_iff, Prod.mk.injEq] at resumed
    obtain ⟨⟨blocking, saved⟩, found, located, rfl, -⟩ := resumed
    obtain ⟨thd, present⟩ := isSome_iff_exists.mp saved
    simp only [yieldsTo, if_pos blocking, present, located]
  | _ => cases resumed

theorem active_of_delegate {core core' : TcapCore} {dst src cycles prio : Nat}
    (ran : tcapDelegate core dst src cycles prio = .ok (0, core')) : core.isActive src := by
  by_contra inactive
  unfold tcapDelegate at ran
  simp only [inactive, not_false_eq_true, if_true] at ran
  split_ifs at ran <;> simp [Errno.enomem, Errno.einval, Errno.eperm] at ran

theorem funded_delegate {core : TcapCore} (listed : BudgetsListed s.tcapCore)
    (named : s.delegation event = some d) (ran : d.run s.tcapCore = .ok (0, core)) :
    (core.tcaps d.dst).budget ≠ 0 := by
  have source := (listed.active d.src).mp (active_of_delegate ran)
  rcases delegate_budgets (delegation_cycles named) (tcapDelegate_outcome ran) with
    ⟨same, failed | equal⟩ | ⟨-, transferred⟩
  · exact absurd rfl failed
  · rw [same.budget, equal]
    exact source
  · exact transferred.moved.nonzero (listed.bounded _) (listed.bounded _) source

theorem Readied.listed (readied : Readied s event s₁) (resumes : s.ResumesFunded thresh event)
    (listed : BudgetsListed s.tcapCore) : BudgetsListed s₁.tcapCore := by
  cases readied with
  | same same => exact listed.same same.sameBudgets
  | token used validated same => exact listed.same same.sameBudgets
  | delegate named ran same =>
    refine BudgetsListed.same ?_ same.sameBudgets
    rcases delegate_budgets (delegation_cycles named) (tcapDelegate_outcome ran) with
      ⟨unchanged, -⟩ | ⟨-, transferred⟩
    · exact listed.same unchanged
    · exact listed.transferred transferred
  | @merge dst rm ret core named ran same =>
    refine BudgetsListed.same ?_ same.sameBudgets
    rcases tcapMerge_cases ran with ⟨-, rfl⟩ |
      ⟨different, -, failed, core₁, outcome, ⟨-, refused, rfl⟩ | ⟨done, rfl, rfl, deleted⟩⟩
    · exact listed
    · rcases delegate_budgets (Nat.zero_le _) outcome with ⟨unchanged, -⟩ | ⟨zero, -⟩
      · exact listed.same unchanged
      · exact absurd zero refused
    · have transferred := transferred_of_merge different outcome
      rcases resumes.2 dst rm named with fails | ⟨-, finite⟩
      · exact absurd done (fails ret _ ran)
      · exact (listed.transferred transferred).same
          (sameBudgets_delete deleted (transferred.moved.all finite))

/-- What has been readied leaves the current tcap with budget, except that a delegation may
have given it all away. -/
theorem Readied.current (readied : Readied s event s₁) (resumes : s.ResumesFunded thresh event)
    (funded : s.Funded)
    (checked : ∀ d core, s.delegation event = some d → d.run s.tcapCore = .ok (0, core) →
      (s₁.tcaps s₁.cosInfo.currTcap).budget ≠ 0) :
    (s₁.tcaps s₁.cosInfo.currTcap).budget ≠ 0 := by
  have kept {core : TcapCore} (unchanged : SameBudgets s.tcapCore core)
      (current : core.cosInfo.currTcap = s.cosInfo.currTcap)
      (same : (s.withTcaps core).SameScheduling s₁) :
      (s₁.tcaps s₁.cosInfo.currTcap).budget ≠ 0 := by
    have currTcap : s₁.cosInfo.currTcap = s.cosInfo.currTcap := same.currTcap.trans current
    rw [currTcap, same.tcaps]
    exact (unchanged.budget _).symm ▸ funded.current
  cases readied with
  | same same => exact kept (.refl _) rfl same
  | token used validated same =>
    rw [same.currTcap, same.tcaps]
    exact funded.current
  | @delegate d ret core named ran same =>
    have current := (tcapsOnly_delegate (tcapDelegate_outcome ran)).currTcap
    by_cases done : ret = 0
    · subst done
      exact checked d core named ran
    · rcases delegate_budgets (delegation_cycles named) (tcapDelegate_outcome ran) with
        ⟨unchanged, -⟩ | ⟨zero, -⟩
      · exact kept unchanged current same
      · exact absurd zero done
  | @merge dst rm ret core named ran same =>
    have current := (tcapsOnly_merge ran).currTcap
    rcases tcapMerge_cases ran with ⟨-, rfl⟩ |
      ⟨different, -, failed, core₁, outcome, ⟨-, refused, rfl⟩ | ⟨done, rfl, rfl, deleted⟩⟩
    · exact kept (.refl _) rfl same
    · rcases delegate_budgets (Nat.zero_le _) outcome with ⟨unchanged, -⟩ | ⟨zero, -⟩
      · exact kept unchanged current same
      · exact absurd zero refused
    · rcases resumes.2 dst rm named with fails | ⟨other, -⟩
      · exact absurd done (fails ret _ ran)
      have transferred := transferred_of_merge different outcome
      have currTcap : s₁.cosInfo.currTcap = s.cosInfo.currTcap := same.currTcap.trans current
      rw [currTcap, same.tcaps]
      change ((tcapDelete core₁ rm).2.tcaps s.cosInfo.currTcap).budget ≠ 0
      rw [delete_budget deleted, if_neg (Ne.symm other)]
      by_cases isDst : s.cosInfo.currTcap = dst
      · rw [isDst]
        exact transferred.moved.nonzero (funded.listed.bounded _) (funded.listed.bounded _)
          ((funded.listed.active rm).mp transferred.source)
      · rw [transferred.others _ isDst (Ne.symm other)]
        exact funded.current

theorem Aim.funded_or (aim : Aim s event s₁ tc) (readied : Readied s event s₁)
    (resumes : s.ResumesFunded thresh event) (listed : BudgetsListed s.tcapCore) :
    tc = s₁.cosInfo.currTcap ∨ (s₁.tcaps tc).budget ≠ 0 ∨
      ((s₁.charged thresh).tcaps s₁.cosInfo.currTcap).budget = 0 := by
  cases aim with
  | current => exact .inl rfl
  | active active => exact .inr (.inl (((readied.listed resumes listed).active tc).mp active))
  | funded funded => exact .inr (.inl funded)
  | delegated named ran same =>
    refine .inr (.inl ?_)
    rw [same.tcaps]
    exact funded_delegate listed named ran
  | yields yields =>
    have unchanged {s₂ : Core} (same : s₂.SameScheduling s₁) (tcaps : s₂.tcaps = s.tcaps)
        (currTcap : s₂.cosInfo.currTcap = s.cosInfo.currTcap)
        (cycles : s₂.cosInfo.cycles = s.cosInfo.cycles) (tsc : s₂.tsc = s.tsc) :
        tc = s₁.cosInfo.currTcap ∨ (s₁.tcaps tc).budget ≠ 0 ∨
          ((s₁.charged thresh).tcaps s₁.cosInfo.currTcap).budget = 0 := by
      have current : s₁.cosInfo.currTcap = s.cosInfo.currTcap := same.currTcap.trans currTcap
      have sameTcaps : s₁.tcaps = s.tcaps := same.tcaps.trans tcaps
      rw [current, charged_budget thresh current (same.cycles.trans cycles) (same.tsc.trans tsc)
        (by rw [sameTcaps]), sameTcaps]
      exact resumes.1 tc yields
    cases readied with
    | same same => exact unchanged same rfl rfl rfl rfl
    | token used validated same => exact unchanged same rfl rfl rfl rfl
    | delegate named ran same =>
      rw [yieldsTo_of_delegation named] at yields
      cases yields
    | merge named ran same =>
      rw [yieldsTo_of_merging named] at yields
      cases yields

theorem restored_budget (t : Tcap) : (restored t).budget = t.budget := by
  unfold restored
  split_ifs <;> rfl

theorem charged_listed (thresh : Nat) (listed : BudgetsListed s.tcapCore) :
    BudgetsListed (s.charged thresh) := by
  have timed : BudgetsListed ⟨s.tcaps, { s.cosInfo with cycles := s.tsc }⟩ :=
    ⟨listed.bounded, listed.active⟩
  exact timed.consume thresh _ _

theorem Updated.sameBudgets (updated : Updated thresh s tc s') :
    SameBudgets (s.charged thresh) s'.tcapCore := by
  refine ⟨fun t => ?_, updated.active⟩
  have tcap := updated.tcaps t
  change (s'.tcaps t).budget = _
  rw [tcap]
  split_ifs
  · exact restored_budget _
  · rfl

theorem funded_capUpdate {thd next timeout : Nat} {ci : CompInfo} {regs : PtRegs} {timer : Bool}
    (listed : BudgetsListed s.tcapCore)
    (asked : tc = s.cosInfo.currTcap ∨ (s.tcaps tc).budget ≠ 0 ∨
      ((s.charged thresh).tcaps s.cosInfo.currTcap).budget = 0)
    (done : s.capUpdate thresh thd next tc timeout ci regs timer = .ok s') : s'.Funded := by
  obtain ⟨choice, chosen, updated⟩ := capUpdate_updated done
  refine ⟨(charged_listed thresh listed).same updated.sameBudgets, ?_⟩
  have budget : (s'.tcaps s'.cosInfo.currTcap).budget =
      ((s.charged thresh).tcaps s'.cosInfo.currTcap).budget := updated.sameBudgets.budget _
  rw [budget, updated.currTcap]
  rcases choose_tcap chosen with ⟨went, left⟩ | ⟨-, found, -⟩
  · rw [went]
    by_cases current : tc = s.cosInfo.currTcap
    · rw [current]
      exact left
    · rw [charged_of_ne thresh current]
      exact (asked.resolve_left current).resolve_right left
  · exact found

/-- Every entry that resumes funded leaves the current tcap with budget. -/
theorem Funded.next (funded : s.Funded) (resumes : s.ResumesFunded thresh event)
    (stepped : s.next thresh event = some s') : s'.Funded := by
  cases scheduled_of_next stepped with
  | back readied checked =>
    exact ⟨readied.listed resumes funded.listed, readied.current resumes funded checked⟩
  | update readied aim updated =>
    exact funded_capUpdate (readied.listed resumes funded.listed)
      (aim.funded_or readied resumes funded.listed) updated
  | @carry s₁ s₂ thd next tc timeout prio ci regs readied active updated current carried =>
    have before := funded_capUpdate (readied.listed resumes funded.listed)
      (Aim.funded_or (.active active) readied resumes funded.listed) updated
    have same : SameBudgets s₂.tcapCore s'.tcapCore := by
      rw [carried]
      exact sameBudgets_modify s₂.tcapCore tc (·.setprio prio) rfl
    refine ⟨before.listed.same same, ?_⟩
    have currTcap : s'.cosInfo.currTcap = s₂.cosInfo.currTcap := by rw [carried]; rfl
    have budget : (s'.tcaps s₂.cosInfo.currTcap).budget = (s₂.tcaps s₂.cosInfo.currTcap).budget :=
      same.budget _
    rw [currTcap, budget]
    exact before.current
  | @resume s₁ thd next tc timeout prio ci regs resumed same updated =>
    have currTcap : s₁.cosInfo.currTcap = s.cosInfo.currTcap := same.currTcap
    have budgets : SameBudgets s.tcapCore s₁.tcapCore := by
      refine ⟨fun t => ?_, same.active⟩
      have raised := (sameBudgets_modify s.tcapCore tc (·.setprio prio) rfl).budget t
      exact (congrArg Tcap.budget (congrFun same.tcaps t)).trans raised
    have charged : ((s₁.charged thresh).tcaps s.cosInfo.currTcap).budget =
        ((s.charged thresh).tcaps s.cosInfo.currTcap).budget :=
      charged_budget thresh currTcap same.cycles same.tsc (budgets.budget _)
    refine funded_capUpdate (funded.listed.same budgets) ?_ updated
    have budget : (s₁.tcaps tc).budget = (s.tcaps tc).budget := budgets.budget tc
    rw [currTcap, budget, charged]
    exact resumes.1 tc (yieldsTo_of_resumes resumed)
  | wait cycles waited =>
    rw [waited]
    exact ⟨funded.listed, funded.current⟩

theorem choose_not_assertion {thd next timeout : Nat} {timer : Bool}
    (listed : BudgetsListed s.tcapCore)
    (some_budget : ∃ t, ((s.charged thresh).tcaps t).budget ≠ 0) :
    (s.budgetsUpdate thresh thd).choose thd next tc timeout timer ≠ .error .assertion := by
  have after := charged_listed thresh listed
  have noAssertion {pointer : Option Nat} : deref pointer ≠ .error .assertion := by
    cases pointer <;> simp [deref]
  intro failed
  have current : (s.budgetsUpdate thresh thd).cosInfo.currTcap = s.cosInfo.currTcap :=
    (tcapsOnly_consume ..).currTcap
  have tcaps : (s.budgetsUpdate thresh thd).tcaps = (s.charged thresh).tcaps := rfl
  have active (t : Nat) : (s.budgetsUpdate thresh thd).tcapCore.isActive t ↔
      ((s.charged thresh).tcaps t).budget ≠ 0 := after.active t
  unfold choose at failed
  rw [current, tcaps] at failed
  split_ifs at failed with expended isActive
  · exact (active _).mp isActive expended
  · rcases bind_eq_error.mp failed with aimless | ⟨aimed, -, rest⟩
    · unfold expendedTcap at aimless
      split_ifs at aimless
      exact noAssertion aimless
    · rw [tcaps] at rest
      split_ifs at rest with empty
      split at rest
      · next noTcap =>
        obtain ⟨t, budget⟩ := some_budget
        have member : t ∈ (s.budgetsUpdate thresh thd).cosInfo.tcaps := (active t).mpr budget
        rw [List.head?_eq_none_iff.mp noTcap] at member
        cases member
      · next head found =>
        have member := (active head).mp (List.mem_of_mem_head? found)
        rw [if_neg member] at rest
        rcases bind_eq_error.mp rest with unbound | ⟨ep, -, rest⟩
        · exact noAssertion unbound
        rcases bind_eq_error.mp rest with unscheduled | ⟨sched, -, rest⟩
        · exact noAssertion unscheduled
        · cases rest
  · rcases bind_eq_error.mp failed with lost | ⟨thd', -, rest⟩
    · unfold timeoutThread at lost
      split_ifs at lost
      · rcases bind_eq_error.mp lost with unbound | ⟨ep, -, rest⟩
        · exact noAssertion unbound
        · exact noAssertion rest
      · exact noAssertion lost
    · cases rest

end Core

/-- In every run whose sends with yield, blocking receives and merges resume funded, user
code is on a tcap with budget after every kernel entry, and as long as a tcap has budget the
kernel fails no assertion when it chooses the next one. -/
theorem tcap_resumption {thresh : Nat} {start s : Core} {events : List CoreEvent}
    (funded : start.Funded)
    (resumes : Transition.Meets (Core.ResumesFunded thresh) (Core.next thresh) start events)
    (reached : Transition.exec (Core.next thresh) start events = some s) :
    (s.tcaps s.cosInfo.currTcap).budget ≠ 0 ∧
      ((∃ t, ((s.charged thresh).tcaps t).budget ≠ 0) → ∀ thd next tc timeout timer,
        (s.budgetsUpdate thresh thd).choose thd next tc timeout timer ≠ .error .assertion) := by
  have kept : ∀ (s : Core) event s', s.Funded → s.ResumesFunded thresh event →
      s.next thresh event = some s' → s'.Funded :=
    fun _ _ _ funded resumes stepped => funded.next resumes stepped
  have after : s.Funded := Transition.exec_invariant kept funded resumes reached
  exact ⟨after.current, fun some_budget _ _ _ _ _ =>
    Core.choose_not_assertion after.listed some_budget⟩

theorem threeTcaps_funded : threeTcaps.Funded := by
  refine ⟨⟨fun t => ?_, fun t => ?_⟩, by decide⟩
  all_goals match t with
    | 0 => decide
    | 1 => decide
    | 2 => decide
    | t + 3 => simp [threeTcaps, Core.tcapCore, TcapCore.isActive, Tcap.zero]

def sendTo2 (yield : Nat) : CoreEvent :=
  .asnd endpointCaps ⟨0, 0, 4, 0, ⟨⟨0, 2⟩, 6, 7⟩, 0, 0, 0⟩ { PtRegs.zero with dx := yield }

/-- Tcap 1 gives budget to tcap 2, and the send with yield goes on with it. -/
theorem tcap_resumption_yield :
    ∃ s ∈ Transition.exec (Core.next 0) threeTcaps
        [.tcap endpointCaps ⟨1, 0⟩ (.transfer 4 10 0) .zero, sendTo2 1],
      s.cosInfo.currThd = 2 ∧ s.cosInfo.currTcap = 2 ∧ (s.tcaps s.cosInfo.currTcap).budget ≠ 0 := by
  have run : ((Transition.exec (Core.next 0) threeTcaps
      [.tcap endpointCaps ⟨1, 0⟩ (.transfer 4 10 0) .zero, sendTo2 1]).map fun s =>
        (s.cosInfo.currThd, s.cosInfo.currTcap)) = some (2, 2) := by decide +kernel
  obtain ⟨s, reached, facts⟩ := Option.map_eq_some_iff.mp run
  obtain ⟨currThd, currTcap⟩ := Prod.mk.inj facts
  have resumes : Transition.Meets (Core.ResumesFunded 0) (Core.next 0) threeTcaps
      [.tcap endpointCaps ⟨1, 0⟩ (.transfer 4 10 0) .zero, sendTo2 1] := by
    refine ⟨⟨(fun _ yields => by cases yields), fun _ _ named => by cases named⟩,
      fun middle stepped => ⟨⟨fun tc yields => .inr (.inl ?_), fun _ _ named => by cases named⟩,
        fun _ _ => trivial⟩⟩
    have budgets : ((threeTcaps.next 0 (.tcap endpointCaps ⟨1, 0⟩ (.transfer 4 10 0) .zero)).map
        fun s => (s.yieldsTo (sendTo2 1), (s.tcaps 2).budget)) = some (some 2, 10) := by
      decide +kernel
    rw [stepped, Option.map_some, Option.some_inj] at budgets
    obtain ⟨goal, budget⟩ := Prod.mk.inj budgets
    obtain rfl := Option.some_inj.mp (yields.symm.trans goal)
    rw [budget]
    decide
  exact ⟨s, reached, currThd, currTcap, (tcap_resumption threeTcaps_funded resumes reached).1⟩

/-- The end-point of thread 2 has a tcap without budget, and a send with yield goes on with
it while the current tcap has an infinite budget. -/
theorem tcap_resumption_expended :
    ∃ s ∈ Transition.exec (Core.next 0) threeTcaps [sendTo2 1],
      s.cosInfo.currThd = 2 ∧ s.cosInfo.currTcap = 2 ∧ (s.tcaps 2).budget = 0 ∧
        (s.tcaps 0).budget = tcapResInf := by
  have run : ((Transition.exec (Core.next 0) threeTcaps [sendTo2 1]).map fun s =>
      (s.cosInfo.currThd, s.cosInfo.currTcap, (s.tcaps 2).budget, (s.tcaps 0).budget)) =
      some (2, 2, 0, tcapResInf) := by decide +kernel
  obtain ⟨s, reached, facts⟩ := Option.map_eq_some_iff.mp run
  simp only [Prod.mk.injEq] at facts
  exact ⟨s, reached, facts⟩

end Composite
