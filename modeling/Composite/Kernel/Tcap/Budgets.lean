import Mathlib.Algebra.Order.BigOperators.Group.Finset
import Composite.Lib.Counting
import Composite.Kernel.Tcap.Delegations

/-!
# The budgets of tcaps

Budgets move between the tcaps of a core, are used up, and are given out by tcaps
with an infinite budget.
-/

namespace Composite

theorem budgetAdd_eq {budget cycles : Nat} (finite : budget < tcapResInf)
    (bounded : cycles < tcapResInf) :
    budgetAdd budget cycles = min (budget + cycles) tcapResMax := by
  unfold tcapResInf at finite bounded
  unfold budgetAdd tcapResMax tcapResInf
  simp only
  split_ifs <;> omega

/-- The budgets of the two tcaps after a transfer: the whole of an infinite budget,
or an amount that the source has. -/
def Moved (bd bs cycles newD newS : Nat) : Prop :=
  (bs = tcapResInf ∧ (cycles = 0 ∨ cycles = tcapResInf) ∧ newD = tcapResInf ∧ newS = bs) ∨
    ∃ amount, amount ≤ bs ∧ amount ≠ tcapResInf ∧ (bs ≠ 0 → amount ≠ 0) ∧
      (bs = tcapResInf → amount = cycles) ∧ (cycles = 0 → amount = bs) ∧
      newD = (if bd = tcapResInf then bd else budgetAdd bd amount) ∧
      newS = if bs = tcapResInf then bs else bs - amount

/-- What a transfer of budget from `s` to `d` does. -/
structure Transferred (core core' : TcapCore) (d s cycles : Nat) : Prop where
  different : d ≠ s
  source : core.isActive s
  moved : Moved (core.tcaps d).budget (core.tcaps s).budget cycles (core'.tcaps d).budget
    (core'.tcaps s).budget
  others : ∀ t, t ≠ d → t ≠ s → (core'.tcaps t).budget = (core.tcaps t).budget
  active : ∀ t, core'.isActive t ↔
    (core.isActive t ∨ t = d) ∧ (t = s → (core'.tcaps s).budget ≠ 0)

structure SameBudgets (core core' : TcapCore) : Prop where
  budget : ∀ t, (core'.tcaps t).budget = (core.tcaps t).budget
  active : core'.cosInfo.tcaps = core.cosInfo.tcaps

section Transfer

variable {core core' core'' : TcapCore} {d s cycles : Nat} {ret : Int}

theorem SameBudgets.refl (core : TcapCore) : SameBudgets core core := ⟨fun _ => rfl, rfl⟩

theorem SameBudgets.isActive (same : SameBudgets core core') (t : Nat) :
    core'.isActive t ↔ core.isActive t := by
  unfold TcapCore.isActive
  rw [same.active]

theorem sameBudgets_modify (core : TcapCore) (t : Nat) (change : Tcap → Tcap)
    (same : (change (core.tcaps t)).budget = (core.tcaps t).budget) :
    SameBudgets core (core.modify t change) := by
  refine ⟨fun other => ?_, rfl⟩
  rw [modify_tcaps]
  split_ifs with here
  · rw [same, here]
  · rfl

theorem Transferred.before (same : SameBudgets core core')
    (transferred : Transferred core' core'' d s cycles) : Transferred core core'' d s cycles where
  different := transferred.different
  source := (same.isActive s).mp transferred.source
  moved := by
    rw [← same.budget, ← same.budget]
    exact transferred.moved
  others := fun t notD notS => (transferred.others t notD notS).trans (same.budget t)
  active := fun t => by rw [transferred.active, same.isActive]

theorem Transferred.after (transferred : Transferred core core' d s cycles)
    (same : SameBudgets core' core'') : Transferred core core'' d s cycles where
  different := transferred.different
  source := transferred.source
  moved := by
    rw [same.budget, same.budget]
    exact transferred.moved
  others := fun t notD notS => (same.budget t).trans (transferred.others t notD notS)
  active := fun t => by rw [same.isActive, transferred.active, same.budget]

theorem mem_activeAddBefore {existing t other : Nat} (present : core.isActive existing) :
    (core.activeAddBefore existing t).isActive other ↔ core.isActive other ∨ other = t := by
  unfold TcapCore.isActive TcapCore.activeAddBefore at *
  rw [List.mem_flatMap]
  constructor
  · rintro ⟨element, member, here⟩
    split_ifs at here
    · rcases List.mem_pair.mp here with rfl | rfl
      · exact .inr rfl
      · exact .inl member
    · rw [List.mem_singleton.mp here]
      exact .inl member
  · rintro (member | rfl)
    · refine ⟨other, member, ?_⟩
      split_ifs <;> simp
    · exact ⟨existing, present, by simp⟩

theorem mem_activeRem {t other : Nat} :
    (core.activeRem t).isActive other ↔ core.isActive other ∧ other ≠ t := by
  simp [TcapCore.isActive, TcapCore.activeRem]

theorem xferDone_tcaps (core : TcapCore) (d s : Nat) :
    (tcapXferDone core d s).tcaps = core.tcaps := by
  unfold tcapXferDone TcapCore.activeRem TcapCore.activeAddBefore
  simp only
  split_ifs <;> rfl

theorem mem_xferDone (source : core.isActive s) (t : Nat) :
    (tcapXferDone core d s).isActive t ↔
      (core.isActive t ∨ t = d) ∧ (t = s → (core.tcaps s).budget ≠ 0) := by
  have added : ∀ other,
      (if core.isActive d then core else core.activeAddBefore s d).isActive other ↔
      core.isActive other ∨ other = d := by
    intro other
    split_ifs with present
    · exact ⟨.inl, fun either => either.elim id fun same => same ▸ present⟩
    · exact mem_activeAddBefore source
  have sameTcaps : (if core.isActive d then core else core.activeAddBefore s d).tcaps =
    core.tcaps := by
    split_ifs <;> rfl
  unfold tcapXferDone
  generalize (if core.isActive d then core else core.activeAddBefore s d) = longer
    at added sameTcaps ⊢
  simp only [sameTcaps]
  split_ifs with expended
  · rw [mem_activeRem, added]
    exact and_congr_right fun _ =>
      ⟨fun other same => absurd same other, fun left same => left same expended⟩
  · rw [added]
    exact ⟨fun either => ⟨either, fun _ => expended⟩, And.left⟩

theorem transferred_of_tcaps (different : d ≠ s) (source : core.isActive s) {middle : TcapCore}
    (sameList : middle.cosInfo.tcaps = core.cosInfo.tcaps)
    (moved : Moved (core.tcaps d).budget (core.tcaps s).budget cycles (middle.tcaps d).budget
      (middle.tcaps s).budget)
    (others : ∀ t, t ≠ d → t ≠ s → (middle.tcaps t).budget = (core.tcaps t).budget) :
    Transferred core (tcapXferDone middle d s) d s cycles := by
  have listed : ∀ t, middle.isActive t ↔ core.isActive t := fun t => by
    unfold TcapCore.isActive
    rw [sameList]
  refine ⟨different, source, ?_, ?_, fun t => ?_⟩
  · rw [xferDone_tcaps]
    exact moved
  · rw [xferDone_tcaps]
    exact others
  · rw [mem_xferDone ((listed s).mpr source), listed, xferDone_tcaps]

theorem gain_budget (t : Tcap) (amount : Nat) :
    (t.gain amount).budget =
      if t.budget = tcapResInf then t.budget else budgetAdd t.budget amount := by
  unfold Tcap.gain
  split_ifs <;> simp_all

theorem spend_budget (t : Tcap) (amount : Nat) :
    (t.spend amount).budget = if t.budget = tcapResInf then t.budget else t.budget - amount := by
  unfold Tcap.spend
  split_ifs <;> simp_all

theorem budgetXfer_cases (different : d ≠ s) (bounded : cycles ≤ tcapResInf)
    (result : tcapBudgetXfer core d s cycles = .ok (ret, core')) :
    (ret ≠ 0 ∧ core' = core) ∨ (ret = 0 ∧ Transferred core core' d s cycles) := by
  unfold tcapBudgetXfer at result
  simp only at result
  generalize amountEq : (if cycles = 0 then (core.tcaps s).budget else cycles) = amount at result
  generalize cutEq :
    (if amount > (core.tcaps s).budget then (core.tcaps s).budget else amount) = cut at result
  split_ifs at result with source cpuid whole finite
  · cases result
    exact .inl ⟨by decide, rfl⟩
  · cases result
    exact .inl ⟨by decide, rfl⟩
  · cases result
    rw [not_not] at finite
    refine .inr ⟨rfl, transferred_of_tcaps different source rfl (.inl ⟨finite, ?_, ?_, ?_⟩) ?_⟩
    · split_ifs at amountEq with zero
      · exact .inl zero
      · exact .inr (amountEq.trans whole)
    · rw [modify_tcaps, if_pos rfl]
    · rw [modify_tcaps, if_neg different.symm]
    · intro t notD notS
      rw [modify_tcaps, if_neg notD]
  · cases result
    have parts : cut ≤ (core.tcaps s).budget ∧ cut ≠ tcapResInf ∧
        ((core.tcaps s).budget ≠ 0 → cut ≠ 0) ∧
        ((core.tcaps s).budget = tcapResInf → cut = cycles) ∧
        (cycles = 0 → cut = (core.tcaps s).budget) := by
      split_ifs at amountEq cutEq <;> omega
    obtain ⟨available, notInf, nonzero, given, all⟩ := parts
    refine .inr ⟨rfl, transferred_of_tcaps different source rfl
      (.inr ⟨cut, available, notInf, nonzero, given, all, ?_, ?_⟩) ?_⟩
    · rw [modify_tcaps, if_neg different, modify_tcaps, if_pos rfl, gain_budget]
    · rw [modify_tcaps, if_pos rfl, modify_tcaps, if_neg different.symm, spend_budget]
    · intro t notD notS
      rw [modify_tcaps, if_neg notS, modify_tcaps, if_neg notD]

end Transfer

section Delegate

variable {core core' : TcapCore} {dst src cycles prio : Nat} {ret : Int}

theorem sameBudgets_merging {m : DelegMerge}
    (ran : DelegMerge.run (core.tcaps dst) (core.tcaps src) prio = (ret, m)) :
    SameBudgets core (core.merging dst src m) := by
  have merged := merged_run ran
  refine ⟨fun t => ?_, rfl⟩
  unfold TcapCore.merging
  rw [modify_tcaps]
  split_ifs with isSrc
  · rw [merged.srcKept.frame, isSrc]
  · rw [modify_tcaps]
    split_ifs with isDst
    · rw [merged.dstKept.frame, isDst]
    · rfl

theorem delegate_budgets (bounded : cycles ≤ tcapResInf)
    (outcome : DelegateOutcome core dst src cycles prio ret core') :
    (SameBudgets core core' ∧ (ret ≠ 0 ∨ dst = src)) ∨
      (ret = 0 ∧ Transferred core core' dst src cycles) := by
  cases outcome with
  | refused failed => exact .inl ⟨.refl core, .inl failed⟩
  | own equal => exact .inl ⟨sameBudgets_modify core dst _ rfl, .inr equal⟩
  | noRoom different failed ran => exact .inl ⟨sameBudgets_merging ran, .inl failed⟩
  | noBudget different _ _ ran transfer failed returned =>
    rcases budgetXfer_cases different bounded transfer with ⟨-, rfl⟩ | ⟨zero, -⟩
    · exact .inl ⟨sameBudgets_merging ran, .inl returned⟩
    · exact absurd zero failed
  | delegated different ran transfer located =>
    rcases budgetXfer_cases different bounded transfer with ⟨failed, -⟩ | ⟨-, transferred⟩
    · exact absurd rfl failed
    · refine .inr ⟨rfl, ?_⟩
      exact (transferred.before (sameBudgets_merging ran)).after
        (sameBudgets_modify _ dst _ rfl)

end Delegate

structure BudgetsListed (core : TcapCore) : Prop where
  bounded : ∀ t, (core.tcaps t).budget ≤ tcapResInf
  active : ∀ t, core.isActive t ↔ (core.tcaps t).budget ≠ 0

/-- The budgets are 32-bit numbers, the active tcaps are those with a budget, and
memory without a tcap has none. -/
structure BudgetsSound (w : TcapWorld) : Prop extends BudgetsListed w.core where
  fresh : ∀ t, t ∉ w.created → (w.core.tcaps t).budget = 0

def finiteBudget (budget : Nat) : Nat := if budget = tcapResInf then 0 else budget

def TcapWorld.finiteTotal (w : TcapWorld) : Nat :=
  ∑ t ∈ w.created, finiteBudget (w.core.tcaps t).budget

def givenOut (bs cycles : Nat) : Nat :=
  if bs = tcapResInf ∧ cycles ≠ 0 ∧ cycles ≠ tcapResInf then cycles else 0

def TcapWorld.given (w : TcapWorld) : TcapOp → Nat
  | .delegate _ src cycles _ => givenOut (w.core.tcaps src).budget (cycles % 2 ^ 32)
  | _ => 0

/-- The operation transfers a whole infinite budget to `t`. -/
def TcapWorld.TransfersInfinite (w : TcapWorld) (op : TcapOp) (t : Nat) : Prop :=
  ∃ src, (w.core.tcaps src).budget = tcapResInf ∧
    (op = .merge t src ∨ ∃ cycles prio, op = .delegate t src cycles prio ∧
      (cycles % 2 ^ 32 = 0 ∨ cycles % 2 ^ 32 = tcapResInf))

section Moved

variable {bd bs cycles newD newS : Nat}

section

variable (moved : Moved bd bs cycles newD newS)

include moved

section

variable (boundD : bd ≤ tcapResInf) (boundS : bs ≤ tcapResInf)

include boundD boundS

theorem Moved.bounded : newD ≤ tcapResInf ∧ newS ≤ tcapResInf := by
  rcases moved with ⟨-, -, rfl, rfl⟩ | ⟨amount, available, notInf, -, -, -, rfl, rfl⟩
  · exact ⟨le_rfl, boundS⟩
  · refine ⟨?_, ?_⟩
    · split_ifs with infinite
      · exact boundD
      · rw [budgetAdd_eq (by omega) (by omega)]
        exact (Nat.min_le_right _ _).trans (by decide)
    · split_ifs <;> omega

theorem Moved.nonzero (source : bs ≠ 0) : newD ≠ 0 := by
  have positive : tcapResMax ≠ 0 := by decide
  have positiveInf : tcapResInf ≠ 0 := by decide
  rcases moved with ⟨-, -, rfl, -⟩ | ⟨amount, available, notInf, nonzero, -, -, rfl, -⟩
  · exact positiveInf
  · have some := nonzero source
    split_ifs with infinite
    · omega
    · rw [budgetAdd_eq (by omega) (by omega)]
      omega

/-- The two finite budgets together grow at most by what an infinite one gives out. -/
theorem Moved.total :
    finiteBudget newD + finiteBudget newS ≤
      finiteBudget bd + finiteBudget bs + givenOut bs cycles := by
  have below : tcapResMax < tcapResInf := by decide
  rcases moved with ⟨rfl, -, rfl, rfl⟩ | ⟨amount, available, notInf, -, given, all, rfl, rfl⟩
  · simp [finiteBudget]
  · unfold givenOut finiteBudget
    by_cases infiniteD : bd = tcapResInf
    · simp only [if_pos infiniteD]
      split_ifs <;> omega
    · simp only [if_neg infiniteD]
      rw [budgetAdd_eq (by omega) (by omega)]
      split_ifs <;> omega

theorem Moved.infinite (finite : bd ≠ tcapResInf) (infinite : newD = tcapResInf) :
    bs = tcapResInf ∧ (cycles = 0 ∨ cycles = tcapResInf) := by
  have below : tcapResMax < tcapResInf := by decide
  rcases moved with ⟨whole, amount, -, -⟩ | ⟨amount, available, notInf, -, -, -, rfl, -⟩
  · exact ⟨whole, amount⟩
  · rw [if_neg finite, budgetAdd_eq (by omega) (by omega)] at infinite
    omega

end

/-- Only an infinite budget of the source stays infinite. -/
theorem Moved.source (boundS : bs ≤ tcapResInf) (infinite : newS = tcapResInf) :
    bs = tcapResInf := by
  rcases moved with ⟨whole, -, -, -⟩ | ⟨amount, available, notInf, -, -, -, -, rfl⟩
  · exact whole
  · split_ifs at infinite with already <;> omega

end

/-- A whole finite budget leaves nothing behind. -/
theorem Moved.all (moved : Moved bd bs 0 newD newS) (finite : bs ≠ tcapResInf) : newS = 0 := by
  rcases moved with ⟨infinite, -, -, -⟩ | ⟨amount, -, -, -, -, all, -, rfl⟩
  · exact absurd infinite finite
  · rw [if_neg finite, all rfl, Nat.sub_self]

end Moved

section Steps

variable {w w' : TcapWorld} {core core' : TcapCore} {d s cycles : Nat}

theorem BudgetsListed.same (listed : BudgetsListed core) (same : SameBudgets core core') :
    BudgetsListed core' where
  bounded := fun t => same.budget t ▸ listed.bounded t
  active := fun t => by rw [same.isActive, listed.active, same.budget]

theorem BudgetsSound.same (sound : BudgetsSound w) (same : SameBudgets w.core w'.core)
    (created : w'.created = w.created) : BudgetsSound w' :=
  ⟨sound.toBudgetsListed.same same, fun t outside =>
    (same.budget t).trans (sound.fresh t (created ▸ outside))⟩

theorem finiteTotal_same (same : SameBudgets w.core w'.core) (created : w'.created = w.created) :
    w'.finiteTotal = w.finiteTotal := by
  unfold TcapWorld.finiteTotal
  rw [created]
  exact Finset.sum_congr rfl fun t _ => by rw [same.budget]

theorem BudgetsListed.transferred (listed : BudgetsListed core)
    (transferred : Transferred core core' d s cycles) : BudgetsListed core' := by
  have source := (listed.active s).mp transferred.source
  obtain ⟨boundD, boundS⟩ := transferred.moved.bounded (listed.bounded d) (listed.bounded s)
  refine ⟨fun t => ?_, fun t => ?_⟩
  · by_cases isD : t = d
    · exact isD ▸ boundD
    · by_cases isS : t = s
      · exact isS ▸ boundS
      · exact transferred.others t isD isS ▸ listed.bounded t
  · rw [transferred.active]
    by_cases isD : t = d
    · subst isD
      have nonzero := transferred.moved.nonzero (listed.bounded t) (listed.bounded s) source
      exact ⟨fun _ => nonzero, fun _ => ⟨.inr rfl, fun same => absurd same transferred.different⟩⟩
    · by_cases isS : t = s
      · subst isS
        exact ⟨fun both => both.2 rfl, fun left => ⟨.inl transferred.source, fun _ => left⟩⟩
      · rw [transferred.others t isD isS, ← listed.active]
        exact ⟨fun both => both.1.resolve_right isD, fun member => ⟨.inl member,
          fun same => absurd same isS⟩⟩

theorem BudgetsSound.transferred (sound : BudgetsSound w)
    (transferred : Transferred w.core w'.core d s cycles) (created : w'.created = w.created)
    (namedD : d ∈ w.created) (namedS : s ∈ w.created) : BudgetsSound w' := by
  refine ⟨sound.toBudgetsListed.transferred transferred, fun t outside => ?_⟩
  rw [created] at outside
  rw [transferred.others t (fun same => outside (same ▸ namedD))
    (fun same => outside (same ▸ namedS))]
  exact sound.fresh t outside

theorem finiteTotal_transferred (sound : BudgetsSound w)
    (transferred : Transferred w.core w'.core d s cycles) (created : w'.created = w.created)
    (namedD : d ∈ w.created) (namedS : s ∈ w.created) :
    w'.finiteTotal ≤ w.finiteTotal + givenOut (w.core.tcaps s).budget cycles := by
  unfold TcapWorld.finiteTotal
  rw [created]
  refine Counting.sum_le_of_pair _ _ _ namedD namedS transferred.different ?_
    (transferred.moved.total (sound.bounded d) (sound.bounded s))
  intro t notD notS
  rw [transferred.others t notD notS]

theorem infinite_transferred (sound : BudgetsSound w)
    (transferred : Transferred w.core w'.core d s cycles) {t : Nat}
    (finite : (w.core.tcaps t).budget ≠ tcapResInf)
    (infinite : (w'.core.tcaps t).budget = tcapResInf) :
    t = d ∧ (w.core.tcaps s).budget = tcapResInf ∧ (cycles = 0 ∨ cycles = tcapResInf) := by
  by_cases isD : t = d
  · subst isD
    exact ⟨rfl, transferred.moved.infinite (sound.bounded t) (sound.bounded s) finite infinite⟩
  · by_cases isS : t = s
    · subst isS
      exact absurd (transferred.moved.source (sound.bounded t) infinite) finite
    · rw [transferred.others t isD isS] at infinite
      exact absurd infinite finite

theorem finiteTotal_lowered {t : Nat} (created : w'.created = w.created)
    (lower : finiteBudget (w'.core.tcaps t).budget ≤ finiteBudget (w.core.tcaps t).budget)
    (others : ∀ other, other ≠ t → (w'.core.tcaps other).budget = (w.core.tcaps other).budget) :
    w'.finiteTotal ≤ w.finiteTotal := by
  unfold TcapWorld.finiteTotal
  rw [created]
  refine Finset.sum_le_sum fun other _ => ?_
  by_cases here : other = t
  · exact here ▸ lower
  · rw [others other here]

end Steps

structure BudgetStep (w w' : TcapWorld) (op : TcapOp) : Prop where
  total : w'.finiteTotal ≤ w.finiteTotal + w.given op
  infinite : ∀ t, (w.core.tcaps t).budget ≠ tcapResInf → (w'.core.tcaps t).budget = tcapResInf →
    w.TransfersInfinite op t

/-- A merge that may come to remove a tcap removes one with a finite budget. -/
def TcapWorld.MergesFinite (w : TcapWorld) (op : TcapOp) : Prop :=
  ∀ dst rm, op = .merge dst rm → dst ≠ rm → (w.core.tcaps rm).refcnt ≤ 1 →
    (w.core.tcaps rm).budget ≠ tcapResInf

section Operations

variable {thresh : Nat} {w w' : TcapWorld} {op : TcapOp} {rm : Nat}

theorem BudgetsSound.unchanged (sound : BudgetsSound w) (same : SameBudgets w.core w'.core)
    (created : w'.created = w.created) : BudgetsSound w' ∧ BudgetStep w w' op :=
  ⟨sound.same same created, (finiteTotal_same same created).le.trans (Nat.le_add_right _ _),
    fun t finite infinite => absurd (same.budget t ▸ infinite) finite⟩

theorem consume_budget (thresh : Nat) (core : TcapCore) (t cycles : Nat) :
    tcapConsume thresh core t cycles = core ∨
      (core.tcaps t).budget ≠ tcapResInf ∧
        ∃ left, left ≤ (core.tcaps t).budget ∧
          (∀ other, ((tcapConsume thresh core t cycles).tcaps other).budget =
            if other = t then left else (core.tcaps other).budget) ∧
          ∀ other, (tcapConsume thresh core t cycles).isActive other ↔
            core.isActive other ∧ (other = t → left ≠ 0) := by
  unfold tcapConsume
  split_ifs with infinite all
  · exact .inl rfl
  · refine .inr ⟨infinite, 0, Nat.zero_le _, fun other => ?_, fun other => ?_⟩
    · change ((core.modify t Tcap.declassify).tcaps other).budget = _
      rw [modify_tcaps]
      split_ifs <;> rfl
    · rw [mem_activeRem]
      exact and_congr_right fun _ =>
        ⟨fun other same => absurd same other, fun no same => no same rfl⟩
  · refine .inr ⟨infinite, (core.tcaps t).budget - cycles, Nat.sub_le _ _, fun other => ?_,
      fun other => ?_⟩
    · rw [modify_tcaps]
      split_ifs <;> rfl
    · have left : (core.tcaps t).budget - cycles ≠ 0 := by omega
      exact ⟨fun member => ⟨member, fun _ => left⟩, And.left⟩

theorem BudgetsListed.consume (listed : BudgetsListed core) (thresh t cycles : Nat) :
    BudgetsListed (tcapConsume thresh core t cycles) := by
  rcases consume_budget thresh core t cycles with unchanged | ⟨-, left, lower, budgets, active⟩
  · rw [unchanged]
    exact listed
  · have bound := listed.bounded t
    refine ⟨fun other => ?_, fun other => ?_⟩
    · rw [budgets]
      split_ifs
      · exact lower.trans bound
      · exact listed.bounded other
    · rw [active, listed.active, budgets]
      split_ifs with same
      · subst same
        exact ⟨fun both => both.2 rfl, fun some => ⟨by omega, fun _ => some⟩⟩
      · exact ⟨And.left, fun some => ⟨some, fun here => absurd here same⟩⟩

theorem BudgetsSound.consume (sound : BudgetsSound w) (op : TcapOp) {t cycles : Nat}
    (named : t ∈ w.created)
    (after : w'.core = tcapConsume thresh w.core t cycles) (created : w'.created = w.created) :
    BudgetsSound w' ∧ BudgetStep w w' op := by
  rcases consume_budget thresh w.core t cycles with unchanged | ⟨finite, left, lower, budgets, -⟩
  · have same : SameBudgets w.core w'.core := by
      rw [after, unchanged]
      exact .refl _
    exact sound.unchanged same created
  · rw [← after] at budgets
    have bound := sound.bounded t
    have othersKept : ∀ other, other ≠ t →
        (w'.core.tcaps other).budget = (w.core.tcaps other).budget := by
      intro other different
      rw [budgets, if_neg different]
    have own : (w'.core.tcaps t).budget = left := by rw [budgets, if_pos rfl]
    refine ⟨⟨after ▸ sound.toBudgetsListed.consume thresh t cycles, fun other outside => ?_⟩,
      ⟨?_, fun other before now => ?_⟩⟩
    · rw [created] at outside
      rw [othersKept other fun same => outside (same ▸ named)]
      exact sound.fresh other outside
    · refine (finiteTotal_lowered created ?_ othersKept).trans (Nat.le_add_right _ _)
      rw [own]
      unfold finiteBudget
      split_ifs <;> omega
    · rw [budgets] at now
      split_ifs at now with same
      · subst same
        omega
      · exact absurd now before

theorem BudgetsSound.delegate (sound : BudgetsSound w) {dst src cycles prio : Nat} {ret : Int}
    (namedDst : dst ∈ w.created) (namedSrc : src ∈ w.created)
    (outcome : DelegateOutcome w.core dst src (cycles % 2 ^ 32) prio ret w'.core)
    (created : w'.created = w.created) :
    BudgetsSound w' ∧ BudgetStep w w' (.delegate dst src cycles prio) := by
  have bounded : cycles % 2 ^ 32 ≤ tcapResInf := Nat.le_of_lt_succ (Nat.mod_lt _ (by decide))
  rcases delegate_budgets bounded outcome with ⟨same, -⟩ | ⟨-, transferred⟩
  · exact sound.unchanged same created
  · refine ⟨sound.transferred transferred created namedDst namedSrc,
      finiteTotal_transferred sound transferred created namedDst namedSrc, fun t finite infinite =>
        ?_⟩
    obtain ⟨rfl, whole, amount⟩ := infinite_transferred sound transferred finite infinite
    exact ⟨src, whole, .inr ⟨cycles, prio, rfl, amount⟩⟩

theorem delete_budget {core : TcapCore} (deleted : (tcapDelete core rm).1 = 0) (t : Nat) :
    ((tcapDelete core rm).2.tcaps t).budget = if t = rm then 0 else (core.tcaps t).budget := by
  rw [tcapDelete_tcaps deleted]
  split_ifs <;> rfl

theorem delete_active (core : TcapCore) (rm : Nat) :
    (tcapDelete core rm).2.cosInfo.tcaps = core.cosInfo.tcaps := by
  unfold tcapDelete
  simp only
  split_ifs <;> rfl

theorem sameBudgets_delete {core : TcapCore} (deleted : (tcapDelete core rm).1 = 0)
    (spent : (core.tcaps rm).budget = 0) : SameBudgets core (tcapDelete core rm).2 := by
  refine ⟨fun t => ?_, delete_active core rm⟩
  rw [delete_budget deleted]
  split_ifs with same
  · rw [same, spent]
  · rfl

theorem transferred_of_merge {core core₁ : TcapCore} {dst prio : Nat} (different : dst ≠ rm)
    (outcome : DelegateOutcome core dst rm 0 prio 0 core₁) : Transferred core core₁ dst rm 0 := by
  rcases delegate_budgets (Nat.zero_le _) outcome with ⟨-, failed | equal⟩ | ⟨-, transferred⟩
  · exact absurd rfl failed
  · exact absurd equal different
  · exact transferred

theorem merge_budgets (sound : BudgetsSound w) {dst prio : Nat} {core : TcapCore}
    (namedDst : dst ∈ w.created) (namedRm : rm ∈ w.created)
    (outcome : DelegateOutcome w.core dst rm 0 prio 0 core) (different : dst ≠ rm)
    (after : w'.core = (tcapDelete core rm).2) (deleted : (tcapDelete core rm).1 = 0)
    (created : w'.created = w.created) :
    BudgetStep w w' (.merge dst rm) ∧
      ((w.core.tcaps rm).budget ≠ tcapResInf → BudgetsSound w') := by
  have transferred : Transferred w.core (TcapWorld.mk core w.created).core dst rm 0 :=
    transferred_of_merge different outcome
  have budgets : ∀ t, (w'.core.tcaps t).budget = if t = rm then 0 else (core.tcaps t).budget := by
    intro t
    rw [after, delete_budget deleted]
  have removed : (w'.core.tcaps rm).budget = 0 := by rw [budgets, if_pos rfl]
  have middle := sound.transferred transferred rfl namedDst namedRm
  refine ⟨⟨?_, fun t finite infinite => ?_⟩, fun finite => ?_⟩
  · have moved := finiteTotal_transferred sound transferred rfl namedDst namedRm
    have lowered : w'.finiteTotal ≤ (TcapWorld.mk core w.created).finiteTotal := by
      refine finiteTotal_lowered (t := rm) created ?_ fun t other => by rw [budgets, if_neg other]
      rw [removed]
      exact Nat.zero_le _
    exact lowered.trans (moved.trans (by simp [givenOut]))
  · rw [budgets] at infinite
    split_ifs at infinite
    · exact absurd infinite (by decide)
    · obtain ⟨rfl, whole, -⟩ := infinite_transferred sound transferred finite infinite
      exact ⟨rm, whole, .inl rfl⟩
  · exact middle.same (after ▸ sameBudgets_delete deleted (transferred.moved.all finite)) created

theorem BudgetsSound.activate (sound : BudgetsSound w) (op : TcapOp) {t : Nat}
    {change : Tcap → Tcap}
    (fresh : t ∉ w.created) (zero : (change (w.core.tcaps t)).budget = 0)
    (tcaps : w'.core.tcaps = (w.core.modify t change).tcaps)
    (list : w'.core.cosInfo.tcaps = w.core.cosInfo.tcaps)
    (created : w'.created = insert t w.created) : BudgetsSound w' ∧ BudgetStep w w' op := by
  have budget : ∀ other, (w'.core.tcaps other).budget = (w.core.tcaps other).budget := by
    intro other
    rw [tcaps, modify_tcaps]
    split_ifs with same
    · rw [zero, same, sound.fresh t fresh]
    · rfl
  have same : SameBudgets w.core w'.core := ⟨budget, list⟩
  refine ⟨⟨sound.toBudgetsListed.same same, fun other outside => ?_⟩,
    ⟨?_, fun other finite infinite => absurd (budget other ▸ infinite) finite⟩⟩
  · rw [budget]
    exact sound.fresh other fun inside => outside (created ▸ Finset.mem_insert_of_mem inside)
  · unfold TcapWorld.finiteTotal
    have none : finiteBudget 0 = 0 := by decide
    rw [created, Finset.sum_insert fresh, budget, sound.fresh t fresh, none, Nat.zero_add]
    simp only [budget]
    exact Nat.le_add_right _ _

/-- Every operation keeps the sum of the finite budgets, up to what infinite ones give
out; the list of active tcaps is kept up to date unless a merge removes an infinite
budget. -/
theorem BudgetsSound.next (sound : BudgetsSound w)
    (stepped : TcapWorld.next thresh w op = some w') :
    (w.MergesFinite op → BudgetsSound w') ∧ BudgetStep w w' op := by
  have always : ∀ {op}, BudgetsSound w' ∧ BudgetStep w w' op →
      (w.MergesFinite op → BudgetsSound w') ∧ BudgetStep w w' op := And.imp_left fun kept _ => kept
  obtain ⟨named, ret, performed, ⟨t, rfl, fresh, created⟩ | ⟨other, created⟩⟩ :=
    TcapWorld.next_perform stepped
  · have after : w'.core.tcaps = (w.core.modify t fun tc =>
          tc.init w.core.cosInfo.cpuid w.core.cosInfo.tcapUid).tcaps ∧
        w'.core.cosInfo.tcaps = w.core.cosInfo.tcaps := by
      obtain ⟨core', created'⟩ := w'
      cases performed
      exact ⟨rfl, rfl⟩
    exact always (sound.activate (.activate t) fresh rfl after.1 after.2 created)
  · cases op with
    | activate t => exact absurd rfl (other t)
    | bind t thd =>
      have same : SameBudgets w.core w'.core := by
        obtain ⟨core', created'⟩ := w'
        cases performed
        exact sameBudgets_modify w.core t (·.bind thd) rfl
      exact always (sound.unchanged same created)
    | unbind t thd =>
      have same : SameBudgets w.core w'.core := by
        obtain ⟨core', created'⟩ := w'
        simp only [TcapWorld.perform] at performed
        split_ifs at performed
        · cases performed
          exact .refl _
        · cases performed
          exact sameBudgets_modify w.core t Tcap.unbind rfl
      exact always (sound.unchanged same created)
    | delegate dst src cycles prio =>
      exact always (sound.delegate (named dst (by simp [TcapWorld.named]))
        (named src (by simp [TcapWorld.named])) (tcapDelegate_outcome performed) created)
    | merge dst rm =>
      have namedDst := named dst (by simp [TcapWorld.named])
      have namedRm := named rm (by simp [TcapWorld.named])
      rcases tcapMerge_cases performed with ⟨-, same⟩ |
        ⟨different, single, other, core, outcome, ⟨-, failed, after⟩ | ⟨-, rfl, after, deleted⟩⟩
      · exact always (sound.unchanged (same ▸ .refl _) created)
      · rcases delegate_budgets (Nat.zero_le _) outcome with ⟨same, -⟩ | ⟨zero, -⟩
        · exact always (sound.unchanged (after ▸ same) created)
        · exact absurd zero failed
      · obtain ⟨step, kept⟩ := merge_budgets sound namedDst namedRm outcome different after deleted
          created
        exact ⟨fun finite => kept (finite dst rm rfl different single), step⟩
    | consume t cycles =>
      have after : w'.core = tcapConsume thresh w.core t (cycles % 2 ^ 32) := by
        obtain ⟨core', created'⟩ := w'
        cases performed
        rfl
      exact always (sound.consume (.consume t cycles) (named t (by simp [TcapWorld.named])) after
        created)

end Operations

/-- In every state reached, if no merge has removed a tcap with an infinite budget: the
active tcaps are those with a budget; the next operation raises the sum of the finite
budgets at most by what an infinite budget gives out, and a finite budget becomes
infinite only by the transfer of a whole infinite budget. -/
theorem tcap_budgets (thresh : Nat) (start w : TcapWorld) (ops : List TcapOp)
    (sound : BudgetsSound start)
    (finite : Transition.Meets TcapWorld.MergesFinite (TcapWorld.next thresh) start ops)
    (executed : Transition.exec (TcapWorld.next thresh) start ops = some w) :
    (∀ t, t ∈ w.core.cosInfo.tcaps ↔ (w.core.tcaps t).budget ≠ 0) ∧
      ∀ op w', TcapWorld.next thresh w op = some w' →
        w'.finiteTotal ≤ w.finiteTotal + w.given op ∧
        ∀ t, (w.core.tcaps t).budget ≠ tcapResInf → (w'.core.tcaps t).budget = tcapResInf →
          w.TransfersInfinite op t := by
  have kept : ∀ (before : TcapWorld) op after, BudgetsSound before → before.MergesFinite op →
      TcapWorld.next thresh before op = some after → BudgetsSound after :=
    fun _ _ _ sound finite stepped => (sound.next stepped).1 finite
  have final := Transition.exec_invariant kept sound finite executed
  exact ⟨final.active, fun op w' stepped =>
    ⟨(final.next stepped).2.total, (final.next stepped).2.infinite⟩⟩

theorem budgetsSound_boot (tcap thd : Nat) : BudgetsSound (TcapWorld.boot tcap thd) := by
  have budget : ∀ t, ((TcapWorld.boot tcap thd).core.tcaps t).budget =
      if t = tcap then tcapResInf else 0 := by
    intro t
    by_cases same : t = tcap
    · simp [TcapWorld.boot, same]
    · simp [TcapWorld.boot, same, Tcap.zero]
  refine ⟨⟨fun t => ?_, fun t => ?_⟩, fun t outside => ?_⟩
  · rw [budget]
    split_ifs <;> simp
  · rw [budget]
    by_cases same : t = tcap <;> simp [TcapWorld.boot, TcapCore.isActive, same, tcapResInf]
  · rw [budget, if_neg]
    simpa [TcapWorld.boot] using outside

instance (w : TcapWorld) (op : TcapOp) : Decidable (w.MergesFinite op) :=
  match op with
  | .merge dst rm => decidable_of_iff
      (dst ≠ rm → (w.core.tcaps rm).refcnt ≤ 1 → (w.core.tcaps rm).budget ≠ tcapResInf)
      ⟨fun finite _ _ same => by cases same; exact finite, fun finite => finite dst rm rfl⟩
  | .activate _ | .bind _ _ | .unbind _ _ | .delegate _ _ _ _ | .consume _ _ =>
    .isTrue nofun

theorem tcap_budgets_merge :
    ∃ w ∈ Transition.exec (TcapWorld.next 0) (TcapWorld.boot 0 10) mergeOps,
      (w.core.tcaps 1).budget = 150 ∧ 1 ∈ w.core.cosInfo.tcaps ∧ w.core.cosInfo.tcaps = [1, 0] := by
  obtain ⟨w, ran, budget, list⟩ :
      ∃ w ∈ Transition.exec (TcapWorld.next 0) (TcapWorld.boot 0 10) mergeOps,
        (w.core.tcaps 1).budget = 150 ∧ w.core.cosInfo.tcaps = [1, 0] := by
    decide +kernel
  have active := (tcap_budgets 0 (TcapWorld.boot 0 10) w mergeOps (budgetsSound_boot 0 10)
    (by decide +kernel) ran).1
  exact ⟨w, ran, budget, (active 1).mpr (by rw [budget]; decide), list⟩

/-- The new tcap gets the whole infinite budget of the boot tcap.  When its end-points
are gone it is merged back: its budget is cleared, and it stays on the list. -/
def mergeInfiniteOps : List TcapOp :=
  [.activate 1, .bind 1 11, .bind 1 12, .delegate 1 0 0 1, .unbind 1 12, .unbind 1 11, .merge 0 1]

theorem tcap_budgets_merge_infinite :
    ∃ w ∈ Transition.exec (TcapWorld.next 0) (TcapWorld.boot 0 10) mergeInfiniteOps,
      1 ∈ w.core.cosInfo.tcaps ∧ (w.core.tcaps 1).budget = 0 := by
  decide +kernel

end Composite
