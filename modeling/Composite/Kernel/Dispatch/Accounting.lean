import Composite.Kernel.Dispatch.Scheduling
import Composite.Kernel.Tcap.Budgets

/-!
# The time that is charged

An update of the budgets charges the cycles since the last one to the current tcap and to a
thread.  The cycle counter has 64 bits, a budget and the time of a thread have 32.
-/

namespace Composite

open Transition

namespace Core

/-- `tcap_budgets_update`: whether the budget is used up, and the core. -/
def tcapBudgetsUpdate (thresh : Nat) (s : Core) (t : Nat) : Bool × Core :=
  let s' := s.budgetsUpdate thresh t
  (decide ((s'.tcaps s.cosInfo.currTcap).budget = 0), s')

def budgetAfter (thresh budget elapsed : Nat) : Nat :=
  if elapsed ≥ budget ∨ cyclesSame elapsed budget thresh then 0 else budget - elapsed

variable {thresh : Nat} {s : Core} {t : Nat}

theorem tcapConsume_budget {core : TcapCore} {tc cycles : Nat}
    (finite : (core.tcaps tc).budget ≠ tcapResInf) :
    ((tcapConsume thresh core tc cycles).tcaps tc).budget =
      budgetAfter thresh (core.tcaps tc).budget cycles := by
  unfold tcapConsume budgetAfter
  rw [if_neg finite]
  split_ifs
  · change ((core.modify tc Tcap.declassify).tcaps tc).budget = 0
    rw [modify_tcaps, if_pos rfl]
    rfl
  · rw [modify_tcaps, if_pos rfl]

theorem budgetsUpdate_budget (t : Nat)
    (finite : (s.tcaps s.cosInfo.currTcap).budget ≠ tcapResInf) :
    ((s.budgetsUpdate thresh t).tcaps s.cosInfo.currTcap).budget =
      budgetAfter thresh (s.tcaps s.cosInfo.currTcap).budget (s.expended % 2 ^ 32) :=
  tcapConsume_budget finite

theorem budgetsUpdate_cycles (t : Nat) : (s.budgetsUpdate thresh t).cosInfo.cycles = s.tsc := by
  change (tcapConsume thresh _ _ _).cosInfo.cycles = _
  unfold tcapConsume
  split_ifs <;> rfl

theorem budgetsUpdate_exec (t : Nat) :
    ((s.budgetsUpdate thresh t).threads t).exec = ((s.threads t).exec + s.expended) % 2 ^ 32 := by
  change ((s.threads.modify t _) t).exec = _
  rw [Threads.modify_apply, if_pos rfl]

/-- Only the current tcap and the thread are charged. -/
theorem budgetsUpdate_others (thresh : Nat) (s : Core) (thd : Nat) :
    (∀ t, t ≠ s.cosInfo.currTcap → (s.budgetsUpdate thresh thd).tcaps t = s.tcaps t) ∧
      ∀ other, other ≠ thd → (s.budgetsUpdate thresh thd).threads other = s.threads other := by
  refine ⟨fun t other => charged_of_ne thresh other, fun t other => ?_⟩
  dsimp only [budgetsUpdate, withThreads]
  exact (Threads.modify_apply ..).trans (if_neg other)

theorem budgetAfter_mod_iff {budget elapsed : Nat} (finite : budget < tcapResInf) :
    budgetAfter thresh budget (elapsed % 2 ^ 32) = budgetAfter thresh budget elapsed ↔
      elapsed < 2 ^ 32 ∨ budget ≤ elapsed % 2 ^ 32 + thresh := by
  unfold tcapResInf at finite
  unfold budgetAfter cyclesSame
  simp only [decide_eq_true_eq]
  by_cases small : elapsed < 2 ^ 32
  · rw [Nat.mod_eq_of_lt small]
    exact iff_of_true rfl (.inl small)
  · have all : elapsed ≥ budget := by omega
    rw [if_pos (Or.inl all)]
    simp only [small, false_or]
    split_ifs <;> omega

end Core

/-! Runs with the charges that were made. -/

structure Charge where
  tcap : Nat
  tcapCycles : Nat
  thd : Nat
  thdCycles : Int

structure Ledger where
  core : Core
  charges : List Charge

inductive LedgerEvent where
  | update (thd : Nat)
  | other (core : Core)

namespace Ledger

def next (thresh : Nat) (l : Ledger) : LedgerEvent → Option Ledger
  | .update thd =>
    let core := (l.core.tcapBudgetsUpdate thresh thd).2
    some ⟨core, ⟨l.core.cosInfo.currTcap, l.core.expended % 2 ^ 32, thd,
      (core.threads thd).exec - (l.core.threads thd).exec⟩ :: l.charges⟩
  | .other core =>
    if core.cosInfo.cycles = l.core.cosInfo.cycles ∧ l.core.tsc ≤ core.tsc then
      some ⟨core, l.charges⟩
    else none

def Fits (l : Ledger) : LedgerEvent → Prop
  | .update thd =>
    (l.core.threads thd).exec + (l.core.tsc - l.core.cosInfo.cycles) < 2 ^ 32
  | .other _ => True

instance (l : Ledger) (event : LedgerEvent) : Decidable (l.Fits event) := by
  unfold Fits
  cases event <;> infer_instance

def tcapTotal (l : Ledger) : Nat := (l.charges.map Charge.tcapCycles).sum

def thdTotal (l : Ledger) : Int := (l.charges.map Charge.thdCycles).sum

structure Balanced (start : Nat) (l : Ledger) : Prop where
  past : l.core.cosInfo.cycles ≤ l.core.tsc
  tcaps : start + l.tcapTotal = l.core.cosInfo.cycles
  thds : start + l.thdTotal = l.core.cosInfo.cycles

variable {thresh start : Nat} {l l' : Ledger} {event : LedgerEvent}

theorem expended_eq (past : l.core.cosInfo.cycles ≤ l.core.tsc)
    (fits : l.core.tsc - l.core.cosInfo.cycles < 2 ^ 32) :
    l.core.expended = l.core.tsc - l.core.cosInfo.cycles := by
  unfold Core.expended
  omega

theorem Balanced.next (balanced : Balanced start l) (fits : l.Fits event)
    (stepped : l.next thresh event = some l') : Balanced start l' := by
  obtain ⟨past, tcaps, thds⟩ := balanced
  cases event with
  | update thd =>
    have expended := expended_eq past (Nat.lt_of_le_of_lt (Nat.le_add_left _ _) fits)
    have exec := @Core.budgetsUpdate_exec thresh l.core thd
    have cycles := @Core.budgetsUpdate_cycles thresh l.core thd
    unfold Fits at fits
    rw [expended, Nat.mod_eq_of_lt fits] at exec
    cases stepped
    refine ⟨Nat.le_of_eq cycles, ?_, ?_⟩
    · unfold tcapTotal at tcaps ⊢
      change _ = (l.core.budgetsUpdate thresh thd).cosInfo.cycles
      rw [cycles, List.map_cons, List.sum_cons, expended]
      simp only
      omega
    · unfold thdTotal at thds ⊢
      change _ = (((l.core.budgetsUpdate thresh thd).cosInfo.cycles : Nat) : Int)
      rw [cycles, List.map_cons, List.sum_cons]
      change (start : Int) + (((((l.core.budgetsUpdate thresh thd).threads thd).exec : Nat) : Int) -
        (l.core.threads thd).exec + _) = _
      rw [exec]
      omega
  | other core =>
    unfold Ledger.next at stepped
    simp only at stepped
    split_ifs at stepped with kept
    cases stepped
    refine ⟨?_, tcaps.trans kept.1.symm, thds.trans (by rw [kept.1])⟩
    change core.cosInfo.cycles ≤ core.tsc
    omega

theorem balanced_run {events : List LedgerEvent} {last : Ledger}
    (past : l.core.cosInfo.cycles ≤ l.core.tsc) (clean : l.charges = [])
    (executed : exec (next thresh) l events = some last)
    (meets : Meets Fits (next thresh) l events) : Balanced l.core.cosInfo.cycles last := by
  refine exec_invariant (fun _ _ _ kept fits stepped => kept.next fits stepped) ?_ meets executed
  exact ⟨past, by simp [tcapTotal, clean], by simp [thdTotal, clean]⟩

end Ledger

/-- Which tcap and which thread an update charges, what it leaves of the budget of the current
tcap, and where the elapsed cycles were charged over a run. -/
theorem budgets_charged (thresh : Nat) :
    (∀ (s : Core) (thd : Nat),
      (∀ t, t ≠ s.cosInfo.currTcap → (s.tcapBudgetsUpdate thresh thd).2.tcaps t = s.tcaps t) ∧
      ∀ other, other ≠ thd → (s.tcapBudgetsUpdate thresh thd).2.threads other = s.threads other) ∧
    (∀ (s : Core) (thd : Nat), (s.tcaps s.cosInfo.currTcap).budget < tcapResInf →
      ((((s.tcapBudgetsUpdate thresh thd).2.tcaps s.cosInfo.currTcap).budget =
          Core.budgetAfter thresh (s.tcaps s.cosInfo.currTcap).budget s.expended ↔
        s.expended < 2 ^ 32 ∨
          (s.tcaps s.cosInfo.currTcap).budget ≤ s.expended % 2 ^ 32 + thresh) ∧
      ((s.tcapBudgetsUpdate thresh thd).1 = true ↔
        ((s.tcapBudgetsUpdate thresh thd).2.tcaps s.cosInfo.currTcap).budget = 0))) ∧
    ∀ (start : Core) (events : List LedgerEvent) (last : Ledger),
      start.cosInfo.cycles ≤ start.tsc →
      exec (Ledger.next thresh) ⟨start, []⟩ events = some last →
      Meets Ledger.Fits (Ledger.next thresh) ⟨start, []⟩ events →
      start.cosInfo.cycles + last.tcapTotal = last.core.cosInfo.cycles ∧
        start.cosInfo.cycles + last.thdTotal = last.core.cosInfo.cycles := by
  refine ⟨Core.budgetsUpdate_others thresh, fun s thd finite => ⟨?_, decide_eq_true_iff⟩, ?_⟩
  · have budget := @Core.budgetsUpdate_budget thresh s thd (Nat.ne_of_lt finite)
    change ((s.budgetsUpdate thresh thd).tcaps s.cosInfo.currTcap).budget = _ ↔ _
    rw [budget]
    exact Core.budgetAfter_mod_iff finite
  · intro start events last past executed meets
    have balanced := Ledger.balanced_run past rfl executed meets
    exact ⟨balanced.tcaps, balanced.thds⟩

def lateCore (elapsed : Nat) : Core :=
  { freshCore ⟨⟨0, 2⟩, 6, 7⟩ with
    tsc := elapsed
    tcaps := fun _ => ⟨some 1, 2, 100, 1, 0, 0, 0, fun _ => ⟨0, 0⟩⟩ }

theorem budgets_charged_late :
    (((lateCore 10).tcapBudgetsUpdate 0 1).2.tcaps 0).budget = 90 ∧
      ∃ last, exec (Ledger.next 0) ⟨lateCore 10, []⟩ [.update 1] = some last ∧
        last.tcapTotal = 10 := by
  obtain ⟨-, budget, charges⟩ := budgets_charged 0
  constructor
  · exact (budget (lateCore 10) 1 (by decide)).1.mpr (by decide)
  · refine ⟨_, rfl, ?_⟩
    have charged := (charges (lateCore 10) [.update 1] _ (by decide) rfl (by decide)).1
    exact (Nat.zero_add _).symm.trans charged

/-- After more than `2 ^ 32` cycles the budget of 100 is not used up, and most of them are
charged to no tcap and to no thread. -/
theorem budgets_undercharged :
    ((lateCore (2 ^ 32 + 10)).expended = 2 ^ 32 + 10 ∧
      (((lateCore (2 ^ 32 + 10)).tcapBudgetsUpdate 0 1).2.tcaps 0).budget = 90 ∧
      ((lateCore (2 ^ 32 + 10)).tcapBudgetsUpdate 0 1).1 = false) ∧
      ∃ last, exec (Ledger.next 0) ⟨lateCore (2 ^ 32 + 10), []⟩ [.update 1] = some last ∧
        last.core.cosInfo.cycles = 2 ^ 32 + 10 ∧ last.tcapTotal = 10 ∧ last.thdTotal = 10 := by
  refine ⟨by decide +kernel, _, rfl, by decide +kernel⟩

end Composite
