import Composite.Kernel.Dispatch
import Composite.Kernel.Tcap.Delegations

/-!
# Which tcap ranks higher

`tcap_higher_prio` walks over two delegation lists at once and compares the priorities of
the schedulers that both lists name.  `tcap_wakeup` asks it about a tcap under another
priority than its own, which it stores in the list for the comparison and takes out again.
-/

namespace Composite

namespace Tcap

/-- From these two entries on, the first list has no larger number than the second for a
scheduler in both. -/
def AtMostFrom (a c : Tcap) (i j : Nat) : Prop :=
  ∀ k l, i ≤ k → k < a.ndelegs → j ≤ l → l < c.ndelegs → a.uid k = c.uid l →
    (a.delegations k).prio ≤ (c.delegations l).prio

variable {a c : Tcap} {i j : Nat}

theorem Increasing.le (increasing : a.Increasing) {k l : Nat} (order : k ≤ l)
    (inside : l < a.ndelegs) : a.uid k ≤ a.uid l := by
  rcases Nat.eq_or_lt_of_le order with rfl | less
  · exact le_rfl
  · exact Nat.le_of_lt (increasing k l less inside)

theorem AtMostFrom.symm_skip (increasing : a.Increasing) (smaller : c.uid j < a.uid i)
    (rest : AtMostFrom a c i (j + 1)) : AtMostFrom a c i j := by
  intro k l fromI inA fromJ inC same
  refine rest k l fromI inA ?_ inC same
  have above := increasing.le fromI inA
  refine Nat.lt_of_le_of_ne fromJ ?_
  rintro rfl
  omega

theorem AtMostFrom.skip (increasing : c.Increasing) (smaller : a.uid i < c.uid j)
    (rest : AtMostFrom a c (i + 1) j) : AtMostFrom a c i j := by
  intro k l fromI inA fromJ inC same
  refine rest k l ?_ inA fromJ inC same
  have above := increasing.le fromJ inC
  refine Nat.lt_of_le_of_ne fromI ?_
  rintro rfl
  omega

theorem AtMostFrom.mono {i' j' : Nat} (atMost : AtMostFrom a c i j) (laterI : i ≤ i')
    (laterJ : j ≤ j') : AtMostFrom a c i' j' := by
  intro k l fromI inA fromJ inC
  exact atMost k l (Nat.le_trans laterI fromI) inA (Nat.le_trans laterJ fromJ) inC

/-- A scheduler in both lists is at one place in each. -/
theorem AtMostFrom.both (increasingA : a.Increasing) (increasingC : c.Increasing)
    (shared : a.uid i = c.uid j) (atMost : (a.delegations i).prio ≤ (c.delegations j).prio)
    (rest : AtMostFrom a c (i + 1) (j + 1)) : AtMostFrom a c i j := by
  intro k l fromI inA fromJ inC same
  rcases Nat.eq_or_lt_of_le fromI with rfl | afterI
  · rcases Nat.eq_or_lt_of_le fromJ with rfl | afterJ
    · exact atMost
    · have larger := increasingC j l afterJ inC
      omega
  · rcases Nat.eq_or_lt_of_le fromJ with rfl | afterJ
    · have larger := increasingA i k afterI inA
      omega
    · exact rest k l afterI inA afterJ inC same

end Tcap

open Tcap

theorem higherPrioLoop_iff {a c : Tcap} (increasingA : a.Increasing) (increasingC : c.Increasing)
    {entries i j : Nat} (enough : a.ndelegs + c.ndelegs ≤ entries + i + j) :
    higherPrioLoop a c entries i j = true ↔ AtMostFrom a c i j := by
  induction entries generalizing i j with
  | zero =>
    refine iff_of_true rfl fun k l fromI inA fromJ inC => ?_
    omega
  | succ entries ih =>
    unfold higherPrioLoop
    by_cases more : i < a.ndelegs ∧ j < c.ndelegs
    · rw [if_pos more]
      rcases Nat.lt_trichotomy (a.delegations i).tcapUid (c.delegations j).tcapUid with
        smaller | shared | larger
      · rw [if_neg (Nat.lt_asymm smaller), if_pos smaller, ih (by omega)]
        exact ⟨.skip increasingC smaller, (·.mono (Nat.le_succ i) (Nat.le_refl j))⟩
      · rw [if_neg (Nat.not_lt_of_le shared.le), if_neg (Nat.not_lt_of_le shared.ge)]
        by_cases worse : (a.delegations i).prio > (c.delegations j).prio
        · rw [if_pos worse]
          refine iff_of_false Bool.false_ne_true fun atMost => ?_
          have here := atMost i j (Nat.le_refl i) more.1 (Nat.le_refl j) more.2 shared
          omega
        · rw [if_neg worse, ih (by omega)]
          exact ⟨.both increasingA increasingC shared (Nat.le_of_not_lt worse),
            (·.mono (Nat.le_succ i) (Nat.le_succ j))⟩
      · rw [if_pos larger, ih (by omega)]
        exact ⟨.symm_skip increasingA larger, (·.mono (Nat.le_refl i) (Nat.le_succ j))⟩
    · rw [if_neg more]
      refine iff_of_true rfl fun k l fromI inA fromJ inC => ?_
      omega

def RanksHigher (tcaps : Tcaps) (a c : Nat) : Prop :=
  (tcaps a).budget ≠ 0 ∧ (a = c ∨ AtMostFrom (tcaps a) (tcaps c) 0 0)

theorem tcapHigherPrio_iff {tcaps : Tcaps} {a c : Nat} (increasingA : (tcaps a).Increasing)
    (increasingC : (tcaps c).Increasing) :
    tcapHigherPrio tcaps a c = true ↔ RanksHigher tcaps a c := by
  unfold tcapHigherPrio RanksHigher
  by_cases expended : (tcaps a).budget = 0
  · simp [expended]
  · rw [if_neg expended]
    by_cases same : a = c
    · exact iff_of_true (if_pos same) ⟨expended, .inl same⟩
    · rw [if_neg same, higherPrioLoop_iff increasingA increasingC le_rfl]
      simp [expended, same]

/-! The priority that is stored for the comparison. -/

theorem Tcap.setprio_schedInfo (t : Tcap) (prio : Nat) :
    (t.setprio prio).setprio t.schedInfo.prio = t := by
  unfold Tcap.setprio Tcap.schedInfo
  simp

theorem Tcap.Increasing.setprio {t : Tcap} (increasing : t.Increasing) (prio : Nat) :
    (t.setprio prio).Increasing := by
  intro k l less inside
  rw [(t.sameIds_setprio prio).ids, (t.sameIds_setprio prio).ids]
  exact increasing k l less inside

namespace TcapCore

/-- `thd_next_thdinfo_update`. -/
def nextThdinfoUpdate (core : TcapCore) (thd tc prio budget : Nat) : TcapCore :=
  { core with cosInfo := { core.cosInfo with nextTi := ⟨some thd, some tc, prio, budget⟩ } }

def withPrio (core : TcapCore) (tc prio : Nat) : TcapCore := core.modify tc (·.setprio prio)

theorem withPrio_withPrio (core : TcapCore) (tc prio : Nat) :
    (core.withPrio tc prio).withPrio tc (core.tcaps tc).schedInfo.prio = core := by
  unfold withPrio modify
  simp [Tcap.setprio_schedInfo]

end TcapCore

/-- `tcap_wakeup` with its stores to the tcap. -/
def tcapWakeupStores (core : TcapCore) (tc prio budget thd : Nat) : Except Fault TcapCore :=
  let nti := core.cosInfo.nextTi
  let tmpprio := (core.tcaps tc).schedInfo.prio
  match nti.tc with
  | none =>
    if nti.thd.isSome then .error .assertion
    else .ok (core.nextThdinfoUpdate thd tc prio budget)
  | some saved =>
    if tc = saved ∧ prio ≥ nti.prio then .ok (core.nextThdinfoUpdate thd tc prio budget)
    else
      let raised := core.withPrio tc prio
      let ret := tcapHigherPrio raised.tcaps tc saved
      let core := raised.withPrio tc tmpprio
      if ret then .ok (core.nextThdinfoUpdate thd tc prio budget) else .ok core

theorem tcapWakeupStores_eq : tcapWakeupStores = Core.tcapWakeup := by
  funext core tc prio budget thd
  unfold tcapWakeupStores Core.tcapWakeup
  simp only [TcapCore.withPrio_withPrio]
  rfl

def Replaces (core : TcapCore) (tc prio : Nat) : Prop :=
  core.cosInfo.nextTi.tc = none ∨
    (core.cosInfo.nextTi.tc = some tc ∧ core.cosInfo.nextTi.prio ≤ prio) ∨
    ∃ saved, core.cosInfo.nextTi.tc = some saved ∧
      RanksHigher (core.withPrio tc prio).tcaps tc saved

theorem withPrio_increasing {core : TcapCore} {t : Nat} (increasing : (core.tcaps t).Increasing)
    (tc prio : Nat) : ((core.withPrio tc prio).tcaps t).Increasing := by
  unfold TcapCore.withPrio TcapCore.modify
  by_cases isTc : t = tc
  · subst isTc
    simpa using increasing.setprio prio
  · simpa [isTc] using increasing

section

variable {core : TcapCore} {tc prio budget thd : Nat}
  (increasing : (core.tcaps tc).Increasing)
  (savedIncreasing : ∀ saved, core.cosInfo.nextTi.tc = some saved → (core.tcaps saved).Increasing)
  (noThread : core.cosInfo.nextTi.tc = none → core.cosInfo.nextTi.thd = none)
include increasing savedIncreasing noThread

theorem tcapWakeup_saves :
    (Replaces core tc prio → tcapWakeupStores core tc prio budget thd =
      .ok (core.nextThdinfoUpdate thd tc prio budget)) ∧
      (¬Replaces core tc prio → tcapWakeupStores core tc prio budget thd = .ok core) := by
  unfold tcapWakeupStores Replaces
  cases saved : core.cosInfo.nextTi.tc with
  | none => simp [saved, noThread saved]
  | some other =>
    have ranks := tcapHigherPrio_iff (withPrio_increasing increasing tc prio)
      (withPrio_increasing (savedIncreasing other saved) tc prio)
    simp only [saved, TcapCore.withPrio_withPrio, Option.some.injEq, reduceCtorEq, false_or,
      exists_eq_left', ← ranks]
    by_cases later : tc = other ∧ prio ≥ core.cosInfo.nextTi.prio
    · rw [if_pos later]
      exact ⟨fun _ => rfl, fun kept => absurd (.inl ⟨later.1.symm, later.2⟩) kept⟩
    · rw [if_neg later]
      cases higher : tcapHigherPrio (core.withPrio tc prio).tcaps tc other with
      | true => simp
      | false =>
        refine ⟨fun replaced => ?_, fun _ => rfl⟩
        obtain ⟨same, atLeast⟩ | absurd := replaced
        · exact (later ⟨same.symm, atLeast⟩).elim
        · exact (Bool.false_ne_true absurd).elim

end

/-- The order of two tcaps, and the thread that a wakeup leaves to be run next. -/
theorem higher_prio_and_wakeup (core : TcapCore) (tc other : Nat)
    (increasing : (core.tcaps tc).Increasing) (otherIncreasing : (core.tcaps other).Increasing) :
    (tcapHigherPrio core.tcaps tc other = true ↔ RanksHigher core.tcaps tc other) ∧
      ∀ prio budget thd, (∀ saved, core.cosInfo.nextTi.tc = some saved → saved = other) →
        (core.cosInfo.nextTi.tc = none → core.cosInfo.nextTi.thd = none) →
        ∃ core', tcapWakeupStores core tc prio budget thd = .ok core' ∧
          core'.tcaps = core.tcaps ∧
          (Replaces core tc prio →
            core'.cosInfo = { core.cosInfo with nextTi := ⟨some thd, some tc, prio, budget⟩ }) ∧
          (¬Replaces core tc prio → core'.cosInfo = core.cosInfo) := by
  refine ⟨tcapHigherPrio_iff increasing otherIncreasing, ?_⟩
  intro prio budget thd isSaved noThread
  have savedIncreasing : ∀ saved, core.cosInfo.nextTi.tc = some saved →
      (core.tcaps saved).Increasing := by
    intro saved isTc
    rw [isSaved saved isTc]
    exact otherIncreasing
  obtain ⟨replaced, kept⟩ := @tcapWakeup_saves core tc prio budget thd increasing savedIncreasing
    noThread
  by_cases replaces : Replaces core tc prio
  · exact ⟨_, replaced replaces, rfl, fun _ => rfl, fun not => absurd replaces not⟩
  · exact ⟨_, kept replaces, rfl, fun yes => absurd yes replaces, fun _ => rfl⟩

/-- Each of the tcaps 0 and 1 has a scheduler that the other does not have, before the one
that they share. -/
def wakeupCore : TcapCore where
  tcaps t := ⟨none, 1, 5, 2, 1, 0, 0, fun k => if k = 0 then ⟨t + 1, 9⟩ else ⟨3, t + 2⟩⟩
  cosInfo := ⟨0, 6, 0, ⟨some 7, some 1, 3, 0⟩, 0, [0, 1], 4, 0, 0⟩

theorem wakeupCore_increasing {t : Nat} (first : t < 2) : (wakeupCore.tcaps t).Increasing := by
  intro k l less inside
  change l < 2 at inside
  obtain ⟨rfl, rfl⟩ : k = 0 ∧ l = 1 := by omega
  change t + 1 < 3
  omega

theorem higher_prio_and_wakeup_saved :
    RanksHigher wakeupCore.tcaps 0 1 ∧
      ∃ core', tcapWakeupStores wakeupCore 0 3 9 8 = .ok core' ∧
        core'.cosInfo.nextTi = ⟨some 8, some 0, 3, 9⟩ := by
  have first := wakeupCore_increasing Nat.two_pos
  have second := wakeupCore_increasing Nat.one_lt_two
  obtain ⟨ranks, wakeup⟩ := higher_prio_and_wakeup wakeupCore 0 1 first second
  refine ⟨ranks.mp (by decide), ?_⟩
  obtain ⟨core', woken, -, replaced, -⟩ := wakeup 3 9 8
    (fun saved isSaved => (Option.some.inj isSaved).symm) (by decide)
  have higher : RanksHigher (wakeupCore.withPrio 0 3).tcaps 0 1 :=
    (tcapHigherPrio_iff (withPrio_increasing first 0 3) (withPrio_increasing second 0 3)).mp
      (by decide)
  exact ⟨core', woken, by rw [replaced (.inr (.inr ⟨1, rfl, higher⟩))]⟩

end Composite
