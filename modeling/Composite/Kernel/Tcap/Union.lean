import Composite.Kernel.Tcap.Delegations

/-!
# The list of a delegation

The loop of `tcap_delegate` computes the union of two delegation lists, and the
destination of the delegation gets that union.
-/

namespace Composite

open SortedMerge List

namespace Tcap

def prioOf (t : Tcap) (uid : Nat) : Option Nat :=
  (t.entries.find? (·.tcapUid = uid)).map (·.prio)

variable {t : Tcap} {k : Nat}

theorem Ordered.prioOf_eq (ordered : t.Ordered) {n : TcapSchedInfo} (member : n ∈ t.entries) :
    t.prioOf n.tcapUid = some n.prio := by
  unfold prioOf
  cases found : t.entries.find? (·.tcapUid = n.tcapUid) with
  | none => simpa using List.find?_eq_none.mp found n member
  | some other =>
    have same : other.tcapUid = n.tcapUid := by simpa using List.find?_some found
    rw [ordered.sorted.eq_of_key (mem_of_find?_eq_some found) member same]
    rfl

theorem prioOf_eq_none {uid : Nat} (absent : ∀ n ∈ t.entries, n.tcapUid ≠ uid) :
    t.prioOf uid = none := by
  unfold prioOf
  rw [List.find?_eq_none.mpr fun n member => by simpa using absent n member]
  rfl

end Tcap

theorem TcapSchedInfo.weaker_prio (own other : TcapSchedInfo) :
    (own.weaker other).prio = max own.prio other.prio := by
  unfold weaker
  split_ifs with larger
  · exact (max_eq_left larger.le).symm
  · exact (max_eq_right (not_lt.mp larger)).symm

/-- The priority of a scheduler after a delegation between the tcaps `d` and `s`. -/
def delegatedPrio (dst src : Tcap) (d s prio uid : Nat) : Nat :=
  if uid = d ∨ uid = s then prio
  else
    match dst.prioOf uid, src.prioOf uid with
    | some own, some other => max own other
    | some own, none => own
    | none, some other => other
    | none, none => 0

section Delegate

variable {core : TcapCore} {dst src : Tcap} {d s prio : Nat} {si cycles : Nat}

theorem delegated_entry (dstOrdered : dst.Ordered) (srcOrdered : src.Ordered) {n : TcapSchedInfo}
    (member : n ∈ dst.union src) :
    (n.grant s prio).grant d prio = ⟨n.tcapUid, delegatedPrio dst src d s prio n.tcapUid⟩ := by
  have own : (n.grant s prio).grant d prio =
      ⟨n.tcapUid, if n.tcapUid = d ∨ n.tcapUid = s then prio else n.prio⟩ := by
    by_cases isSrc : n.tcapUid = s
    · rw [show n.grant s prio = { n with prio := prio } from if_pos isSrc, if_pos (.inr isSrc)]
      unfold TcapSchedInfo.grant
      split_ifs <;> rfl
    · rw [show n.grant s prio = n from if_neg isSrc]
      unfold TcapSchedInfo.grant
      simp only [isSrc, or_false]
      split_ifs <;> rfl
  rw [own]
  unfold delegatedPrio
  congr 2
  cases mem_merge dstOrdered.sorted srcOrdered.sorted member with
  | first found alone =>
    rw [dstOrdered.prioOf_eq found, Tcap.prioOf_eq_none alone]
  | second found alone =>
    rw [srcOrdered.prioOf_eq found, Tcap.prioOf_eq_none alone]
  | @both x y found found' equal =>
    have dstPrio := dstOrdered.prioOf_eq found
    rw [equal] at dstPrio
    rw [TcapSchedInfo.weaker_uid, TcapSchedInfo.weaker_prio, dstPrio, srcOrdered.prioOf_eq found']

theorem setDelegations_entries (t : Tcap) {tmp : List TcapSchedInfo}
    (sorted : Sorted TcapSchedInfo.tcapUid tmp) {own : TcapSchedInfo}
    (located : tmp[si]? = some own) (named : own.tcapUid = d) :
    (t.setDelegations tmp si prio).entries = tmp.map (·.grant d prio) := by
  obtain ⟨siBound, atSi⟩ := List.getElem?_eq_some_iff.mp located
  refine ext_getElem (by simp [Tcap.entries, Tcap.entriesFrom, Tcap.setDelegations, Tcap.setprio])
    ?_
  intro k boundEntries boundTmp
  have bound : k < tmp.length := by simpa using boundTmp
  have entry : (t.setDelegations tmp si prio).entries[k] =
      (t.setDelegations tmp si prio).delegations k := by
    simp [Tcap.entries, Tcap.entriesFrom]
  rw [entry, getElem_map]
  unfold Tcap.setDelegations Tcap.setprio Tcap.schedInfo TcapSchedInfo.grant
  by_cases here : k = si
  · subst here
    simp [located, atSi, named]
  · have other : tmp[k].tcapUid ≠ d := by
      intro same
      rcases Nat.lt_or_gt_of_ne here with before | after
      · have smaller := pairwise_iff_getElem.mp sorted k si bound siBound before
        rw [atSi, same, named] at smaller
        exact smaller.false
      · have smaller := pairwise_iff_getElem.mp sorted si k siBound bound after
        rw [atSi, same, named] at smaller
        exact smaller.false
    simp [here, other, bound]

theorem budgetXfer_permitted {dst src : Nat} (active : core.isActive src)
    (onCore : (core.tcaps src).cpuid = core.cosInfo.cpuid)
    (sameCore : (core.tcaps dst).cpuid = (core.tcaps src).cpuid)
    (permitted : cycles = tcapResInf → (core.tcaps src).budget = tcapResInf) :
    ∃ core', tcapBudgetXfer core dst src cycles = .ok (0, core') := by
  unfold tcapBudgetXfer
  simp only
  rw [if_neg (not_not.mpr active), if_neg (by simp [onCore, sameCore])]
  by_cases infinite : (if cycles = 0 then (core.tcaps src).budget else cycles) = tcapResInf
  · have source : (core.tcaps src).budget = tcapResInf := by
      by_cases whole : cycles = 0
      · rwa [if_pos whole] at infinite
      · exact permitted (by rwa [if_neg whole] at infinite)
    rw [if_pos infinite, if_neg (not_not.mpr source)]
    exact ⟨_, rfl⟩
  · rw [if_neg infinite]
    exact ⟨_, rfl⟩

theorem delegated_entries (t : Tcap) {m : DelegMerge} (dstOrdered : dst.Ordered)
    (srcOrdered : src.Ordered) (merged : Merged dst src d m) (found : m.si = some si)
    (collected : m.tmp = (dst.union src).map (·.grant s prio)) :
    (t.setDelegations m.tmp si prio).entries =
      ((dst.schedulers ∪ src.schedulers).sort (· ≤ ·)).map
        fun uid => ⟨uid, delegatedPrio dst src d s prio uid⟩ := by
  obtain ⟨own, located, named⟩ := merged.position si found
  have sorted : Sorted TcapSchedInfo.tcapUid m.tmp :=
    collected ▸ Tcap.sorted_granted dstOrdered srcOrdered s prio
  rw [setDelegations_entries t sorted located named, collected, map_map, ← Tcap.keys_union,
    ← (Tcap.sorted_union dstOrdered srcOrdered).sort_keys, map_map]
  exact map_congr_left fun n member => delegated_entry dstOrdered srcOrdered member

theorem merging_permitted {dst src : Nat} {m : DelegMerge} (apart : dst ≠ src)
    {d : Nat} (merged : Merged (core.tcaps dst) (core.tcaps src) d m) (active : core.isActive src)
    (onCore : (core.tcaps src).cpuid = core.cosInfo.cpuid)
    (sameCore : (core.tcaps dst).cpuid = (core.tcaps src).cpuid)
    (permitted : cycles = tcapResInf → (core.tcaps src).budget = tcapResInf) :
    ∃ core', tcapBudgetXfer (core.merging dst src m) dst src cycles = .ok (0, core') := by
  have atSrc : (core.merging dst src m).tcaps src = m.src := by
    unfold TcapCore.merging
    rw [modify_tcaps, if_pos rfl]
  have atDst : (core.merging dst src m).tcaps dst = m.dst := by
    unfold TcapCore.merging
    rw [modify_tcaps, if_neg apart, modify_tcaps, if_pos rfl]
  refine budgetXfer_permitted active ?_ ?_ ?_
  · rw [atSrc, merged.srcKept.frame]
    exact onCore
  · rw [atDst, atSrc, merged.dstKept.frame, merged.srcKept.frame]
    exact sameCore
  · rw [atSrc, merged.srcKept.frame]
    exact permitted

theorem grant_permitted {dst src : Nat} (prio : Nat) {m : DelegMerge} (several : 2 ≤ m.tmp.length)
    (found : m.si = some si)
    (transferred : ∃ core', tcapBudgetXfer core dst src cycles = .ok (0, core')) :
    ∃ core', tcapGrant core dst src cycles prio m =
      .ok (0, TcapCore.modify core' dst fun t => t.setDelegations m.tmp si prio) := by
  obtain ⟨core', transfer⟩ := transferred
  refine ⟨core', ?_⟩
  unfold tcapGrant
  rw [transfer, Checked.ok_bind]
  simp only
  rw [if_neg (not_not.mpr rfl), if_neg (Nat.not_lt.mpr several), found]

/-- A permitted delegation succeeds exactly when the schedulers of both tcaps fit into
one list, and the destination then has that list. -/
theorem delegation_union {dst src cycles d s : Nat} (bound : (core.tcaps dst).arcvEp ≠ none)
    (onCore : (core.tcaps src).cpuid = core.cosInfo.cpuid)
    (sameCore : (core.tcaps dst).cpuid = (core.tcaps src).cpuid) (active : core.isActive src)
    (permitted : cycles = tcapResInf → (core.tcaps src).budget = tcapResInf)
    (dstOrdered : (core.tcaps dst).Ordered) (srcOrdered : (core.tcaps src).Ordered)
    (dstOwned : (core.tcaps dst).Owned d) (srcOwned : (core.tcaps src).Owned s)
    (different : d ≠ s) :
    let union := (core.tcaps dst).schedulers ∪ (core.tcaps src).schedulers
    let requested := if prio = 0 then (core.tcaps src).schedInfo.prio else prio
    ∃ ret core', tcapDelegate core dst src cycles prio = .ok (ret, core') ∧
      (ret = 0 ↔ union.card ≤ tcapMaxDelegations) ∧
      (ret = 0 → (core'.tcaps dst).entries = (union.sort (· ≤ ·)).map
        fun uid => ⟨uid, delegatedPrio (core.tcaps dst) (core.tcaps src) d s requested uid⟩) := by
  intro union requested
  have apart : dst ≠ src := by
    rintro rfl
    exact different (dstOwned.2.symm.trans srcOwned.2)
  have short := dstOrdered.short
  have dstUid : (core.tcaps dst).schedInfo.tcapUid = d := dstOwned.2
  have srcUid : (core.tcaps src).schedInfo.tcapUid = s := srcOwned.2
  unfold tcapDelegate
  simp only
  rw [if_neg bound, if_neg (Nat.not_lt.mpr short), if_neg (by simp [onCore, sameCore]),
    if_neg (not_not.mpr active), if_neg apart]
  rcases ran : DelegMerge.run (core.tcaps dst) (core.tcaps src) requested with ⟨ret, m⟩
  have looped := run_union dstOrdered srcOrdered ran
  have merged := merged_run ran
  simp only [dstUid, srcUid] at looped merged ⊢
  by_cases fits : union.card ≤ tcapMaxDelegations
  · rw [if_pos fits] at looped
    obtain ⟨rfl, collected⟩ := looped
    rw [if_neg (not_not.mpr rfl)]
    have several : 2 ≤ m.tmp.length := by
      rw [collected, List.length_map, Tcap.length_union dstOrdered srcOrdered]
      exact Finset.one_lt_card.mpr ⟨d, Finset.mem_union_left _ dstOwned.mem_schedulers, s,
        Finset.mem_union_right _ srcOwned.mem_schedulers, different⟩
    -- the destination is among the schedulers of the union
    obtain ⟨n, member, named⟩ := mem_keys.mp
      (Tcap.keys_union ▸ Finset.mem_union_left _ dstOwned.mem_schedulers)
    obtain ⟨si, found⟩ := Option.isSome_iff_exists.mp <| merged.located (n.grant s requested)
      (collected ▸ mem_map_of_mem member) ((TcapSchedInfo.grant_uid _ _ _).trans named)
    obtain ⟨core', granted⟩ := grant_permitted requested several found
      (merging_permitted apart merged active onCore sameCore permitted)
    refine ⟨0, _, granted, by simp [fits], fun _ => ?_⟩
    rw [modify_tcaps, if_pos rfl]
    exact delegated_entries _ dstOrdered srcOrdered merged found collected
  · rw [if_neg fits] at looped
    subst looped
    have failed : -Errno.enomem ≠ 0 := by decide
    rw [if_pos failed]
    exact ⟨_, _, rfl, iff_of_false failed fits, fun succeeded => absurd succeeded failed⟩

end Delegate

def delegatedTcap (own prio : Nat) : Tcap :=
  ⟨some own, 2, 100, 2, 1, 0, prio, fun k => if k = 0 then ⟨0, own + 6⟩ else ⟨own, prio⟩⟩

theorem delegatedTcap_ordered {own prio : Nat} (positive : 0 < own) :
    (delegatedTcap own prio).Ordered where
  short := show 2 ≤ tcapMaxDelegations by decide
  increasing := by
    intro k l before bound
    have small : l < 2 := bound
    obtain ⟨rfl, rfl⟩ : k = 0 ∧ l = 1 := by omega
    exact positive

def delegatingCore : TcapCore where
  tcaps := fun t => delegatedTcap t (t + 2)
  cosInfo := ⟨0, 1, 0, .clear, 1, [1, 2], 3, 0, 0⟩

/-- Both lists have the scheduler 0. -/
theorem delegation_union_shared : ∃ core', tcapDelegate delegatingCore 1 2 10 9 = .ok (0, core') ∧
    (core'.tcaps 1).entries = [⟨0, 8⟩, ⟨1, 9⟩, ⟨2, 9⟩] := by
  obtain ⟨ret, core', delegated, succeeds, listed⟩ :=
    @delegation_union delegatingCore 9 1 2 10 1 2 (by decide) rfl rfl (by decide) (by decide)
      (delegatedTcap_ordered Nat.one_pos) (delegatedTcap_ordered Nat.two_pos) ⟨by decide, rfl⟩
      ⟨by decide, rfl⟩ (by decide)
  have schedulers : (delegatingCore.tcaps 1).schedulers ∪ (delegatingCore.tcaps 2).schedulers =
      [0, 1, 2].toFinset := by decide
  rw [schedulers] at succeeds listed
  obtain rfl : ret = 0 := succeeds.mpr (by decide)
  refine ⟨core', delegated, ?_⟩
  rw [listed rfl, (List.toFinset_sort (· ≤ ·) (by decide)).mpr (by decide)]
  decide

end Composite
