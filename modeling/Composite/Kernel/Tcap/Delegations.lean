import Composite.Lib.SortedMerge
import Composite.Kernel.Tcap.Operations

/-!
# The delegation lists of tcaps

The list of a tcap is ordered by the ids of the schedulers and has an entry for
the tcap itself.  The loop of `tcap_delegate` merges two such lists.
-/

namespace Composite

open Function List SortedMerge

namespace Tcap

def uid (t : Tcap) (k : Nat) : Nat := (t.delegations k).tcapUid

def Increasing (t : Tcap) : Prop := ∀ k l, k < l → l < t.ndelegs → t.uid k < t.uid l

structure Ordered (t : Tcap) : Prop where
  short : t.ndelegs ≤ tcapMaxDelegations
  increasing : t.Increasing

def Owned (t : Tcap) (own : Nat) : Prop := t.currSchedOff < t.ndelegs ∧ t.uid t.currSchedOff = own

structure SameIds (t t' : Tcap) : Prop where
  count : t'.ndelegs = t.ndelegs
  offset : t'.currSchedOff = t.currSchedOff
  ids : ∀ k, t'.uid k = t.uid k

/-- The tcaps differ at most in the priorities of their lists. -/
structure SameButPrios (t t' : Tcap) : Prop where
  frame : t' = { t with delegations := t'.delegations }
  ids : ∀ k, t'.uid k = t.uid k

variable {t t' t'' : Tcap} {own : Nat}

theorem SameIds.refl (t : Tcap) : SameIds t t := ⟨rfl, rfl, fun _ => rfl⟩

theorem SameIds.trans (first : SameIds t t') (second : SameIds t' t'') : SameIds t t'' :=
  ⟨second.count.trans first.count, second.offset.trans first.offset,
    fun k => (second.ids k).trans (first.ids k)⟩

theorem SameIds.ordered (same : SameIds t t') (ordered : t.Ordered) : t'.Ordered where
  short := same.count ▸ ordered.short
  increasing := by
    intro k l before bound
    rw [same.ids, same.ids]
    exact ordered.increasing k l before (same.count ▸ bound)

theorem SameIds.owned (same : SameIds t t') (owned : t.Owned own) : t'.Owned own := by
  unfold Owned
  rw [same.count, same.offset, same.ids]
  exact owned

theorem sameIds_update (t : Tcap) (k : Nat) {n : TcapSchedInfo} (same : n.tcapUid = t.uid k) :
    SameIds t { t with delegations := update t.delegations k n } := by
  refine ⟨rfl, rfl, fun l => ?_⟩
  by_cases here : l = k
  · subst here
    simpa [uid] using same
  · simp [uid, here]

theorem sameIds_setprio (t : Tcap) (prio : Nat) : SameIds t (t.setprio prio) :=
  sameIds_update t t.currSchedOff rfl

theorem SameButPrios.refl (t : Tcap) : t.SameButPrios t := ⟨rfl, fun _ => rfl⟩

theorem SameButPrios.trans (first : t.SameButPrios t') (second : t'.SameButPrios t'') :
    t.SameButPrios t'' :=
  ⟨second.frame.trans (by rw [first.frame]), fun k => (second.ids k).trans (first.ids k)⟩

theorem SameButPrios.sameIds (same : t.SameButPrios t') : t.SameIds t' :=
  ⟨by rw [same.frame], by rw [same.frame], same.ids⟩

theorem Ordered.of_single (single : t.ndelegs = 1) : t.Ordered where
  short := by
    rw [single]
    decide
  increasing := by
    intro k l before bound
    omega

theorem declassify_owned (owned : t.Owned own) : t.declassify.Owned own := by
  refine ⟨Nat.one_pos, ?_⟩
  rw [← owned.2]
  unfold declassify uid schedInfo
  by_cases first : t.currSchedOff = 0 <;> simp [first]

end Tcap

@[simp]
theorem TcapSchedInfo.grant_uid (n : TcapSchedInfo) (s prio : Nat) :
    (n.grant s prio).tcapUid = n.tcapUid := by
  unfold grant
  split_ifs <;> rfl

namespace Tcap

/-- The entries of the delegation list from index `k` on. -/
def entriesFrom (t : Tcap) (k : Nat) : List TcapSchedInfo :=
  (List.range' k (t.ndelegs - k)).map t.delegations

def entries (t : Tcap) : List TcapSchedInfo := t.entriesFrom 0

def schedulers (t : Tcap) : Finset Nat := keys TcapSchedInfo.tcapUid t.entries

variable {t : Tcap} {k : Nat}

theorem entriesFrom_of_lt (more : k < t.ndelegs) :
    t.entriesFrom k = t.delegations k :: t.entriesFrom (k + 1) := by
  have count : t.ndelegs - k = t.ndelegs - (k + 1) + 1 := by omega
  unfold entriesFrom
  rw [count, List.range'_succ, map_cons]

theorem entriesFrom_of_le (done : t.ndelegs ≤ k) : t.entriesFrom k = [] := by
  unfold entriesFrom
  rw [Nat.sub_eq_zero_of_le done]
  rfl

theorem entriesFrom_update (t : Tcap) {l : Nat} (before : l < k) (n : TcapSchedInfo) :
    ({ t with delegations := Function.update t.delegations l n } : Tcap).entriesFrom k =
      t.entriesFrom k := by
  refine map_congr_left fun index inRange => ?_
  have after := (mem_range'_1.mp inRange).1
  exact Function.update_of_ne (by omega) _ _

theorem mem_entries {n : TcapSchedInfo} :
    n ∈ t.entries ↔ ∃ k < t.ndelegs, t.delegations k = n := by
  simp [entries, entriesFrom, mem_range'_1]

theorem Ordered.sorted (ordered : t.Ordered) : Sorted TcapSchedInfo.tcapUid t.entries := by
  refine pairwise_map.mpr ?_
  have indices : (List.range' 0 t.ndelegs).Pairwise (· < ·) := pairwise_lt_range'
  refine indices.imp_of_mem ?_
  intro k l _ inRange before
  have bound := (mem_range'_1.mp inRange).2
  exact ordered.increasing k l before (by omega)

theorem Owned.mem_schedulers {own : Nat} (owned : t.Owned own) : own ∈ t.schedulers :=
  mem_keys.mpr ⟨_, mem_entries.mpr ⟨t.currSchedOff, owned.1, rfl⟩, owned.2⟩

end Tcap

def TcapSchedInfo.weaker (own other : TcapSchedInfo) : TcapSchedInfo :=
  if own.prio > other.prio then { other with prio := own.prio } else other

theorem TcapSchedInfo.weaker_uid (own other : TcapSchedInfo) :
    (own.weaker other).tcapUid = other.tcapUid := by
  unfold weaker
  split_ifs <;> rfl

namespace Tcap

/-- The entries of both lists; a scheduler in both gets the larger number. -/
def union (dst src : Tcap) : List TcapSchedInfo :=
  merge TcapSchedInfo.tcapUid TcapSchedInfo.weaker dst.entries src.entries

variable {dst src : Tcap}

theorem keys_union :
    keys TcapSchedInfo.tcapUid (dst.union src) = dst.schedulers ∪ src.schedulers :=
  keys_merge fun x y _ => TcapSchedInfo.weaker_uid x y

theorem sorted_union (dstOrdered : dst.Ordered) (srcOrdered : src.Ordered) :
    Sorted TcapSchedInfo.tcapUid (dst.union src) :=
  sorted_merge (fun x y _ => TcapSchedInfo.weaker_uid x y) dstOrdered.sorted srcOrdered.sorted

theorem length_union (dstOrdered : dst.Ordered) (srcOrdered : src.Ordered) :
    (dst.union src).length = (dst.schedulers ∪ src.schedulers).card :=
  length_merge (fun x y _ => TcapSchedInfo.weaker_uid x y) dstOrdered.sorted srcOrdered.sorted

/-- Granting a priority leaves the ids alone. -/
theorem sorted_granted (dstOrdered : dst.Ordered) (srcOrdered : src.Ordered) (s prio : Nat) :
    Sorted TcapSchedInfo.tcapUid ((dst.union src).map (·.grant s prio)) := by
  refine pairwise_map.mpr ?_
  simp only [TcapSchedInfo.grant_uid]
  exact sorted_union dstOrdered srcOrdered

end Tcap

namespace DelegMerge

def rest (m : DelegMerge) : List TcapSchedInfo :=
  merge TcapSchedInfo.tcapUid TcapSchedInfo.weaker (m.dst.entriesFrom m.i) (m.src.entriesFrom m.j)

structure Within (m : DelegMerge) : Prop where
  dst : m.i ≤ m.dst.ndelegs
  src : m.j ≤ m.src.ndelegs

def unread (m : DelegMerge) : Nat := (m.dst.ndelegs - m.i) + (m.src.ndelegs - m.j)

variable {m : DelegMerge} {d s prio : Nat}

structure Reads (m : DelegMerge) (s prio : Nat) (taken : TcapSchedInfo × DelegMerge) : Prop where
  head : ∃ n, m.rest = n :: taken.2.rest ∧ taken.1 = n.grant s prio
  within : taken.2.Within
  fewer : taken.2.unread < m.unread
  collected : taken.2.tmp = m.tmp

theorem reads_takeSrc (within : m.Within) (more : m.j < m.src.ndelegs)
    (first : m.rest = m.src.delegations m.j ::
      merge TcapSchedInfo.tcapUid TcapSchedInfo.weaker (m.dst.entriesFrom m.i)
        (m.src.entriesFrom (m.j + 1))) :
    m.Reads s prio (m.takeSrc s prio) where
  head := by
    refine ⟨_, ?_, rfl⟩
    rw [first]
    unfold rest takeSrc
    simp only
    rw [Tcap.entriesFrom_update _ (Nat.lt_succ_self m.j)]
  within := ⟨within.dst, more⟩
  fewer := by
    simp only [takeSrc, unread]
    omega
  collected := rfl

theorem reads_takeDst (within : m.Within) (more : m.i < m.dst.ndelegs)
    (first : m.rest = m.dst.delegations m.i ::
      merge TcapSchedInfo.tcapUid TcapSchedInfo.weaker (m.dst.entriesFrom (m.i + 1))
        (m.src.entriesFrom m.j)) :
    m.Reads s prio (m.takeDst s prio) where
  head := by
    refine ⟨_, ?_, rfl⟩
    rw [first]
    unfold rest takeDst
    simp only
    rw [Tcap.entriesFrom_update _ (Nat.lt_succ_self m.i)]
  within := ⟨more, within.src⟩
  fewer := by
    simp only [takeDst, unread]
    omega
  collected := rfl

theorem reads_takeBoth (moreDst : m.i < m.dst.ndelegs) (moreSrc : m.j < m.src.ndelegs)
    (equal : (m.dst.delegations m.i).tcapUid = (m.src.delegations m.j).tcapUid) :
    m.Reads s prio (m.takeBoth s prio) where
  head := by
    refine ⟨_, ?_, rfl⟩
    unfold rest
    rw [Tcap.entriesFrom_of_lt moreDst, Tcap.entriesFrom_of_lt moreSrc, merge_both equal]
    rfl
  within := ⟨moreDst, moreSrc⟩
  fewer := by
    simp only [takeBoth, unread]
    omega
  collected := rfl

theorem reads_take (within : m.Within) (more : m.i < m.dst.ndelegs ∨ m.j < m.src.ndelegs) :
    m.Reads s prio (m.take s prio) := by
  have dstWithin := within.dst
  have srcWithin := within.src
  unfold take
  simp only
  split_ifs with dstDone srcLarger dstLarger
  · have moreSrc : m.j < m.src.ndelegs := by omega
    refine reads_takeSrc within moreSrc ?_
    unfold rest
    rw [Tcap.entriesFrom_of_le dstDone.ge, Tcap.entriesFrom_of_lt moreSrc, merge_nil_left,
      merge_nil_left]
  · have moreDst : m.i < m.dst.ndelegs := by omega
    refine reads_takeDst within moreDst ?_
    unfold rest
    rw [Tcap.entriesFrom_of_lt moreDst]
    by_cases srcDone : m.j = m.src.ndelegs
    · rw [Tcap.entriesFrom_of_le srcDone.ge, merge_nil_right, merge_nil_right]
    · have moreSrc : m.j < m.src.ndelegs := by omega
      rw [Tcap.entriesFrom_of_lt moreSrc, merge_left (srcLarger.resolve_left srcDone)]
  · have moreDst : m.i < m.dst.ndelegs := by omega
    have moreSrc : m.j < m.src.ndelegs := by omega
    refine reads_takeSrc within moreSrc ?_
    unfold rest
    rw [Tcap.entriesFrom_of_lt moreDst, Tcap.entriesFrom_of_lt moreSrc, merge_right dstLarger]
  · rw [not_or] at srcLarger
    exact reads_takeBoth (by omega) (by omega) (by omega)

theorem loop_collects {fuel : Nat} (within : m.Within) (enough : m.unread ≤ fuel)
    (room : m.tmp.length ≤ tcapMaxDelegations) :
    if m.tmp.length + m.rest.length ≤ tcapMaxDelegations then
      (loop d s prio fuel m).1 = 0 ∧
        (loop d s prio fuel m).2.tmp = m.tmp ++ m.rest.map (·.grant s prio)
    else (loop d s prio fuel m).1 = -Errno.enomem := by
  induction fuel generalizing m with
  | zero =>
    have ended : m.rest = [] := by
      unfold unread at enough
      unfold rest
      rw [Tcap.entriesFrom_of_le (by omega), Tcap.entriesFrom_of_le (by omega), merge_nil_left]
    simp [ended, room, loop]
  | succ fuel ih =>
    unfold loop
    by_cases more : m.i < m.dst.ndelegs ∨ m.j < m.src.ndelegs
    · rw [if_pos more]
      have reads : m.Reads s prio (m.take s prio) := reads_take within more
      obtain ⟨n, head, read⟩ := reads.head
      have fewer := reads.fewer
      simp only [reads.collected]
      rw [head, length_cons]
      by_cases full : m.tmp.length = tcapMaxDelegations
      · rw [if_pos full, if_neg (by omega)]
      · rw [if_neg full]
        have ran := @ih
          { (m.take s prio).2 with
            tmp := m.tmp ++ [(m.take s prio).1]
            si := if d = (m.take s prio).1.tcapUid then some m.tmp.length
              else (m.take s prio).2.si }
          ⟨reads.within.dst, reads.within.src⟩ (show (m.take s prio).2.unread ≤ fuel by omega)
          (by rw [length_append, length_singleton]; omega)
        have sameRest (tmp : List TcapSchedInfo) (si : Option Nat) :
            ({ (m.take s prio).2 with tmp := tmp, si := si } : DelegMerge).rest =
              (m.take s prio).2.rest := rfl
        rw [sameRest, length_append, length_singleton, Nat.add_assoc,
          Nat.add_comm 1] at ran
        simpa [read] using ran
    · rw [if_neg more]
      have ended : m.rest = [] := by
        unfold rest
        rw [Tcap.entriesFrom_of_le (by omega), Tcap.entriesFrom_of_le (by omega), merge_nil_left]
      simp [ended, room]

end DelegMerge

section Merge

open Tcap

variable {dst src : Tcap} {d s prio : Nat} {m : DelegMerge}

theorem run_union (dstOrdered : dst.Ordered) (srcOrdered : src.Ordered) {ret : Int}
    (ran : DelegMerge.run dst src prio = (ret, m)) :
    if (dst.schedulers ∪ src.schedulers).card ≤ tcapMaxDelegations then
      ret = 0 ∧ m.tmp = (dst.union src).map (·.grant src.schedInfo.tcapUid prio)
    else ret = -Errno.enomem := by
  have collects := @DelegMerge.loop_collects ⟨dst, src, 0, 0, [], none⟩ dst.schedInfo.tcapUid
    src.schedInfo.tcapUid prio (dst.ndelegs + src.ndelegs) ⟨Nat.zero_le _, Nat.zero_le _⟩ le_rfl
    (Nat.zero_le _)
  have rest : DelegMerge.rest ⟨dst, src, 0, 0, [], none⟩ = dst.union src := rfl
  unfold DelegMerge.run at ran
  rw [ran, rest, length_nil, Nat.zero_add, nil_append,
    length_union dstOrdered srcOrdered] at collects
  exact collects

/-- What a merge leaves: the priorities in the two lists may be others, and the position that
it notes is the one of the destination. -/
structure Merged (dst src : Tcap) (d : Nat) (m : DelegMerge) : Prop where
  dstKept : dst.SameButPrios m.dst
  srcKept : src.SameButPrios m.src
  position : ∀ si, m.si = some si → ∃ n, m.tmp[si]? = some n ∧ n.tcapUid = d
  located : ∀ n ∈ m.tmp, n.tcapUid = d → m.si.isSome = true

theorem take_kept (m : DelegMerge) (s prio : Nat) :
    m.dst.SameButPrios (m.take s prio).2.dst ∧ m.src.SameButPrios (m.take s prio).2.src ∧
      (m.take s prio).2.tmp = m.tmp ∧ (m.take s prio).2.si = m.si := by
  have granted (t : Tcap) (k : Nat) : t.SameButPrios
      { t with delegations := update t.delegations k ((t.delegations k).grant s prio) } :=
    ⟨rfl, (sameIds_update t k (TcapSchedInfo.grant_uid _ _ _)).ids⟩
  unfold DelegMerge.take
  simp only
  split_ifs
  · exact ⟨.refl _, granted m.src m.j, rfl, rfl⟩
  · exact ⟨granted m.dst m.i, .refl _, rfl, rfl⟩
  · exact ⟨.refl _, granted m.src m.j, rfl, rfl⟩
  · exact ⟨.refl _, .refl _, rfl, rfl⟩

theorem Merged.read (merged : Merged dst src d m) (s prio : Nat) :
    Merged dst src d (m.take s prio).2 := by
  obtain ⟨dstKept, srcKept, tmp, si⟩ := take_kept m s prio
  refine ⟨merged.dstKept.trans dstKept, merged.srcKept.trans srcKept, ?_, ?_⟩
  · rw [tmp, si]
    exact merged.position
  · rw [tmp, si]
    exact merged.located

theorem Merged.collect (merged : Merged dst src d m) (n : TcapSchedInfo) :
    Merged dst src d { m with
      tmp := m.tmp ++ [n]
      si := if d = n.tcapUid then some m.tmp.length else m.si } := by
  refine ⟨merged.dstKept, merged.srcKept, fun si found => ?_, fun other member equal => ?_⟩
  · by_cases here : d = n.tcapUid
    · rw [if_pos here, Option.some.injEq] at found
      subst found
      exact ⟨n, by simp, here.symm⟩
    · rw [if_neg here] at found
      obtain ⟨other, located, equal⟩ := merged.position si found
      refine ⟨other, ?_, equal⟩
      rw [List.getElem?_append_left (List.getElem?_eq_some_iff.mp located).1]
      exact located
  · by_cases here : d = n.tcapUid
    · rw [if_pos here]
      rfl
    · rw [if_neg here]
      refine merged.located other ((mem_append.mp member).resolve_right fun last => ?_) equal
      exact here (mem_singleton.mp last ▸ equal.symm)

/-- What reading an entry and collecting it keep, the loop keeps. -/
theorem loop_keeps {P : DelegMerge → Prop} (read : ∀ m, P m → P (m.take s prio).2)
    (collect : ∀ m n, P m → P { m with
      tmp := m.tmp ++ [n]
      si := if d = n.tcapUid then some m.tmp.length else m.si })
    (entries : Nat) (initially : P m) : P (DelegMerge.loop d s prio entries m).2 := by
  induction entries generalizing m with
  | zero => exact initially
  | succ entries ih =>
    unfold DelegMerge.loop
    by_cases more : m.i < m.dst.ndelegs ∨ m.j < m.src.ndelegs
    · rw [if_pos more]
      by_cases full : (m.take s prio).2.tmp.length = tcapMaxDelegations
      · simp only [if_pos full]
        exact read m initially
      · simp only [if_neg full]
        exact ih (collect _ _ (read m initially))
    · rw [if_neg more]
      exact initially

theorem merged_run {ret : Int} (ran : DelegMerge.run dst src prio = (ret, m)) :
    Merged dst src dst.schedInfo.tcapUid m := by
  have looped : Merged dst src dst.schedInfo.tcapUid (DelegMerge.run dst src prio).2 :=
    loop_keeps (fun _ merged => merged.read _ _) (fun _ n merged => merged.collect n) _
      ⟨.refl dst, .refl src, by simp, by simp⟩
  rwa [ran] at looped

theorem run_ordered (dstOrdered : dst.Ordered) (srcOrdered : src.Ordered)
    (ran : DelegMerge.run dst src prio = (0, m)) :
    m.tmp.length ≤ tcapMaxDelegations ∧ Sorted TcapSchedInfo.tcapUid m.tmp := by
  have collected := run_union dstOrdered srcOrdered ran
  split_ifs at collected with fits
  · rw [collected.2, length_map, length_union dstOrdered srcOrdered]
    exact ⟨fits, sorted_granted dstOrdered srcOrdered _ _⟩
  · cases collected

end Merge

structure ListsKept (core core' : TcapCore) : Prop where
  ordered : (∀ t, (core.tcaps t).Ordered) → ∀ t, (core'.tcaps t).Ordered
  owned : (∀ t, (core.tcaps t).Ordered) →
    ∀ t own, (core.tcaps t).Owned own → (core'.tcaps t).Owned own

section Lists

variable {core core' core'' : TcapCore}

theorem ListsKept.of_sameIds (same : ∀ t, (core.tcaps t).SameIds (core'.tcaps t)) :
    ListsKept core core' :=
  ⟨fun ordered t => (same t).ordered (ordered t), fun _ t _ owned => (same t).owned owned⟩

theorem ListsKept.refl (core : TcapCore) : ListsKept core core :=
  .of_sameIds fun _ => .refl _

theorem ListsKept.trans (first : ListsKept core core') (second : ListsKept core' core'') :
    ListsKept core core'' :=
  ⟨fun ordered => second.ordered (first.ordered ordered),
    fun ordered t own owned => second.owned (first.ordered ordered) t own
      (first.owned ordered t own owned)⟩

theorem listsKept_modify {t : Nat} {change : Tcap → Tcap}
    (ordered : (∀ t, (core.tcaps t).Ordered) → (change (core.tcaps t)).Ordered)
    (owned : (∀ t, (core.tcaps t).Ordered) → ∀ own, (core.tcaps t).Owned own →
      (change (core.tcaps t)).Owned own) :
    ListsKept core (core.modify t change) := by
  refine ⟨fun before other => ?_, fun before other own held => ?_⟩
  · rw [modify_tcaps]
    split_ifs
    · exact ordered before
    · exact before other
  · rw [modify_tcaps]
    split_ifs with same
    · exact owned before own (same ▸ held)
    · exact held

theorem listsKept_modify_sameIds (t : Nat) (change : Tcap → Tcap)
    (same : (core.tcaps t).SameIds (change (core.tcaps t))) :
    ListsKept core (core.modify t change) :=
  listsKept_modify (fun ordered => same.ordered (ordered t)) fun _ _ owned => same.owned owned

theorem listsKept_budgetXfer {d s cycles : Nat} {ret : Int}
    (result : tcapBudgetXfer core d s cycles = .ok (ret, core')) : ListsKept core core' := by
  refine .of_sameIds fun t => ?_
  rw [(budgetsOnly_budgetXfer result).tcaps t]
  exact ⟨rfl, rfl, fun _ => rfl⟩

end Lists

section Delegate

variable {core core' : TcapCore} {dst src : Tcap} {m : DelegMerge} {si prio : Nat}

theorem setDelegations_uid (t : Tcap) (tmp : List TcapSchedInfo) (k : Nat) :
    (t.setDelegations tmp si prio).uid k = ((tmp[k]?).getD (t.delegations k)).tcapUid :=
  (Tcap.sameIds_setprio _ prio).ids k

theorem setDelegations_ordered (t : Tcap) {tmp : List TcapSchedInfo}
    (short : tmp.length ≤ tcapMaxDelegations) (sorted : Sorted TcapSchedInfo.tcapUid tmp) :
    (t.setDelegations tmp si prio).Ordered := by
  refine ⟨short, fun k l before bound => ?_⟩
  have boundL : l < tmp.length := bound
  have boundK : k < tmp.length := before.trans boundL
  rw [setDelegations_uid, setDelegations_uid, getElem?_eq_getElem boundK,
    getElem?_eq_getElem boundL]
  exact pairwise_iff_getElem.mp sorted k l boundK boundL before

theorem Merged.setDelegations_owned {d : Nat} (merged : Merged dst src d m)
    (found : m.si = some si) (t : Tcap) : (t.setDelegations m.tmp si prio).Owned d := by
  obtain ⟨n, located, equal⟩ := merged.position si found
  refine ⟨(List.getElem?_eq_some_iff.mp located).1, ?_⟩
  rw [setDelegations_uid]
  change ((m.tmp[si]?).getD _).tcapUid = d
  rw [located]
  exact equal

theorem Tcap.Owned.schedInfo {t : Tcap} {own : Nat} (owned : t.Owned own) :
    t.schedInfo.tcapUid = own := owned.2

theorem listsKept_merging {dst src d : Nat} (merged : Merged (core.tcaps dst) (core.tcaps src) d m)
    (different : dst ≠ src) : ListsKept core (core.merging dst src m) := by
  refine ListsKept.trans (listsKept_modify_sameIds dst _ merged.dstKept.sameIds)
    (listsKept_modify_sameIds src _ ?_)
  rw [modify_tcaps, if_neg different.symm]
  exact merged.srcKept.sameIds

theorem listsKept_delegate {dst src cycles : Nat} {ret : Int}
    (outcome : DelegateOutcome core dst src cycles prio ret core') : ListsKept core core' := by
  cases outcome with
  | refused => exact .refl core
  | own =>
    refine listsKept_modify_sameIds dst _ ?_
    exact (Tcap.sameIds_setprio _ prio).trans ⟨rfl, rfl, fun _ => rfl⟩
  | noRoom different failed ran => exact listsKept_merging (merged_run ran) different
  | noBudget different _ _ ran transfer =>
    exact (listsKept_merging (merged_run ran) different).trans (listsKept_budgetXfer transfer)
  | delegated different ran transfer located =>
    have merged := merged_run ran
    have before := (listsKept_merging merged different).trans (listsKept_budgetXfer transfer)
    refine ⟨fun ordered t => ?_, fun ordered t own owned => ?_⟩
    · rw [modify_tcaps]
      split_ifs
      · obtain ⟨short, sorted⟩ := run_ordered (ordered dst) (ordered src) ran
        exact setDelegations_ordered _ short sorted
      · exact before.ordered ordered t
    · rw [modify_tcaps]
      split_ifs with same
      · subst same
        exact owned.schedInfo ▸ merged.setDelegations_owned located _
      · exact before.owned ordered t own owned

end Delegate

theorem listsKept_consume (thresh : Nat) (core : TcapCore) (t cycles : Nat) :
    ListsKept core (tcapConsume thresh core t cycles) := by
  unfold tcapConsume
  split_ifs
  · exact .refl core
  · have declassified : ListsKept core (core.modify t Tcap.declassify) :=
      listsKept_modify (fun _ => .of_single rfl) fun _ _ => Tcap.declassify_owned
    exact declassified.trans (.of_sameIds fun _ => .refl _)
  · exact listsKept_modify_sameIds t _ ⟨rfl, rfl, fun _ => rfl⟩

def TcapWorld.recordOwn (thresh : Nat) (w : TcapWorld) (op : TcapOp)
    (own : Nat → Option Nat) : Nat → Option Nat :=
  match op, perform thresh w.core op with
  | .activate t, _ => Function.update own t (some w.core.cosInfo.tcapUid)
  | .merge _ rm, .ok (0, _) => Function.update own rm none
  | _, _ => own

structure ListsSound (w : TcapWorld) (own : Nat → Option Nat) : Prop where
  ordered : ∀ t, (w.core.tcaps t).Ordered
  owned : ∀ t id, own t = some id → (w.core.tcaps t).Owned id

section Runs

variable {thresh : Nat} {w w' : TcapWorld} {own : Nat → Option Nat} {op : TcapOp}

theorem ListsSound.kept (sound : ListsSound w own) (kept : ListsKept w.core w'.core) :
    ListsSound w' own :=
  ⟨kept.ordered sound.ordered,
    fun t id given => kept.owned sound.ordered t id (sound.owned t id given)⟩

theorem tcapDelete_tcaps {core : TcapCore} {rm : Nat} (deleted : (tcapDelete core rm).1 = 0)
    (t : Nat) : (tcapDelete core rm).2.tcaps t =
      if t = rm then (core.tcaps rm).clear else core.tcaps t := by
  rw [← modify_tcaps core rm t Tcap.clear]
  unfold tcapDelete at deleted ⊢
  by_cases referenced : (core.tcaps rm).refcnt ≠ 1
  · rw [if_pos referenced] at deleted
    cases deleted
  · rw [if_neg referenced]
    simp only
    split_ifs <;> rfl

/-- A merge clears the tcap that it removes. -/
theorem ListsSound.merge (sound : ListsSound w own) {dst rm prio : Nat} {core : TcapCore}
    (outcome : DelegateOutcome w.core dst rm 0 prio 0 core) (deleted : (tcapDelete core rm).1 = 0)
    (after : w'.core = (tcapDelete core rm).2) :
    ListsSound w' (update own rm none) := by
  have kept := listsKept_delegate outcome
  refine ⟨fun t => ?_, fun t id given => ?_⟩
  · rw [after, tcapDelete_tcaps deleted]
    split_ifs
    · exact ⟨Nat.zero_le _, fun k l _ bound => absurd bound (Nat.not_lt_zero l)⟩
    · exact kept.ordered sound.ordered t
  · rw [after, tcapDelete_tcaps deleted]
    by_cases removed : t = rm
    · subst removed
      simp at given
    · rw [if_neg removed]
      rw [update_of_ne removed] at given
      exact kept.owned sound.ordered t id (sound.owned t id given)

theorem ListsSound.activate (sound : ListsSound w own) {t cpu id : Nat}
    (after : w'.core.tcaps = update w.core.tcaps t ((w.core.tcaps t).init cpu id)) :
    ListsSound w' (update own t (some id)) := by
  refine ⟨fun other => ?_, fun other own' given => ?_⟩
  · rw [after]
    by_cases same : other = t
    · subst same
      rw [update_self]
      exact .of_single rfl
    · rw [update_of_ne same]
      exact sound.ordered other
  · rw [after]
    by_cases same : other = t
    · subst same
      rw [update_self, Option.some.injEq] at given
      subst given
      rw [update_self]
      exact ⟨Nat.one_pos, by simp [Tcap.uid, Tcap.init]⟩
    · rw [update_of_ne same] at given ⊢
      exact sound.owned other own' given

/-- Every operation keeps the lists sound. -/
theorem ListsSound.next (sound : ListsSound w own)
    (stepped : TcapWorld.next thresh w op = some w') :
    ListsSound w' (TcapWorld.recordOwn thresh w op own) := by
  obtain ⟨-, ret, performed, -⟩ := TcapWorld.next_perform stepped
  obtain ⟨core', created'⟩ := w'
  unfold TcapWorld.recordOwn
  cases op with
  | activate t => exact sound.activate (by cases performed; rfl)
  | bind t thd =>
    refine sound.kept ?_
    cases performed
    exact listsKept_modify_sameIds t (·.bind thd) ⟨rfl, rfl, fun _ => rfl⟩
  | unbind t thd =>
    refine sound.kept ?_
    simp only [TcapWorld.perform] at performed
    split_ifs at performed
    · cases performed
      exact .refl _
    · cases performed
      exact listsKept_modify_sameIds t Tcap.unbind ⟨rfl, rfl, fun _ => rfl⟩
  | delegate dst src cycles prio =>
    exact sound.kept (listsKept_delegate (tcapDelegate_outcome performed))
  | merge dst rm =>
    simp only [performed]
    rcases tcapMerge_cases performed with ⟨failed, same⟩ |
      ⟨-, -, other, core, outcome, ⟨failed, -, rfl⟩ | ⟨rfl, rfl, after, deleted⟩⟩
    · split
      next => simp_all
      next => simp_all
      next => exact sound.kept (same ▸ .refl _)
    · split
      next => simp_all
      next => simp_all
      next => exact sound.kept (listsKept_delegate outcome)
    · exact sound.merge outcome deleted after
  | consume t cycles =>
    refine sound.kept ?_
    cases performed
    exact listsKept_consume thresh w.core t _

end Runs

/-- After any sequence of creations, delegations, merges and expirations every
delegation list is strictly increasing and fits its array, and the offset of every
tcap that was not merged into another points at the id it was created with. -/
theorem delegation_lists (thresh : Nat) (start w : TcapWorld) (own : Nat → Option Nat)
    (ops : List TcapOp) (sound : ListsSound start own)
    (executed : Transition.exec (TcapWorld.next thresh) start ops = some w) :
    let own := Transition.trace (TcapWorld.next thresh) (TcapWorld.recordOwn thresh) start ops own
    (∀ t, (w.core.tcaps t).ndelegs ≤ tcapMaxDelegations ∧
        ∀ k l, k < l → l < (w.core.tcaps t).ndelegs →
          ((w.core.tcaps t).delegations k).tcapUid < ((w.core.tcaps t).delegations l).tcapUid) ∧
      ∀ t id, own t = some id → (w.core.tcaps t).currSchedOff < (w.core.tcaps t).ndelegs ∧
        (w.core.tcaps t).schedInfo.tcapUid = id := by
  intro own
  have kept : ∀ (before : TcapWorld) op after own, ListsSound before own → True →
      TcapWorld.next thresh before op = some after →
        ListsSound after (TcapWorld.recordOwn thresh before op own) :=
    fun _ _ _ _ sound _ stepped => sound.next stepped
  have final : ListsSound w own := by
    apply Transition.exec_invariant_trace kept sound _ executed
    exact Transition.Meets.of_forall (fun _ _ => trivial) start ops
  exact ⟨fun t => ⟨(final.ordered t).short, (final.ordered t).increasing⟩, final.owned⟩

theorem listsSound_boot (tcap thd : Nat) :
    ListsSound (TcapWorld.boot tcap thd) (update (fun _ => none) tcap (some 0)) := by
  have empty : Tcap.zero.Ordered :=
    ⟨Nat.zero_le _, fun k l _ bound => absurd bound (Nat.not_lt_zero l)⟩
  refine ⟨fun t => ?_, fun t id given => ?_⟩
  · by_cases same : t = tcap
    · subst same
      exact .of_single (by simp [TcapWorld.boot])
    · simpa [TcapWorld.boot, same] using empty
  · by_cases same : t = tcap
    · subst same
      simp only [update_self, Option.some.injEq] at given
      simp [TcapWorld.boot, Tcap.Owned, Tcap.uid, Tcap.zero, given]
    · simp [same] at given

def mergeOps : List TcapOp :=
  [.activate 1, .bind 1 11, .delegate 1 0 100 7, .activate 2, .bind 2 12, .bind 2 13,
    .delegate 2 0 50 3, .unbind 2 13, .unbind 2 12, .merge 1 2]

theorem delegation_lists_merge :
    ∃ w ∈ Transition.exec (TcapWorld.next 0) (TcapWorld.boot 0 10) mergeOps,
      (w.core.tcaps 1).ndelegs = 3 ∧
        (w.core.tcaps 1).currSchedOff < (w.core.tcaps 1).ndelegs ∧
        (w.core.tcaps 1).schedInfo.tcapUid = 1 := by
  obtain ⟨w, ran, count⟩ :
      ∃ w ∈ Transition.exec (TcapWorld.next 0) (TcapWorld.boot 0 10) mergeOps,
        (w.core.tcaps 1).ndelegs = 3 := by
    decide +kernel
  refine ⟨w, ran, count, ?_⟩
  exact (delegation_lists 0 _ w _ mergeOps (listsSound_boot 0 10) ran).2 1 1 (by decide +kernel)

/-- The tcap that is merged into another has an empty list, and its offset does not
point at the id it was created with. -/
theorem delegation_lists_merged_away :
    ∃ w ∈ Transition.exec (TcapWorld.next 0) (TcapWorld.boot 0 10) mergeOps,
      2 ∈ w.created ∧ (w.core.tcaps 2).ndelegs = 0 ∧ (w.core.tcaps 2).schedInfo.tcapUid ≠ 2 := by
  decide +kernel

end Composite
