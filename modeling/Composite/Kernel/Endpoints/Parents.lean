import Composite.Lib.Forest
import Composite.Kernel.Dispatch.Steps
import Composite.Kernel.Endpoints.Counts

/-!
# The tree of receive end-points

The parent of an end-point is kept in its thread, and its distance from the root in
the receive capabilities that name the thread.  The check of the distance bounds the
tree only if the two agree, which they do as long as no receive capability outlives
the end-point it was made for.
-/

namespace Composite

open Procedure Kernel Forest

namespace Threads

def parent (threads : Threads) (t : Nat) : Option Nat :=
  if (threads t).rcvcap.isbound then threads.arcvNotif t else none

variable {threads threads' : Threads} {thd tcap notif t depth : Nat}

theorem parent_eq_some {above : Nat} :
    threads.parent t = some above ↔
      (threads t).rcvcap.isbound = true ∧ threads.arcvNotif t = some above := by
  unfold parent
  split <;> simp_all

theorem parent_unbound (unbound : (threads t).rcvcap.isbound = false) :
    threads.parent t = none := by
  simp [parent, unbound]

theorem isbound_of_linked (linked : Linked threads.parent depth t) :
    (threads t).rcvcap.isbound = true := by
  by_contra unbound
  exact linked.ne_none (parent_unbound (by simpa using unbound))

theorem parent_congr (same : ∀ t, (threads' t).rcvcap = (threads t).rcvcap) :
    threads'.parent = threads.parent := by
  funext t
  simp only [parent, arcvNotif, same]

theorem parent_bind :
    (threads.bind thd tcap notif).parent = Function.update threads.parent thd (some notif) := by
  funext t
  by_cases self : t = thd
  · simp [parent, arcvNotif, bind_rcvcap, self]
  · simp [parent, arcvNotif, bind_rcvcap, self]

theorem parent_release :
    (threads.release thd).parent = Function.update threads.parent thd none := by
  funext t
  by_cases self : t = thd
  · simp [parent, release_rcvcap, self]
  · simp [parent, arcvNotif, release_rcvcap, self]

theorem notifyLoop_ok {left : Nat} (linked : Linked threads.parent depth t)
    (near : depth ≤ left) :
    ∃ final, threads.notifyLoop left t (threads.arcvNotif t) = .ok final := by
  induction depth generalizing threads t left with
  | zero =>
    rw [(parent_eq_some.mp linked).2]
    cases left <;> simp [notifyLoop]
  | succ depth ih =>
    obtain ⟨above, different, isParent, rest⟩ := linked
    obtain ⟨left, rfl⟩ : ∃ fewer, left = fewer + 1 := ⟨left - 1, by omega⟩
    rw [(parent_eq_some.mp isParent).2, notifyLoop, if_neg different]
    dsimp only
    split
    · exact ⟨_, rfl⟩
    · refine ih ?_ (by omega)
      rwa [parent_congr (listsOnly_evtEnqueue threads above t).rcvcap]

theorem notifyParent_ok (linked : Linked threads.parent depth t) (near : depth < arcvNotifDepth) :
    ∃ final, threads.notifyParent t = .ok final :=
  notifyLoop_ok linked near.le

end Threads

namespace Kernel

/-- The end-points form a forest, and every receive capability names one of them with
its distance from the root. -/
structure Rooted (k : Kernel) : Prop where
  finite : {t | (k.threads t).rcvcap.isbound = true}.Finite
  counted : ∀ notif, (k.threads.notifying notif).ncard ≤ (k.threads notif).rcvcap.refcnt
  linked : ∀ t, (k.threads t).rcvcap.isbound = true →
    ∃ depth < arcvNotifDepth, Linked k.threads.parent depth t
  named : ∀ arcv, k.NamesArcv arcv → Linked k.threads.parent arcv.depth arcv.thd

/-- `arcv_deactivate` does not refuse to tear down the end-point of the thread. -/
def TearsDown (k : Kernel) (thd : Nat) : Prop :=
  (k.threads thd).rcvcap.refcnt = 0 ∧
    ∀ tcap ∈ (k.threads thd).rcvcap.rcvcapTcap,
      ¬((k.tcaps tcap).refcnt > 1 ∧ (k.tcaps tcap).arcvEp = some thd)

instance (k : Kernel) (thd : Nat) : Decidable (k.TearsDown thd) :=
  inferInstanceAs (Decidable (_ ∧ _))

/-- An end-point is torn down only through the last receive capability to its thread,
and that capability can be removed. -/
def RemovesLast (k : Kernel) : KernelEvent → Prop
  | .call issued =>
    ∀ place ∈ k.deactivated issued, k.TearsDown place.2.2.thd →
      captblRemovable (k.roots place.1) k.slots issued.args.a1 .arcv = .ok place.2.1 ∧
        ∀ addr arcv, (k.slots addr.1 addr.2).arcv? = some arcv →
          arcv.thd = place.2.2.thd → addr = place.2.1
  | _ => True

end Kernel

section Steps

variable {k k' : Kernel} {thd tcap : Nat}

namespace Kernel.Rooted

section

variable (rooted : k.Rooted)

include rooted

theorem finite_notifying (notif : Nat) : (k.threads.notifying notif).Finite :=
  rooted.finite.subset fun _ inside => inside.1

theorem shallow {arcv : CapArcv} (named : k.NamesArcv arcv) : arcv.depth < arcvNotifDepth := by
  have linked := rooted.named arcv named
  obtain ⟨depth, near, same⟩ := rooted.linked arcv.thd (Threads.isbound_of_linked linked)
  exact linked.unique same ▸ near

theorem same (kept : SameEndpoints k k') : k'.Rooted where
  finite := by simpa only [kept.rcvcap] using rooted.finite
  counted notif := by
    rw [kept.notifying, kept.rcvcap]
    exact rooted.counted notif
  linked t bound := by
    rw [Threads.parent_congr kept.rcvcap]
    rw [kept.rcvcap] at bound
    exact rooted.linked t bound
  named arcv named := by
    rw [Threads.parent_congr kept.rcvcap]
    exact rooted.named arcv (kept.named arcv named)

theorem bind {parent : CapArcv} (step : Bound k k' thd tcap parent) : k'.Rooted := by
  have outside := Threads.parent_unbound step.unbound
  have near := rooted.shallow step.below
  have depth : (parent.depth + 1) % 2 ^ 8 = parent.depth + 1 := by
    simp only [arcvNotifDepth] at near
    omega
  have attached := linked_attach outside (rooted.named parent step.below)
  constructor
  · refine (rooted.finite.insert thd).subset fun t bound => ?_
    by_cases self : t = thd
    · exact .inl self
    · exact .inr (by simpa [step.threads, Threads.bind_rcvcap, self] using bound)
  · intro notif
    have before := rooted.counted notif
    rw [step.threads, Threads.bind_rcvcap, Threads.notifying_bind step.unbound]
    by_cases same : notif = parent.thd
    · have fresh := Threads.notMem_notifying step.unbound notif
      simp only [if_pos same]
      rw [Set.ncard_insert_of_notMem fresh (rooted.finite_notifying _)]
      omega
    · simpa only [if_neg same, Nat.add_zero] using before
  · intro t bound
    rw [step.threads, Threads.parent_bind]
    by_cases self : t = thd
    · subst self
      exact ⟨parent.depth + 1, depth ▸ step.shallow, attached⟩
    · rw [step.threads, Threads.bind_rcvcap] at bound
      obtain ⟨distance, near, linked⟩ := rooted.linked t (by simpa [self] using bound)
      exact ⟨distance, near, linked.attach outside _⟩
  · intro arcv named
    rw [step.threads, Threads.parent_bind]
    rcases step.named arcv named with old | ⟨rfl, distance⟩
    · exact (rooted.named arcv old).attach outside _
    · rw [distance, depth]
      exact attached

theorem childless (zero : (k.threads thd).rcvcap.refcnt = 0) (child : Nat) :
    k.threads.parent child ≠ some thd := by
  intro isParent
  have empty : k.threads.notifying thd = ∅ := by
    rw [← Set.ncard_eq_zero (rooted.finite_notifying thd)]
    have := rooted.counted thd
    omega
  exact Set.notMem_empty child (empty ▸ Threads.parent_eq_some.mp isParent)

theorem release (step : Released k k' thd tcap) (bound : (k.threads thd).rcvcap.isbound = true)
    (last : ∀ arcv, k'.NamesArcv arcv → arcv.thd ≠ thd) : k'.Rooted := by
  have childless := rooted.childless step.childless
  constructor
  · refine rooted.finite.subset fun t bound => ?_
    simp only [step.threads, Threads.release_rcvcap, Set.mem_ofPred_eq] at bound
    split at bound
    · cases bound
    · exact bound
  · intro notif
    have before := rooted.counted notif
    rw [step.threads, Threads.release_rcvcap, Threads.notifying_release]
    by_cases parent : k.threads.arcvNotif thd = some notif
    · have inside : thd ∈ k.threads.notifying notif := ⟨bound, parent⟩
      have card := Set.ncard_sdiff_singleton_add_one inside (rooted.finite_notifying _)
      simp only [if_pos parent]
      omega
    · rw [Set.sdiff_singleton_eq_self fun inside => parent inside.2]
      simpa only [if_neg parent, Nat.sub_zero] using before
  · intro t bound
    rw [step.threads, Threads.parent_release]
    rw [step.threads, Threads.release_rcvcap] at bound
    by_cases self : t = thd
    · simp [self] at bound
    · obtain ⟨distance, near, linked⟩ := rooted.linked t (by simpa [self] using bound)
      exact ⟨distance, near, linked.detach childless self⟩
  · intro arcv named
    rw [step.threads, Threads.parent_release]
    exact (rooted.named arcv (step.named arcv named)).detach childless (last arcv named)

theorem step {event : KernelEvent} (removesLast : k.RemovesLast event)
    (step : EndpointStep k event k') : k'.Rooted := by
  cases step with
  | same kept => exact rooted.same kept
  | bound bound => exact rooted.bind bound
  | @released call table tcap addr arcvc called named held released removed =>
    subst called
    have linked := rooted.named arcvc ⟨addr, held⟩
    have tearsDown : k.TearsDown arcvc.thd := by
      refine ⟨released.childless, fun other isTcap => ?_⟩
      obtain rfl := Option.some.inj (released.boundTo.symm.trans isTcap)
      exact released.allowed
    obtain ⟨removable, last⟩ := removesLast _ named tearsDown
    refine rooted.release released (Threads.isbound_of_linked linked) ?_
    rintro arcv ⟨other, stillHeld⟩ same
    obtain ⟨before, different⟩ := removed removable other arcv stillHeld
    exact different (last other arcv before same)

end

end Kernel.Rooted

end Steps

/-- In every run of activations and deactivations of end-points, copies and moves, in
which no receive capability outlives the end-point it names, the parent relation has no
cycle besides the loops at the roots, every end-point is less than `arcvNotifDepth` links
away from a root, and `notify_parent` comes to its end. -/
theorem endpoint_parents (start k : Kernel) (events : List KernelEvent) (rooted : start.Rooted)
    (onEndpoints : ∀ event ∈ events, event.OnEndpoints)
    (removesLast : Transition.Meets Kernel.RemovesLast kernelNext start events)
    (executed : Transition.exec kernelNext start events = some k) :
    (∀ t, ¬Relation.TransGen (Below k.threads.parent) t t) ∧
      ∀ t, (k.threads t).rcvcap.isbound = true →
        (∃ depth < arcvNotifDepth, Linked k.threads.parent depth t) ∧
          ∃ final, k.threads.notifyParent t = .ok final := by
  have calls : Transition.Meets _ kernelNext start events := .of_mem onEndpoints start
  have kept : ∀ (before : Kernel) (event : KernelEvent) (after : Kernel), before.Rooted →
      event.OnEndpoints ∧ before.RemovesLast event → kernelNext before event = some after →
      after.Rooted := by
    rintro before event after rooted ⟨onEndpoints, removesLast⟩ stepped
    exact rooted.step removesLast (endpointStep_of_next onEndpoints stepped)
  have final := Transition.exec_invariant kept rooted (calls.and removesLast) executed
  constructor
  · intro t cycle
    -- The first link of the cycle shows that the thread is bound.
    obtain ⟨above, link, -⟩ := Relation.TransGen.head'_iff.mp cycle
    obtain ⟨depth, -, linked⟩ := final.linked t (Threads.parent_eq_some.mp link.1).1
    exact linked.acyclic cycle
  · intro t bound
    obtain ⟨depth, near, linked⟩ := final.linked t bound
    exact ⟨⟨depth, near, linked⟩, Threads.notifyParent_ok linked near⟩

theorem rootKernel_rooted : rootKernel.Rooted := by
  have loop : Threads.parent rootKernel.threads 1 = some 1 := rfl
  refine ⟨rootKernel_countsRight.finite, ?_, ?_, ?_⟩
  · intro notif
    simp only [rootKernel, rootKernel_notifying]
    by_cases root : notif = 1 <;> simp [rootThreads, root]
  · intro t bound
    obtain rfl := rootKernel_bound.mp bound
    exact ⟨0, by decide, loop⟩
  · intro arcv named
    rw [rootKernel_arcv named]
    exact loop

/-- A thread is bound below the root and another one below it; then the deactivation of
the first through a copy of its capability is refused. -/
def chainOfTwo : List KernelEvent :=
  [bindCall 36 16 28 32, bindCall 40 20 28 36, rootCall .cpy 36 4 44 0,
    rootCall .arcvDeactivate 44 0 0 0]

theorem endpoint_parents_chain :
    ∃ k ∈ Transition.exec kernelNext rootKernel chainOfTwo,
      k.threads.parent 3 = some 2 ∧ k.threads.parent 2 = some 1 ∧
        (∃ depth < arcvNotifDepth, Linked k.threads.parent depth 3) ∧
        ∃ final, k.threads.notifyParent 3 = .ok final := by
  obtain ⟨k, ran, lower, upper⟩ :
      ∃ k ∈ Transition.exec kernelNext rootKernel chainOfTwo,
        k.threads.parent 3 = some 2 ∧ k.threads.parent 2 = some 1 := by
    decide +kernel
  have removesLast : Transition.Meets Kernel.RemovesLast kernelNext rootKernel chainOfTwo := by
    have refused : ∀ m ∈ Transition.exec kernelNext rootKernel (chainOfTwo.take 3),
        ∀ place ∈ m.deactivated ⟨0, 10, 4, ⟨.arcvDeactivate, 44, 0, 0, 0⟩, ⟨0, 0⟩⟩,
          ¬m.TearsDown place.2.2.thd := by
      decide +kernel
    refine ⟨nofun, fun first bound => ⟨nofun, fun second below => ⟨nofun, fun third copied => ?_⟩⟩⟩
    have reached : Transition.exec kernelNext rootKernel (chainOfTwo.take 3) = some third := by
      simp [chainOfTwo, Transition.exec, bound, below, copied]
    exact ⟨fun place named tears => absurd tears (refused third reached place named), fun _ _ =>
      trivial⟩
  have forest := endpoint_parents rootKernel k chainOfTwo rootKernel_rooted
    (by decide) removesLast ran
  have bound : (k.threads 3).rcvcap.isbound = true := (Threads.parent_eq_some.mp lower).1
  exact ⟨k, ran, lower, upper, (forest.2 3 bound).1, (forest.2 3 bound).2⟩

/-- The end-point of thread 2 is torn down through a copy of its receive capability.
Thread 3 is bound below the capability that is left, and thread 2 again below that of
thread 3: each of them notifies the other.  Once both wait to receive, the assertion of
`notify_parent` fails. -/
theorem endpoint_parents_cycle :
    rootKernel.Rooted ∧
      ∃ k ∈ Transition.exec kernelNext rootKernel
          [bindCall 36 16 24 32, rootCall .cpy 36 4 40 0, rootCall .arcvDeactivate 40 0 0 0,
            bindCall 44 20 28 36, bindCall 48 16 24 44],
        k.threads.parent 2 = some 3 ∧ k.threads.parent 3 = some 2 ∧
          (Threads.notifyParent (fun t => { k.threads t with state := ⟨false, true⟩ }) 2).isOk =
            false :=
  ⟨rootKernel_rooted, by decide +kernel⟩

end Composite
