import Mathlib.Data.Set.Card
import Composite.Kernel.Endpoints.Step

/-!
# The counts of receive end-points

A tcap counts the threads that are bound to it, and a thread counts the bound
threads that notify it.  Activations and deactivations keep both.  The tcap also
has a receive thread of its own, which is to be one of the bound threads as long as
there is any; tearing down the end-point of another thread takes it away.
-/

namespace Composite

open Procedure Kernel Function Option

namespace Threads

def boundTo (threads : Threads) (tcap : Nat) : Set Nat :=
  {t | (threads t).rcvcap.isbound = true ∧ (threads t).rcvcap.rcvcapTcap = some tcap}

def notifying (threads : Threads) (notif : Nat) : Set Nat :=
  {t | (threads t).rcvcap.isbound = true ∧ threads.arcvNotif t = some notif}

variable {threads : Threads} {thd tcap notif : Nat}

section

variable (unbound : (threads thd).rcvcap.isbound = false)

include unbound

theorem notMem_boundTo (other : Nat) : thd ∉ threads.boundTo other :=
  fun inside => Bool.false_ne_true (unbound.symm.trans inside.1)

theorem notMem_notifying (other : Nat) : thd ∉ threads.notifying other :=
  fun inside => Bool.false_ne_true (unbound.symm.trans inside.1)

theorem boundTo_bind (other : Nat) :
    (threads.bind thd tcap notif).boundTo other =
      if other = tcap then insert thd (threads.boundTo other) else threads.boundTo other := by
  ext t
  by_cases self : t = thd
  · subst self
    by_cases same : other = tcap
    · simp [boundTo, bind_rcvcap, same]
    · simp [boundTo, bind_rcvcap, same, unbound, Ne.symm same]
  · by_cases same : other = tcap <;> simp [boundTo, bind_rcvcap, self, same]

theorem notifying_bind (other : Nat) :
    (threads.bind thd tcap notif).notifying other =
      if other = notif then insert thd (threads.notifying other) else threads.notifying other := by
  ext t
  by_cases self : t = thd
  · subst self
    by_cases same : other = notif
    · simp [notifying, arcvNotif, bind_rcvcap, same]
    · simp [notifying, arcvNotif, bind_rcvcap, same, unbound, Ne.symm same]
  · by_cases same : other = notif <;> simp [notifying, arcvNotif, bind_rcvcap, self, same]

end

theorem boundTo_release (other : Nat) :
    (threads.release thd).boundTo other = threads.boundTo other \ {thd} := by
  ext t
  by_cases self : t = thd <;> simp [boundTo, release_rcvcap, self]

theorem notifying_release (other : Nat) :
    (threads.release thd).notifying other = threads.notifying other \ {thd} := by
  ext t
  by_cases self : t = thd <;> simp [notifying, arcvNotif, release_rcvcap, self]

end Threads

namespace Kernel

structure CountsRight (k : Kernel) : Prop where
  finite : {t | (k.threads t).rcvcap.isbound = true}.Finite
  bound : ∀ t, (k.threads t).rcvcap.rcvcapTcap ≠ none → (k.threads t).rcvcap.isbound = true
  tcaps : ∀ tcap, k.memory.kobj tcap = .tcap →
    (k.tcaps tcap).refcnt = 1 + (k.threads.boundTo tcap).ncard
  threads : ∀ notif, k.memory.kobj notif = .thd →
    (k.threads notif).rcvcap.refcnt = (k.threads.notifying notif).ncard

structure Owned (k : Kernel) : Prop where
  owner : ∀ tcap, k.memory.kobj tcap = .tcap →
    (k.threads.boundTo tcap).Nonempty → (k.tcaps tcap).arcvEp ≠ none
  member : ∀ tcap, k.memory.kobj tcap = .tcap →
    ∀ thd, (k.tcaps tcap).arcvEp = some thd → thd ∈ k.threads.boundTo tcap

def SparesOwners (k : Kernel) : KernelEvent → Prop
  | .call issued =>
    ∀ place ∈ k.deactivated issued,
      ∀ tcap ∈ (k.threads place.2.2.thd).rcvcap.rcvcapTcap,
        (k.tcaps tcap).arcvEp = some place.2.2.thd
  | _ => True

instance (k : Kernel) (event : KernelEvent) : Decidable (k.SparesOwners event) := by
  induction event using KernelEvent.casesOn <;> unfold SparesOwners <;> infer_instance

end Kernel

section Steps

variable {k k' : Kernel} {thd tcap : Nat}

theorem SameEndpoints.boundTo (kept : SameEndpoints k k') (tcap : Nat) :
    k'.threads.boundTo tcap = k.threads.boundTo tcap := by
  simp only [Threads.boundTo, kept.rcvcap]

theorem SameEndpoints.notifying (kept : SameEndpoints k k') (notif : Nat) :
    k'.threads.notifying notif = k.threads.notifying notif := by
  simp only [Threads.notifying, Threads.arcvNotif, kept.rcvcap]

namespace Kernel.CountsRight

section

variable (right : k.CountsRight)

include right

theorem finite_boundTo (tcap : Nat) : (k.threads.boundTo tcap).Finite :=
  right.finite.subset fun _ inside => inside.1

theorem finite_notifying (notif : Nat) : (k.threads.notifying notif).Finite :=
  right.finite.subset fun _ inside => inside.1

theorem same (kept : SameEndpoints k k') : k'.CountsRight where
  finite := by simpa only [kept.rcvcap] using right.finite
  bound t := by simpa only [kept.rcvcap] using right.bound t
  tcaps other isTcap := by
    rw [kept.kobj] at isTcap
    rw [kept.tcaps, kept.boundTo]
    exact right.tcaps other isTcap
  threads notif isThd := by
    rw [kept.kobj] at isThd
    rw [kept.rcvcap, kept.notifying]
    exact right.threads notif isThd

theorem bind {parent : CapArcv} (step : Bound k k' thd tcap parent) : k'.CountsRight where
  finite := by
    refine (right.finite.insert thd).subset fun t bound => ?_
    by_cases self : t = thd
    · exact .inl self
    · exact .inr (by simpa [step.threads, Threads.bind_rcvcap, self] using bound)
  bound t isSome := by
    rw [step.threads, Threads.bind_rcvcap] at isSome ⊢
    by_cases self : t = thd
    · simp [self]
    · simp only [self, if_false] at isSome ⊢
      exact right.bound t isSome
  tcaps other isTcap := by
    rw [step.kobj] at isTcap
    have before := right.tcaps other isTcap
    rw [step.threads, step.tcaps, Threads.boundTo_bind step.unbound]
    by_cases same : other = tcap
    · subst same
      have fresh := Threads.notMem_boundTo step.unbound other
      rw [if_pos rfl, update_self, Set.ncard_insert_of_notMem fresh (right.finite_boundTo _)]
      simp only [Tcap.bind, before]
      omega
    · rw [if_neg same, update_of_ne same, before]
  threads notif isThd := by
    rw [step.kobj] at isThd
    have before := right.threads notif isThd
    rw [step.threads, Threads.bind_rcvcap, Threads.notifying_bind step.unbound]
    by_cases same : notif = parent.thd
    · have fresh := Threads.notMem_notifying step.unbound notif
      simp only [if_pos same, before]
      rw [Set.ncard_insert_of_notMem fresh (right.finite_notifying _)]
    · simp only [if_neg same, before, Nat.add_zero]

theorem released_mem (step : Released k k' thd tcap) : thd ∈ k.threads.boundTo tcap :=
  ⟨right.bound thd (by simp [step.boundTo]), step.boundTo⟩

theorem release (step : Released k k' thd tcap) : k'.CountsRight where
  finite := by
    refine right.finite.subset fun t bound => ?_
    simp only [step.threads, Threads.release_rcvcap, Set.mem_ofPred_eq] at bound
    split at bound
    · cases bound
    · exact bound
  bound t isSome := by
    rw [step.threads, Threads.release_rcvcap] at isSome ⊢
    by_cases self : t = thd
    · simp [self] at isSome
    · simp only [self, if_false] at isSome ⊢
      exact right.bound t isSome
  tcaps other isTcap := by
    rw [step.kobj] at isTcap
    have before := right.tcaps other isTcap
    have inside := right.released_mem step
    rw [step.threads, step.tcaps, Threads.boundTo_release]
    by_cases same : other = tcap
    · subst same
      have card := Set.ncard_sdiff_singleton_add_one inside (right.finite_boundTo _)
      rw [update_self]
      simp only [Tcap.unbind, before]
      omega
    · have outside : thd ∉ k.threads.boundTo other := fun bound => by
        have := bound.2.symm.trans step.boundTo
        exact same (some.inj this)
      rw [update_of_ne same, before, Set.sdiff_singleton_eq_self outside]
  threads notif isThd := by
    rw [step.kobj] at isThd
    have before := right.threads notif isThd
    rw [step.threads, Threads.release_rcvcap, Threads.notifying_release]
    simp only [before]
    by_cases parent : k.threads.arcvNotif thd = some notif
    · have inside : thd ∈ k.threads.notifying notif := ⟨(right.released_mem step).1, parent⟩
      have card := Set.ncard_sdiff_singleton_add_one inside (right.finite_notifying _)
      rw [if_pos parent]
      omega
    · rw [if_neg parent, Set.sdiff_singleton_eq_self fun inside => parent inside.2, Nat.sub_zero]

theorem step {event : KernelEvent} (step : EndpointStep k event k') : k'.CountsRight := by
  cases step with
  | same kept => exact right.same kept
  | bound bound => exact right.bind bound
  | released called named held released removed => exact right.release released

end

end Kernel.CountsRight

namespace Kernel.Owned

theorem same (owned : k.Owned) (kept : SameEndpoints k k') : k'.Owned where
  owner tcap isTcap := by
    rw [kept.kobj] at isTcap
    rw [kept.tcaps, kept.boundTo]
    exact owned.owner tcap isTcap
  member tcap isTcap := by
    rw [kept.kobj] at isTcap
    rw [kept.tcaps, kept.boundTo]
    exact owned.member tcap isTcap

/-- A tcap without a receive thread gets the thread that is bound. -/
theorem bind {parent : CapArcv} (owned : k.Owned) (step : Bound k k' thd tcap parent) :
    k'.Owned where
  owner other isTcap nonempty := by
    rw [step.kobj] at isTcap
    rw [step.threads, Threads.boundTo_bind step.unbound] at nonempty
    rw [step.tcaps]
    by_cases same : other = tcap
    · subst same
      rw [update_self]
      cases owner : (k.tcaps other).arcvEp <;> simp [Tcap.bind, owner]
    · rw [if_neg same] at nonempty
      rw [update_of_ne same]
      exact owned.owner other isTcap nonempty
  member other isTcap o isOwner := by
    rw [step.kobj] at isTcap
    rw [step.tcaps] at isOwner
    rw [step.threads, Threads.boundTo_bind step.unbound]
    by_cases same : other = tcap
    · subst same
      rw [update_self] at isOwner
      rw [if_pos rfl]
      cases owner : (k.tcaps other).arcvEp with
      | none =>
        simp only [Tcap.bind, owner, isSome_none, Bool.false_eq_true, if_false,
          some.injEq] at isOwner
        exact .inl isOwner.symm
      | some old =>
        simp only [Tcap.bind, owner, isSome_some, if_true, some.injEq] at isOwner
        exact .inr (owned.member other isTcap o (isOwner ▸ owner))
    · rw [update_of_ne same] at isOwner
      rw [if_neg same]
      exact owned.member other isTcap o isOwner

/-- The receive thread of a tcap cannot be torn down, since the tcap counts it. -/
theorem release (owned : k.Owned) (right : k.CountsRight) (step : Released k k' thd tcap)
    (spares : (k.tcaps tcap).arcvEp = some thd) : k'.Owned := by
  have inside := right.released_mem step
  have notTcap : k.memory.kobj tcap ≠ .tcap := fun isTcap => by
    have counted := right.tcaps tcap isTcap
    have positive : 0 < (k.threads.boundTo tcap).ncard :=
      (Set.ncard_pos (right.finite_boundTo tcap)).mpr ⟨thd, inside⟩
    exact step.allowed ⟨by omega, spares⟩
  have untouched : ∀ other, k.memory.kobj other = .tcap →
      k'.tcaps other = k.tcaps other ∧ k'.threads.boundTo other = k.threads.boundTo other := by
    intro other isTcap
    have different : other ≠ tcap := fun same => notTcap (same ▸ isTcap)
    refine ⟨by rw [step.tcaps, update_of_ne different], ?_⟩
    rw [step.threads, Threads.boundTo_release]
    refine Set.sdiff_singleton_eq_self fun bound => different ?_
    exact some.inj (bound.2.symm.trans step.boundTo)
  constructor
  · intro other isTcap nonempty
    rw [step.kobj] at isTcap
    rw [(untouched other isTcap).2] at nonempty
    rw [(untouched other isTcap).1]
    exact owned.owner other isTcap nonempty
  · intro other isTcap o isOwner
    rw [step.kobj] at isTcap
    rw [(untouched other isTcap).1] at isOwner
    rw [(untouched other isTcap).2]
    exact owned.member other isTcap o isOwner

theorem step (owned : k.Owned) (right : k.CountsRight) {event : KernelEvent}
    (spares : k.SparesOwners event) (step : EndpointStep k event k') : k'.Owned := by
  cases step with
  | same kept => exact owned.same kept
  | bound bound => exact owned.bind bound
  | released called named held released removed =>
    subst called
    exact owned.release right released (spares _ named _ released.boundTo)

end Kernel.Owned

end Steps

/-- In every run of activations and deactivations of end-points, copies and moves the
counts are right.  As long as no deactivation goes for a thread that is not the receive
thread of its tcap, a tcap with a bound thread has a bound receive thread. -/
theorem endpoint_counts (start k : Kernel) (events : List KernelEvent)
    (right : start.CountsRight) (owned : start.Owned)
    (onEndpoints : ∀ event ∈ events, event.OnEndpoints)
    (executed : Transition.exec kernelNext start events = some k) :
    k.CountsRight ∧
      (Transition.Meets Kernel.SparesOwners kernelNext start events → k.Owned) := by
  have calls : Transition.Meets _ kernelNext start events := .of_mem onEndpoints start
  constructor
  · refine Transition.exec_invariant ?_ right calls executed
    intro before event after right onEndpoints stepped
    exact right.step (endpointStep_of_next onEndpoints stepped)
  · intro spares
    have kept : ∀ (before : Kernel) (event : KernelEvent) (after : Kernel),
        before.CountsRight ∧ before.Owned → event.OnEndpoints ∧ before.SparesOwners event →
        kernelNext before event = some after → after.CountsRight ∧ after.Owned := by
      rintro before event after ⟨right, owned⟩ ⟨onEndpoints, spares⟩ stepped
      have step := endpointStep_of_next onEndpoints stepped
      exact ⟨right.step step, owned.step right spares step⟩
    exact (Transition.exec_invariant kept ⟨right, owned⟩ (calls.and spares) executed).2

/-! A component with three threads and two tcaps.  The first thread is the root: it is
bound to the first tcap and notifies itself. -/

def rootComp : CompInfo := ⟨⟨0, 0⟩, 0, 10⟩

def rootCaps : Nat → Option (CapType × CapBody)
  | 4 => some (.captbl, .captbl ⟨1, 10, 0, none, 0⟩)
  | 8 => some (.comp, .comp ⟨0, ((10, true), 0), ((10, true), 4), rootComp⟩)
  | 12 => some (.thd, .thd ⟨1, 0⟩)
  | 16 => some (.thd, .thd ⟨2, 0⟩)
  | 20 => some (.thd, .thd ⟨3, 0⟩)
  | 24 => some (.tcap, .tcap ⟨4, 0⟩)
  | 28 => some (.tcap, .tcap ⟨5, 0⟩)
  | 32 => some (.arcv, .arcv ⟨rootComp, 0, 0, 1, 0⟩)
  | _ => none

def rootSlot (i : Nat) : Slot CapBody :=
  match rootCaps i with
  | none => ⟨captblInitHeader, .none⟩
  | some (type, body) => ⟨⟨0, 1, captblCap2sz type, 0, type⟩, body⟩

def rootThreads (t : Nat) : Thread :=
  { Thread.zero with
    refcnt := 1
    rcvcap := if t = 1 then ⟨true, 0, 1, false, 0, some 4, some 1⟩ else Thread.zero.rcvcap }

def rootTcaps (tcap : Nat) : Tcap :=
  if tcap = 4 then (Tcap.zero.init 0 1).bind 1 else Tcap.zero.init 0 tcap

def rootKobj (page : Nat) : KObj :=
  if page = 10 then .captblRoot
  else if page = 1 ∨ page = 2 ∨ page = 3 then .thd
  else if page = 4 ∨ page = 5 then .tcap
  else .none

def rootKernel : Kernel where
  memory := ⟨fun _ _ => .zero, rootKobj, fun _ => .untyped, fun _ _ => ⟨⟨.untyped, 0⟩, 0⟩⟩
  roots := fun page i => if page = 10 ∧ i = 0 then some (10, true) else none
  slots := fun node i => if node = (10, true) then rootSlot i else ⟨captblInitHeader, .none⟩
  ltbl := ltblInit
  tlb := fun _ => ⟨0, 0⟩
  tsc := 0
  threads := rootThreads
  tcaps := rootTcaps
  cosInfo := fun cpu => ⟨cpu, 1, 0, .clear, 4, [4], 2, 0, 0⟩
  pgtbl := fun _ => 0
  tls := fun _ => 0
  hwAsndCaps := fun _ => none
  chalKernelMemPa := 0
  walks := []

theorem rootKernel_bound {t : Nat} : (rootThreads t).rcvcap.isbound = true ↔ t = 1 := by
  by_cases root : t = 1 <;> simp [rootThreads, Thread.zero, root]

theorem rootKernel_boundTo (tcap : Nat) :
    Threads.boundTo rootThreads tcap = if tcap = 4 then {1} else ∅ := by
  ext t
  by_cases root : t = 1
  · by_cases first : tcap = 4
    · simp [Threads.boundTo, rootThreads, root, first]
    · simp [Threads.boundTo, rootThreads, root, first, Ne.symm first]
  · split_ifs <;> simp [Threads.boundTo, rootThreads, Thread.zero, root]

theorem rootKernel_notifying (notif : Nat) :
    Threads.notifying rootThreads notif = if notif = 1 then {1} else ∅ := by
  ext t
  by_cases root : t = 1
  · by_cases self : notif = 1
    · simp [Threads.notifying, Threads.arcvNotif, rootThreads, root, self]
    · simp [Threads.notifying, Threads.arcvNotif, rootThreads, root, self, Ne.symm self]
  · split_ifs <;> simp [Threads.notifying, rootThreads, Thread.zero, root]

theorem rootKernel_countsRight : rootKernel.CountsRight where
  finite := (Set.finite_singleton 1).subset fun _ bound => rootKernel_bound.mp bound
  bound t isSome := by
    by_contra unbound
    simp [rootKernel, rootThreads, mt rootKernel_bound.mpr unbound, Thread.zero] at isSome
  tcaps tcap _ := by
    simp only [rootKernel, rootKernel_boundTo]
    by_cases first : tcap = 4 <;> simp [rootTcaps, first, Tcap.bind, Tcap.init]
  threads notif _ := by
    simp only [rootKernel, rootKernel_notifying]
    by_cases root : notif = 1 <;> simp [rootThreads, root, Thread.zero]

theorem rootKernel_owned : rootKernel.Owned where
  owner tcap _ nonempty := by
    simp only [rootKernel, rootKernel_boundTo] at nonempty
    by_cases first : tcap = 4
    · simp [rootKernel, rootTcaps, first, Tcap.bind, Tcap.init]
    · simp [first] at nonempty
  member tcap _ thd isOwner := by
    simp only [rootKernel, rootKernel_boundTo]
    by_cases first : tcap = 4
    · simpa [rootKernel, rootTcaps, first, Tcap.bind, Tcap.init, eq_comm] using isOwner
    · simp [rootKernel, rootTcaps, first, Tcap.init] at isOwner

theorem rootKernel_arcv {arcv : CapArcv} (named : rootKernel.NamesArcv arcv) :
    arcv = ⟨rootComp, 0, 0, 1, 0⟩ := by
  obtain ⟨⟨node, i⟩, held⟩ := named
  obtain ⟨-, post⟩ := arcv?_eq_some.mp held
  simp only [rootKernel] at post
  split at post
  · simp only [rootSlot] at post
    split at post
    · cases post
    · rename_i type body isCap
      unfold rootCaps at isCap
      split at isCap <;> cases isCap <;> cases post
      rfl
  · cases post

def rootCall (op : SyscallOp) (a1 a2 a3 a4 : Nat) : KernelEvent :=
  .call ⟨0, 10, 4, ⟨op, a1, a2, a3, a4⟩, ⟨0, 0⟩⟩

def bindCall (capin thdCap tcapCap arcvCap : Nat) : KernelEvent :=
  rootCall .arcvActivate capin (thdCap + tcapCap * 2 ^ 16) 8 arcvCap

/-- Two threads are bound to one tcap.  The first of them is its receive thread, and its
end-point cannot be deactivated. -/
def sharedTcap : List KernelEvent :=
  [bindCall 36 16 28 32, bindCall 40 20 28 32, rootCall .arcvDeactivate 36 0 0 0]

theorem endpoint_counts_shared :
    ∃ k ∈ Transition.exec kernelNext rootKernel sharedTcap,
      k.CountsRight ∧ k.Owned ∧ (k.tcaps 5).refcnt = 3 ∧ (k.tcaps 5).arcvEp = some 2 := by
  obtain ⟨k, ran, counted⟩ :
      ∃ k ∈ Transition.exec kernelNext rootKernel sharedTcap,
        (k.tcaps 5).refcnt = 3 ∧ (k.tcaps 5).arcvEp = some 2 := by
    decide +kernel
  have sound := endpoint_counts rootKernel k sharedTcap rootKernel_countsRight rootKernel_owned
    (by decide) ran
  exact ⟨k, ran, sound.1, sound.2 (by decide +kernel), counted⟩

/-- The second of two threads that are bound to one tcap is torn down.  The first one is
still bound, and the tcap has no receive thread any more. -/
theorem endpoint_counts_orphaned :
    rootKernel.CountsRight ∧ rootKernel.Owned ∧
      ∃ k ∈ Transition.exec kernelNext rootKernel
          [bindCall 36 16 28 32, bindCall 40 20 28 32, rootCall .arcvDeactivate 40 0 0 0],
        k.memory.kobj 5 = .tcap ∧ (k.threads 2).rcvcap.isbound = true ∧
          (k.threads 2).rcvcap.rcvcapTcap = some 5 ∧ (k.tcaps 5).arcvEp = none :=
  ⟨rootKernel_countsRight, rootKernel_owned, by decide +kernel⟩

end Composite
