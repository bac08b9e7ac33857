import Composite.Lib.Transition

/-!
# The critical section of the scheduler

The threads of a core take one lock before they touch the data of the scheduler.  The lock is
a word with its owner and a mark of contention, and a thread may be preempted at any point: every
step below is one load, one compare-and-swap or one call of the kernel.  A failed assertion is
`none`.
-/

namespace Composite.Sl.Cs

open Transition Option

/-- A `thdcap_t`, which is never zero and fits the bits of the owner. -/
structure ThdCap where
  cap : Nat
  nonzero : cap ≠ 0
  fits : cap < 2 ^ 31
  deriving DecidableEq

/-- `union sl_cs_intern`. -/
structure SlCs where
  owner : Nat
  contention : Bool
  deriving DecidableEq, Repr

def SlCs.free : SlCs := ⟨0, false⟩

/-- Where a thread is in `sl_cs_enter` and `sl_cs_exit`. -/
inductive Place where
  | outside
  /-- At the top of `sl_cs_enter_nospin`. -/
  | entering
  /-- It saw no owner, and tries to become it. -/
  | taking (cached : SlCs)
  /-- In `sl_cs_enter_contention`. -/
  | contending (cached : SlCs)
  /-- It switches to the owner. -/
  | yielding (owner : Nat)
  | inside
  /-- At `retry` of `sl_cs_exit`. -/
  | exiting
  | releasing (cached : SlCs)
  /-- It released a lock with a mark, in `sl_cs_exit_contention`. -/
  | notifying
  deriving DecidableEq, Repr

/-- The lock, where the threads are, and the calls of `cos_defswitch`: by whom and to whom. -/
structure Section where
  lock : SlCs
  place : ThdCap → Place
  switches : List (ThdCap × Nat)

/-- The next step of a thread.  `busy` says that its switch to the owner is refused and that it is
the scheduler, which then leaves `sl_cs_enter_sched`. -/
structure Step where
  thread : ThdCap
  busy : Bool

def Section.initial : Section := ⟨.free, fun _ => .outside, []⟩

def Section.moveTo (s : Section) (t : ThdCap) (place : Place) : Section :=
  { s with place := Function.update s.place t place }

/-- `ps_cas` on the word of the lock. -/
def Section.cas (s : Section) (t : ThdCap) (cached new : SlCs) (won lost : Place) : Section :=
  if s.lock = cached then { s with lock := new }.moveTo t won else s.moveTo t lost

/-- `cos_defswitch`. -/
def Section.defswitch (s : Section) (t : ThdCap) (target : Nat) : Section :=
  { s with switches := (t, target) :: s.switches }

/-- `sl_cs_enter_nospin`, `sl_cs_enter_contention`, `sl_cs_exit` and `sl_cs_exit_contention`, with
`sched` the capability of the scheduler thread. -/
def next (sched : Nat) (s : Section) (step : Step) : Option Section :=
  let t := step.thread
  match s.place t with
  | .outside => some (s.moveTo t .entering)
  | .entering =>
    if s.lock.owner = 0 then some (s.moveTo t (.taking s.lock))
    else some (s.moveTo t (.contending s.lock))
  | .taking cached =>
    some (s.cas t cached { cached with owner := t.cap } .inside .entering)
  | .contending cached =>
    if cached.owner = t.cap then none
    else if cached.contention then some (s.moveTo t (.yielding cached.owner))
    else some (s.cas t cached { cached with contention := true } (.yielding cached.owner) .entering)
  | .yielding owner =>
    some ((s.defswitch t owner).moveTo t (if step.busy then .outside else .entering))
  | .inside => if s.lock.owner = t.cap then some (s.moveTo t .exiting) else none
  | .exiting => some (s.moveTo t (.releasing s.lock))
  | .releasing cached =>
    if cached.contention then some (s.cas t cached .free .notifying .exiting)
    else some (s.cas t cached .free .outside .exiting)
  | .notifying => some ((s.defswitch t sched).moveTo t .outside)

def Place.holds : Place → Bool
  | .inside | .exiting | .releasing _ => true
  | _ => false

def Place.Remembers (t : ThdCap) : Place → Prop
  | .taking cached => cached.owner = 0 ∧ cached.contention = false
  | .contending cached => cached.owner ≠ t.cap ∧ cached.owner ≠ 0
  | .releasing cached => cached.owner = t.cap
  | _ => True

structure Section.Sound (s : Section) : Prop where
  holder : ∀ t, (s.place t).holds = true ↔ s.lock.owner = t.cap
  marked : s.lock.contention = true → s.lock.owner ≠ 0
  remembers : ∀ t, (s.place t).Remembers t

variable {t : ThdCap} {s after : Section} {step : Step} {sched : Nat}

theorem ThdCap.eq_of_cap {u : ThdCap} (same : t.cap = u.cap) : t = u := by
  cases t
  cases u
  cases same
  rfl

theorem Section.initial_sound : Section.initial.Sound where
  holder t := ⟨fun held => (nomatch held), fun owner => absurd owner.symm t.nonzero⟩
  marked := fun mark => nomatch mark
  remembers _ := trivial

@[simp] theorem Section.moveTo_lock (s : Section) (t : ThdCap) (place : Place) :
    (s.moveTo t place).lock = s.lock := rfl

@[simp] theorem Section.moveTo_switches (s : Section) (t : ThdCap) (place : Place) :
    (s.moveTo t place).switches = s.switches := rfl

@[simp] theorem Section.moveTo_place_self (s : Section) (t : ThdCap) (place : Place) :
    (s.moveTo t place).place t = place := Function.update_self ..

theorem Section.moveTo_place_other {u : ThdCap} (other : u ≠ t) (place : Place) :
    (s.moveTo t place).place u = s.place u := Function.update_of_ne other ..

theorem Section.Sound.moveTo (sound : s.Sound) {place : Place}
    (same : place.holds = (s.place t).holds) (remembers : place.Remembers t) :
    (s.moveTo t place).Sound where
  holder u := by
    by_cases self : u = t
    · subst self
      rw [moveTo_place_self, same]
      exact sound.holder u
    · rw [moveTo_place_other self]
      exact sound.holder u
  marked := sound.marked
  remembers u := by
    by_cases self : u = t
    · subst self
      rw [moveTo_place_self]
      exact remembers
    · rw [moveTo_place_other self]
      exact sound.remembers u

/-- A swap that succeeds gives the lock to the thread, leaves it with its owner, or frees it. -/
theorem Section.Sound.write (sound : s.Sound) {new : SlCs} {place : Place}
    (holder : ∀ u, u ≠ t → (s.lock.owner = u.cap ↔ new.owner = u.cap))
    (self_holds : place.holds = true ↔ new.owner = t.cap)
    (marked : new.contention = true → new.owner ≠ 0) (remembers : place.Remembers t) :
    ({ s with lock := new }.moveTo t place).Sound where
  holder u := by
    by_cases self : u = t
    · subst self
      rw [moveTo_place_self]
      exact self_holds
    · rw [moveTo_place_other self]
      exact (sound.holder u).trans (holder u self)
  marked := marked
  remembers u := by
    by_cases self : u = t
    · subst self
      rw [moveTo_place_self]
      exact remembers
    · rw [moveTo_place_other self]
      exact sound.remembers u

theorem Section.Sound.cas (sound : s.Sound) {cached new : SlCs} {won lost : Place}
    (holder : s.lock = cached → ∀ u, u ≠ t → (s.lock.owner = u.cap ↔ new.owner = u.cap))
    (won_holds : won.holds = true ↔ new.owner = t.cap)
    (marked : new.contention = true → new.owner ≠ 0) (won_remembers : won.Remembers t)
    (lost_holds : lost.holds = (s.place t).holds) (lost_remembers : lost.Remembers t) :
    (s.cas t cached new won lost).Sound := by
  unfold Section.cas
  split
  · next same => exact sound.write (holder same) won_holds marked won_remembers
  · exact sound.moveTo lost_holds lost_remembers

theorem Section.Sound.defswitch (sound : s.Sound) (t : ThdCap) (target : Nat) :
    (s.defswitch t target).Sound :=
  ⟨sound.holder, sound.marked, sound.remembers⟩

theorem Section.Sound.next (sound : s.Sound) (stepped : next sched s step = some after) :
    after.Sound := by
  obtain ⟨t, busy⟩ := step
  have own := sound.remembers t
  have holder := sound.holder t
  simp only [Cs.next] at stepped
  cases place : s.place t with
  | outside =>
    simp only [place, some.injEq] at stepped
    subst stepped
    exact sound.moveTo (by rw [place]; rfl) trivial
  | entering =>
    simp only [place] at stepped
    have unheld : s.lock.owner ≠ t.cap := fun owner => by
      rw [place] at holder
      exact nomatch holder.mpr owner
    split at stepped
    · next free =>
      cases stepped
      refine sound.moveTo (by rw [place]; rfl) ⟨free, ?_⟩
      cases mark : s.lock.contention with
      | false => rfl
      | true => exact absurd free (sound.marked mark)
    · next taken =>
      cases stepped
      exact sound.moveTo (by rw [place]; rfl) ⟨unheld, taken⟩
  | taking cached =>
    simp only [place, some.injEq] at stepped
    subst stepped
    rw [place] at own
    refine sound.cas (fun same u other => ?_) ?_ ?_ trivial (by rw [place]; rfl) trivial
    · have free : s.lock.owner = 0 := by rw [same]; exact own.1
      constructor
      · intro owner
        exact absurd (owner.symm.trans free) u.nonzero
      · intro owner
        exact absurd (ThdCap.eq_of_cap owner).symm other
    · exact ⟨fun _ => rfl, fun _ => rfl⟩
    · intro _
      exact t.nonzero
  | contending cached =>
    simp only [place] at stepped
    rw [place] at own
    rw [if_neg own.1] at stepped
    split at stepped
    · cases stepped
      exact sound.moveTo (by rw [place]; rfl) trivial
    · cases stepped
      refine sound.cas (fun same u _ => by rw [same]) ?_ ?_ trivial (by rw [place]; rfl) trivial
      · exact ⟨fun held => (nomatch held), fun owner => absurd owner own.1⟩
      · intro _
        exact own.2
  | yielding owner =>
    simp only [place, some.injEq] at stepped
    subst stepped
    have unheld : (s.place t).holds = false := by rw [place]; rfl
    cases busy with
    | true => exact (sound.defswitch t owner).moveTo unheld.symm trivial
    | false => exact (sound.defswitch t owner).moveTo unheld.symm trivial
  | inside =>
    simp only [place] at stepped
    split at stepped
    · cases stepped
      exact sound.moveTo (by rw [place]; rfl) trivial
    · cases stepped
  | exiting =>
    simp only [place, some.injEq] at stepped
    subst stepped
    rw [place] at holder
    exact sound.moveTo (by rw [place]; rfl) (holder.mp rfl)
  | releasing cached =>
    simp only [place] at stepped
    rw [place] at own holder
    have owner : s.lock.owner = t.cap := holder.mp rfl
    have freed : ∀ u, u ≠ t → (s.lock.owner = u.cap ↔ SlCs.free.owner = u.cap) := by
      intro u other
      constructor
      · intro held
        exact absurd (ThdCap.eq_of_cap (held.symm.trans owner)) other
      · intro zero
        exact absurd zero.symm u.nonzero
    have nobody : SlCs.free.owner ≠ t.cap := fun zero => t.nonzero zero.symm
    split at stepped
    · cases stepped
      refine sound.cas (fun _ => freed) ?_ (fun mark => nomatch mark) trivial
        (by rw [place]; rfl) trivial
      exact ⟨fun held => (nomatch held), fun zero => absurd zero nobody⟩
    · cases stepped
      refine sound.cas (fun _ => freed) ?_ (fun mark => nomatch mark) trivial
        (by rw [place]; rfl) trivial
      exact ⟨fun held => (nomatch held), fun zero => absurd zero nobody⟩
  | notifying =>
    simp only [place, some.injEq] at stepped
    subst stepped
    have unheld : (s.place t).holds = false := by rw [place]; rfl
    exact (sound.defswitch t sched).moveTo unheld.symm trivial

theorem Section.Sound.next_ne_none (sound : s.Sound) (sched : Nat) (step : Step) :
    Cs.next sched s step ≠ none := by
  obtain ⟨t, busy⟩ := step
  have own := sound.remembers t
  have holder := sound.holder t
  simp only [Cs.next]
  cases place : s.place t with
  | contending cached =>
    rw [place] at own
    simp only
    rw [if_neg own.1]
    split <;> exact some_ne_none _
  | inside =>
    rw [place] at holder
    simp only
    rw [if_pos (holder.mp rfl)]
    exact some_ne_none _
  | entering => simp only; split <;> exact some_ne_none _
  | releasing cached => simp only; split <;> exact some_ne_none _
  | outside | taking | yielding | exiting | notifying => exact some_ne_none _

inductive LockChange (s after : Section) (t : ThdCap) : Prop where
  | same (lock : after.lock = s.lock)
  | taken (free : s.lock = .free) (lock : after.lock = ⟨t.cap, false⟩)
  | marked (owned : s.lock.owner ≠ 0) (fresh : s.lock.contention = false)
      (lock : after.lock = { s.lock with contention := true })
  | released (owned : s.lock.owner = t.cap) (lock : after.lock = .free)
      (place : after.place t = if s.lock.contention then .notifying else .outside)

theorem Section.Sound.lockChange (sound : s.Sound) (stepped : Cs.next sched s step = some after) :
    LockChange s after step.thread := by
  obtain ⟨t, busy⟩ := step
  have own := sound.remembers t
  simp only [Cs.next] at stepped
  cases place : s.place t with
  | outside | yielding | exiting | notifying =>
    simp only [place, some.injEq] at stepped
    subst stepped
    exact .same rfl
  | entering =>
    simp only [place] at stepped
    split at stepped <;> cases stepped <;> exact .same rfl
  | inside =>
    simp only [place] at stepped
    split at stepped
    · cases stepped
      exact .same rfl
    · cases stepped
  | taking cached =>
    simp only [place, some.injEq] at stepped
    subst stepped
    rw [place] at own
    unfold Section.cas
    split
    · next same =>
      obtain ⟨owner, contention⟩ := cached
      obtain ⟨rfl, rfl⟩ : owner = 0 ∧ contention = false := own
      exact .taken same rfl
    · exact .same rfl
  | contending cached =>
    simp only [place] at stepped
    rw [place] at own
    rw [if_neg own.1] at stepped
    split at stepped
    · cases stepped
      exact .same rfl
    · next unmarked =>
      cases stepped
      unfold Section.cas
      split
      · next same =>
        subst same
        exact .marked own.2 (Bool.not_eq_true _ ▸ unmarked) rfl
      · exact .same rfl
  | releasing cached =>
    simp only [place] at stepped
    rw [place] at own
    split at stepped
    · next marked =>
      cases stepped
      unfold Section.cas
      split
      · next same =>
        subst same
        exact .released own rfl (by rw [if_pos marked, Section.moveTo_place_self])
      · exact .same rfl
    · next unmarked =>
      cases stepped
      unfold Section.cas
      split
      · next same =>
        subst same
        exact .released own rfl (by rw [if_neg unmarked, Section.moveTo_place_self])
      · exact .same rfl

/-- A step of a thread moves it, tries a swap, or calls the kernel: for the scheduler thread, if
the thread has to notify it. -/
inductive StepShape (sched : Nat) (s after : Section) (t : ThdCap) : Prop where
  | move (place : Place) (told : s.place t ≠ .notifying) (moved : after = s.moveTo t place)
  | swap (cached new : SlCs) (won lost : Place) (told : s.place t ≠ .notifying)
      (swapped : after = s.cas t cached new won lost)
  | call (target : Nat) (place : Place) (scheduler : s.place t = .notifying → target = sched)
      (called : after = (s.defswitch t target).moveTo t place)

theorem next_shape (stepped : Cs.next sched s step = some after) :
    StepShape sched s after step.thread := by
  obtain ⟨t, busy⟩ := step
  simp only [Cs.next] at stepped
  cases place : s.place t with
  | outside | exiting =>
    simp only [place, some.injEq] at stepped
    exact .move _ (by rw [place]; exact Place.noConfusion) stepped.symm
  | entering | inside =>
    simp only [place] at stepped
    split at stepped <;> cases stepped <;>
      exact .move _ (by rw [place]; exact Place.noConfusion) rfl
  | taking cached =>
    simp only [place, some.injEq] at stepped
    exact .swap _ _ _ _ (by rw [place]; exact Place.noConfusion) stepped.symm
  | contending cached =>
    simp only [place] at stepped
    split at stepped
    · cases stepped
    · split at stepped <;> cases stepped
      · exact .move _ (by rw [place]; exact Place.noConfusion) rfl
      · exact .swap _ _ _ _ (by rw [place]; exact Place.noConfusion) rfl
  | releasing cached =>
    simp only [place] at stepped
    split at stepped <;> cases stepped <;>
      exact .swap _ _ _ _ (by rw [place]; exact Place.noConfusion) rfl
  | yielding owner =>
    simp only [place, some.injEq] at stepped
    exact .call _ _ (fun notifying => by rw [place] at notifying; cases notifying) stepped.symm
  | notifying =>
    simp only [place, some.injEq] at stepped
    exact .call _ _ (fun _ => rfl) stepped.symm

theorem next_place_other (stepped : Cs.next sched s step = some after) (other : t ≠ step.thread) :
    after.place t = s.place t := by
  cases next_shape stepped with
  | move place _ moved => rw [moved, Section.moveTo_place_other other]
  | swap cached new won lost _ swapped =>
    rw [swapped]
    unfold Section.cas
    split <;> exact Section.moveTo_place_other other _
  | call target place _ called =>
    rw [called, Section.moveTo_place_other other]
    rfl

theorem Section.cas_switches (s : Section) (t : ThdCap) (cached new : SlCs) (won lost : Place) :
    (s.cas t cached new won lost).switches = s.switches := by
  unfold Section.cas
  split <;> rfl

def Section.asked (s : Section) (t : ThdCap) (target : Nat) : Nat := s.switches.count (t, target)

theorem asked_mono (stepped : Cs.next sched s step = some after) (t : ThdCap) (target : Nat) :
    s.asked t target ≤ after.asked t target := by
  cases next_shape stepped with
  | move place _ moved => exact moved ▸ Nat.le_refl _
  | swap cached new won lost _ swapped =>
    exact Nat.le_of_eq (by rw [swapped, Section.asked, Section.asked, Section.cas_switches])
  | call called_target place _ called =>
    rw [called]
    exact List.count_le_count_cons

theorem asked_of_notifying (stepped : Cs.next sched s step = some after)
    (told : s.place step.thread = .notifying) :
    s.asked step.thread sched < after.asked step.thread sched := by
  cases next_shape stepped with
  | move place untold _ => exact absurd told untold
  | swap cached new won lost untold _ => exact absurd told untold
  | call target place scheduler called =>
    rw [called, scheduler told]
    simp only [Section.asked, Section.moveTo_switches, Section.defswitch, List.count_cons_self]
    exact Nat.lt_succ_self _

/-- A mark that was set when the thread had asked for the scheduler `before` times: it is still
there, or the owner is about to ask, or it has asked since. -/
inductive MarkServed (sched before : Nat) (owner : ThdCap) (s : Section) : Prop where
  | held (lock : s.lock = ⟨owner.cap, true⟩) (count : before ≤ s.asked owner sched)
  | told (place : s.place owner = .notifying) (count : before ≤ s.asked owner sched)
  | served (count : before < s.asked owner sched)

theorem MarkServed.next {before : Nat} {owner : ThdCap} (sound : s.Sound)
    (served : MarkServed sched before owner s) (stepped : Cs.next sched s step = some after) :
    MarkServed sched before owner after := by
  have mono := asked_mono stepped owner sched
  cases served with
  | served count => exact .served (Nat.lt_of_lt_of_le count mono)
  | told place count =>
    by_cases self : owner = step.thread
    · subst self
      exact .served (Nat.lt_of_le_of_lt count (asked_of_notifying stepped place))
    · refine .told ?_ (Nat.le_trans count mono)
      rw [next_place_other stepped self]
      exact place
  | held lock count =>
    cases sound.lockChange stepped with
    | same unchanged => exact .held (unchanged.trans lock) (Nat.le_trans count mono)
    | taken free _ =>
      rw [free] at lock
      exact absurd (congrArg SlCs.contention lock) Bool.false_ne_true
    | marked _ fresh _ =>
      rw [lock] at fresh
      exact nomatch fresh
    | released owned _ place =>
      rw [lock] at owned place
      have self : owner = step.thread := ThdCap.eq_of_cap owned
      subst self
      exact .told place (Nat.le_trans count mono)

theorem recorded_mark {owner : Nat} (stepped : Cs.next sched s step = some after)
    (contending : s.place step.thread = .contending ⟨owner, false⟩)
    (recorded : after.place step.thread = .yielding owner) : after.lock = ⟨owner, true⟩ := by
  simp only [Cs.next, contending, Bool.false_eq_true, if_false] at stepped
  split at stepped
  · cases stepped
  · simp only [some.injEq] at stepped
    subst stepped
    unfold Section.cas at recorded ⊢
    split
    · rfl
    · next changed =>
      rw [if_neg changed, Section.moveTo_place_self] at recorded
      cases recorded

theorem reached_sound {steps : List Step} (reached : exec (Cs.next sched) .initial steps = some s) :
    s.Sound := by
  have kept : ∀ state step after, Section.Sound state → True →
      Cs.next sched state step = some after → after.Sound :=
    fun _ _ _ sound _ stepped => sound.next stepped
  exact exec_invariant kept Section.initial_sound (.of_forall (fun _ _ => trivial) _ _) reached

theorem MarkServed.run {final : Section} {before : Nat} {owner : ThdCap} {rest : List Step}
    (sound : s.Sound) (served : MarkServed sched before owner s)
    (executed : exec (Cs.next sched) s rest = some final) :
    MarkServed sched before owner final := by
  have kept : ∀ state step after,
      Section.Sound state ∧ MarkServed sched before owner state → True →
      Cs.next sched state step = some after →
      after.Sound ∧ MarkServed sched before owner after :=
    fun _ _ _ both _ stepped => ⟨both.1.next stepped, both.2.next both.1 stepped⟩
  exact (exec_invariant kept ⟨sound, served⟩ (.of_forall (fun _ _ => trivial) _ _) executed).2

/-- In every state that any number of threads reach, preempted at any point: one thread at most
holds the section, no assertion fails, only the owner gives the section away and it leaves the word
zero, a thread that records contention leaves the mark with the owner, and a mark stays until its
owner has released the section and then asks for a switch to the scheduler thread. -/
theorem critical_section (sched : Nat) (steps : List Step) (s : Section)
    (reached : exec (Cs.next sched) .initial steps = some s) :
    (∀ t u, (s.place t).holds = true → (s.place u).holds = true → t = u) ∧
    (∀ step, Cs.next sched s step ≠ none) ∧
    (∀ step after, Cs.next sched s step = some after → s.lock.owner ≠ 0 →
      after.lock.owner ≠ s.lock.owner →
      step.thread.cap = s.lock.owner ∧ (s.place step.thread).holds = true ∧ after.lock = .free) ∧
    (∀ step after owner, Cs.next sched s step = some after →
      s.place step.thread = .contending ⟨owner, false⟩ →
      after.place step.thread = .yielding owner → after.lock = ⟨owner, true⟩) ∧
    (∀ owner : ThdCap, s.lock = ⟨owner.cap, true⟩ → ∀ rest final,
      exec (Cs.next sched) s rest = some final →
      MarkServed sched (s.asked owner sched) owner final) := by
  have sound := reached_sound reached
  refine ⟨?_, sound.next_ne_none sched, ?_, fun _ _ _ => recorded_mark, ?_⟩
  · intro t u first second
    exact ThdCap.eq_of_cap (((sound.holder t).mp first).symm.trans ((sound.holder u).mp second))
  · intro step after stepped owned changed
    cases sound.lockChange stepped with
    | same lock => exact absurd (congrArg SlCs.owner lock) changed
    | taken free _ => exact absurd (congrArg SlCs.owner free) owned
    | marked _ _ lock => exact absurd (congrArg SlCs.owner lock) changed
    | released owner lock _ => exact ⟨owner.symm, (sound.holder _).mpr owner, lock⟩
  · intro owner lock rest final executed
    exact MarkServed.run sound (.held lock (Nat.le_refl _)) executed

def firstThd : ThdCap := ⟨4, by decide, by decide⟩

def secondThd : ThdCap := ⟨8, by decide, by decide⟩

def contendedSteps : List Step :=
  List.replicate 3 ⟨firstThd, false⟩ ++ List.replicate 3 ⟨secondThd, false⟩

theorem critical_section_contended :
    ∃ s, exec (Cs.next 2) .initial contendedSteps = some s ∧ s.lock = ⟨firstThd.cap, true⟩ ∧
      ∀ rest final, exec (Cs.next 2) s rest = some final →
        MarkServed 2 (s.asked firstThd 2) firstThd final := by
  have marked : (exec (Cs.next 2) .initial contendedSteps).map Section.lock =
      some ⟨firstThd.cap, true⟩ := by decide +kernel
  obtain ⟨s, reached, lock⟩ := Option.map_eq_some_iff.mp marked
  exact ⟨s, reached, lock, (critical_section 2 contendedSteps s reached).2.2.2.2 firstThd lock⟩

end Composite.Sl.Cs
