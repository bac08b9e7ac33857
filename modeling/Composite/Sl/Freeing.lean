import Composite.Sl.EdfRuns
import Composite.Sl.Expiry

/-!
# Freeing a thread

A thread that is freed leaves the heap of timeouts if its state says that it waits there, and the
policy removes it from the run queue in any state, which only a thread that is queued allows.  The
index of threads belongs to a backend.
-/

namespace Composite.Sl

open Transition Function Checked

/-- The index of threads as `sl_plugins.h` leaves it to a backend; `tryLkup` is
`sl_thd_try_lkup`. -/
structure IndexBackend where
  Index : Type
  rem : Index → Nat → Index
  tryLkup : Index → Nat → Bool

/-- `sl_thd_static_backend.c`: a thread is found if its `aepinfo` is set. -/
def staticBackend : IndexBackend where
  Index := Nat → Bool
  rem aepinfo _ := aepinfo
  tryLkup aepinfo := aepinfo

/-- A backend that keeps the set of threads. -/
def setBackend : IndexBackend where
  Index := Nat → Bool
  rem threads t := Function.update threads t false
  tryLkup threads := threads

/-- `sl_thd_free_no_cs` with the index. -/
def freeIndexed (B : IndexBackend) (c : Cpu edf) (index : B.Index) (t : Nat) :
    Except Failure (Cpu edf × B.Index) :=
  (slThdFreeNoCs c t).map (·, B.rem index t)

/-! What the policy keeps, the routines keep. -/

section

variable {P : Policy} {good : P.Rq → Prop} {c : Cpu P} {t : Nat}

/-- A new deadline is followed by a wakeup. -/
structure Policy.Keeps (P : Policy) (good : P.Rq → Prop) : Prop where
  block : ∀ {rq t rq'}, good rq → P.block rq t = some rq' → good rq'
  wakeup : ∀ {rq t rq'}, good rq → P.wakeup rq t = some rq' → good rq'
  delete : ∀ {rq t rq'}, good rq → P.delete rq t = some rq' → good rq'
  deadline : ∀ {rq t v changed rq'}, good rq → P.deadline rq t v = some changed →
    P.wakeup changed t = some rq' → good rq'

def Ends (good : P.Rq → Prop) (run : Except Failure (Cpu P)) : Prop :=
  ∀ c', run = .ok c' → good c'.rq

namespace Ends

theorem ok (holds : good c.rq) : Ends good (.ok c) := by
  rintro _ ⟨⟩
  exact holds

theorem bind {run : Except Failure (Cpu P)} {rest : Cpu P → Except Failure (Cpu P)}
    (first : Ends good run) (second : ∀ c', good c'.rq → Ends good (rest c')) :
    Ends good (run >>= rest) := by
  intro c'' returned
  obtain ⟨c', ran, rested⟩ := bind_eq_ok.mp returned
  exact second c' (first c' ran) c'' rested

theorem after {Result : Type} {run : Except Failure Result}
    {rest : Result → Except Failure (Cpu P)} (later : ∀ result, Ends good (rest result)) :
    Ends good (run >>= rest) := by
  intro c' returned
  obtain ⟨result, _, rested⟩ := bind_eq_ok.mp returned
  exact later result c' rested

theorem ite {holds : Prop} [Decidable holds] {first second : Except Failure (Cpu P)}
    (yes : Ends good first) (no : Ends good second) :
    Ends good (if holds then first else second) := by
  split_ifs
  · exact yes
  · exact no

theorem policy {operation : P.Rq → Option P.Rq}
    (kept : ∀ {rq}, operation c.rq = some rq → good rq) : Ends good (c.policy operation) := by
  intro c' returned
  obtain ⟨rq, stepped, rfl⟩ := Cpu.policy_eq_ok.mp returned
  exact kept stepped

end Ends

theorem slThdWakeupNoCsRm_ends (kept : ∀ {rq}, P.wakeup c.rq t = some rq → good rq) :
    Ends good (slThdWakeupNoCsRm c t) :=
  .bind (.policy kept) fun _ holds => .after fun _ => .ok holds

variable (keeps : P.Keeps good) (holds : good c.rq)

include holds

theorem leaveTimeout_ends : Ends good (leaveTimeout c t) :=
  .ite (.after fun _ => .after fun _ => .after fun _ => .ok holds) (.ok holds)

theorem sleep_ends {blockType : Eos.SlThdState} {timeout : Nat} :
    Ends good (sleep c t blockType timeout) :=
  .ite (.after fun _ => .after fun _ => .after fun _ => .after fun _ => .ok holds) (.ok holds)

include keeps

theorem slThdSchedBlockNoCs_ends {blockType : Eos.SlThdState} {timeout : Nat} :
    Ends good (slThdSchedBlockNoCs c t blockType timeout) := by
  refine .after fun _ => .ite (.ok holds) (.bind (.ite ?_ (.ite (.ok holds) (.after fun _ => ?_)))
    fun _ left => .bind (sleep_ends left) fun _ slept => .ok slept)
  · exact .after fun _ => .after fun _ => .after fun _ => .ok holds
  · exact .policy (keeps.block holds)

theorem slThdBlockNoCs_ends {blockType : Eos.SlThdState} {timeout : Nat} :
    Ends good (slThdBlockNoCs c t blockType timeout) := by
  refine .after fun _ => .ite (.after fun _ => .ok holds) (.bind (.ite (.ok holds) ?_) ?_)
  · exact .ite (.ok holds) (.bind (leaveTimeout_ends holds) fun _ left =>
      slThdWakeupNoCsRm_ends (keeps.wakeup left))
  · exact fun _ unblocked => .after fun _ => .bind (.policy (keeps.block unblocked))
      fun _ blocked => sleep_ends blocked

theorem slThdBlock_ends : Ends good (slThdBlock c t) := by
  refine .after fun _ => .ite ?_ (.ok holds)
  exact slThdBlockNoCs_ends (c := c.set t _) keeps holds

theorem slSchedEvent_ends {blocked : Bool} {cycles : Nat} {timeout : Option Nat} :
    Ends good (slSchedEvent c t blocked cycles timeout) := by
  refine .ite (.ok holds) (.ite (.ite ?_ (.ok holds)) (.ite (.ok holds) (.ite (.ok holds) ?_)))
  · cases timeout with
    | none => exact slThdSchedBlockNoCs_ends keeps holds
    | some absTimeout => exact slThdSchedBlockNoCs_ends keeps holds
  · exact .after fun _ => .bind (leaveTimeout_ends holds) fun _ left => .policy (keeps.wakeup left)

theorem expireLoop_ends {now turns : Nat} : Ends good (expireLoop now turns c) := by
  induction turns generalizing c with
  | zero => exact .ok holds
  | succ turns ih =>
    unfold expireLoop
    cases heapPeek c.timeouts with
    | none =>
      intro _ ended
      cases ended
    | some tp =>
      refine .ite (.ok holds) (.bind (.after fun _ => .after fun _ => .after fun _ => ?_) ?_)
      · exact slThdWakeupNoCsRm_ends (keeps.wakeup holds)
      · exact fun _ woken => .ite (ih woken) (.ok woken)

theorem step_ends (event : Event) : Ends good (step c event) := by
  cases event with
  | block t => exact slThdBlock_ends keeps holds
  | blockTimeout t absTimeout =>
    exact .ite (slThdBlock_ends keeps holds) (slThdBlockNoCs_ends keeps holds)
  | blockPeriodic t => exact .after fun _ => slThdBlockNoCs_ends keeps holds
  | wakeup curr t =>
    refine .after fun _ => .ite (.ok holds) (.ite (.ok holds) (.after fun _ => ?_))
    exact .bind (leaveTimeout_ends holds) fun _ left => slThdWakeupNoCsRm_ends (keeps.wakeup left)
  | xcpuWakeup t => exact slThdWakeupNoCsRm_ends (keeps.wakeup holds)
  | xcpuWakeupWithDl t sp =>
    intro c' returned
    obtain ⟨_, ran, woken⟩ := bind_eq_ok.mp returned
    obtain ⟨rq, changed, rfl⟩ := Cpu.policy_eq_ok.mp ran
    exact slThdWakeupNoCsRm_ends (keeps.deadline holds changed) c' woken
  | expire now => exact .ite (.ok holds) (expireLoop_ends keeps holds)
  | kernel t blocked cycles timeout => exact slSchedEvent_ends keeps holds
  | free t =>
    exact .after fun _ => .bind (leaveTimeout_ends holds) fun _ left =>
      .bind (.policy (keeps.delete left)) fun _ deleted => .ok deleted

end

/-! The run queue of the policy. -/

/-- The run queue is in order, and a thread outside has no place. -/
structure EdfRq.Placed (rq : EdfRq) : Prop where
  sound : rq.hs.Sound (compareMin rq.deadline)
  room : rq.hs.e ≤ rq.hs.maxSz
  unplaced : ∀ u, ¬rq.hs.Holds u → rq.hs.idx u ≤ 0

namespace EdfRq.Placed

variable {rq rq' : EdfRq} {t : Nat}

section

variable (placed : rq.Placed)

include placed

theorem holds_iff : rq.hs.Holds t ↔ 0 < rq.hs.idx t := by
  refine ⟨fun held => (placed.sound.indexed.data_idx held).1, fun positive => ?_⟩
  by_contra absent
  have low := placed.unplaced t absent
  omega

theorem unplace (absent : ¬rq.hs.Holds t) : Placed { rq with hs := rq.hs.u t (-1) } := by
  refine ⟨⟨placed.sound.nonempty, placed.sound.indexed.u_absent absent _, placed.sound.ordered⟩,
    placed.room, fun u out => ?_⟩
  by_cases same : u = t
  · have cleared : (rq.hs.u t (-1)).idx t = -1 := update_self ..
    simp only [same, cleared]
    decide
  · have kept : (rq.hs.u t (-1)).idx u = rq.hs.idx u := update_of_ne same ..
    exact kept.trans_le (placed.unplaced u out)

theorem setDeadline (absent : ¬rq.hs.Holds t) (v : Nat) : (rq.setDeadline t v).Placed := by
  refine ⟨placed.sound.congr fun a b heldA heldB => ?_, placed.room, placed.unplaced⟩
  exact compareMin_update (fun same => absent (same ▸ heldA)) fun same => absent (same ▸ heldB)

theorem removed {hs : Heap Nat} (spec : rq.hs.Removed (compareMin rq.deadline) t hs) :
    Placed { rq with hs } := by
  have room := placed.room
  have size := spec.size
  have sameMax := spec.sameMax
  refine ⟨spec.sound, by simp only; omega, fun u out => ?_⟩
  by_cases same : u = t
  · rw [same]
    exact spec.cleared.le
  · have absent : ¬rq.hs.Holds u := fun held => out ((spec.holds u).mpr ⟨same, held⟩)
    exact (spec.others u absent).trans_le (placed.unplaced u absent)

/-- The policy deletes exactly the threads that are queued. -/
theorem delete_iff : (∃ rq', slModThdDelete rq t = some rq') ↔ rq.hs.Holds t := by
  constructor
  · rintro ⟨rq', deleted⟩
    obtain ⟨_, removed, _⟩ := Option.bind_eq_some_iff.mp deleted
    refine placed.holds_iff.mpr ?_
    by_contra low
    rw [heapRemove, if_neg (by omega)] at removed
    cases removed
  · intro held
    obtain ⟨hs, removed, _⟩ := heapRemove_spec placed.sound held
    exact ⟨{ rq with hs }, by rw [slModThdDelete, removed]; rfl⟩

theorem delete_spec (deleted : slModThdDelete rq t = some rq') :
    ∃ hs, rq' = { rq with hs } ∧ rq.hs.Removed (compareMin rq.deadline) t hs := by
  obtain ⟨hs, removed, spec⟩ := heapRemove_spec placed.sound (placed.delete_iff.mp ⟨rq', deleted⟩)
  rw [slModThdDelete, removed] at deleted
  cases deleted
  exact ⟨hs, rfl, spec⟩

theorem delete (deleted : slModThdDelete rq t = some rq') : rq'.Placed := by
  obtain ⟨hs, rfl, spec⟩ := placed.delete_spec deleted
  exact placed.removed spec

theorem block (blocked : slModBlock rq t = some rq') : rq'.Placed := by
  unfold slModBlock at blocked
  split_ifs at blocked
  obtain ⟨⟨r, hs⟩, removed, ended⟩ := Option.bind_eq_some_iff.mp blocked
  cases ended
  have deleted : slModThdDelete rq t = some { rq with hs } := by
    rw [slModThdDelete, removed]
    rfl
  obtain ⟨_, ⟨⟩, spec⟩ := placed.delete_spec deleted
  exact (placed.removed spec).unplace fun still => ((spec.holds t).mp still).1 rfl

theorem add (absent : ¬rq.hs.Holds t) (added : rq.add t = some rq') : rq'.Placed := by
  obtain ⟨⟨r, hs⟩, returned, ended⟩ := Option.bind_eq_some_iff.mp added
  cases ended
  rcases Nat.lt_or_eq_of_le placed.room with room | full
  · obtain ⟨hs', returned', spec⟩ := heapAdd_spec placed.sound absent room
    cases returned'.symm.trans returned
    have size := spec.size
    have sameMax := spec.sameMax
    refine ⟨spec.sound, by simp only; omega, fun u out => ?_⟩
    have out := not_or.mp (mt (spec.holds u).mpr out)
    exact (spec.others u out.1 out.2).trans_le (placed.unplaced u out.2)
  · rw [heapAdd, if_pos full.symm] at returned
    cases returned
    exact placed

/-- A new deadline breaks the order of the heap, and the wakeup repairs it. -/
theorem wakeup {v : Nat} (woken : slModWakeup (rq.setDeadline t v) t = some rq') : rq'.Placed := by
  unfold slModWakeup at woken
  split_ifs at woken with infinite outside inside
  · have absent : ¬rq.hs.Holds t := fun held => by
      have positive := placed.holds_iff.mp held
      exact absurd outside (Int.not_lt.mpr positive.le)
    exact (placed.setDeadline absent v).add absent woken
  · obtain ⟨hs, adjusted, ended⟩ := Option.bind_eq_some_iff.mp woken
    cases ended
    obtain ⟨hs', adjusted', sound, rearranged⟩ := heapAdjust_rekeyed placed.sound
      (placed.holds_iff.mpr inside) fun _ _ => compareMin_update (v := v)
    cases adjusted'.symm.trans adjusted
    refine ⟨sound, ?_, fun u out => ?_⟩
    · exact rearranged.sameEnd.trans_le (placed.room.trans_eq rearranged.sameMax.symm)
    · have absent := mt (rearranged.holds u).mpr out
      exact (rearranged.others u absent).trans_le (placed.unplaced u absent)

end

theorem keeps : edf.Keeps EdfRq.Placed where
  block placed := placed.block
  wakeup {rq t rq'} placed woken := by
    have same : EdfRq.setDeadline rq t (rq.deadline t) = rq := by
      simp only [EdfRq.setDeadline, update_eq_self]
    rw [← same] at woken
    exact placed.wakeup woken
  delete placed := placed.delete
  deadline placed changed woken := by
    cases changed
    exact placed.wakeup woken

end EdfRq.Placed

/-! Freeing a thread in any state that is reached. -/

/-- A thread is created or started, or an event of the scheduler comes. -/
inductive LifeEvent where
  | create (t : Nat)
  /-- `SCHEDP_PRIO`. -/
  | setPrio (t prio : Nat)
  /-- `SCHEDP_PRIO_BLOCK`. -/
  | setPrioBlock (t prio : Nat)
  | sched (event : Event)
  deriving DecidableEq, Repr

def lifeStep (c : Cpu edf) : LifeEvent → Except Failure (Cpu edf)
  | .create t => slThdAllocInit c t
  | .setPrio t prio => slModThdParamSet c t .prio prio
  | .setPrioBlock t prio => slModThdParamSet c t .prioBlock prio
  | .sched event => step c event

def lifeNext (c : Cpu edf) (event : LifeEvent) : Option (Cpu edf) := (lifeStep c event).toOption

/-- A thread that is created is new: it is in neither heap. -/
def CreatesNew (c : Cpu edf) : LifeEvent → Prop
  | .create t => ¬c.rq.hs.Holds t ∧ ¬c.timeouts.Holds t
  | _ => True

/-- After `sl_mod_init` and `sl_timeout_init`. -/
structure Cpu.Booted (c : Cpu edf) : Prop where
  timeouts : c.Initial
  empty : c.rq.hs.e = 1
  capacity : c.rq.hs.maxSz = slEdfMaxThds + 1
  unplaced : ∀ t, c.rq.hs.idx t ≤ 0

structure Cpu.Kept (c : Cpu edf) : Prop where
  run : EdfRq.Placed c.rq
  timeouts : c.TimeoutsSound

theorem Cpu.Booted.kept {c : Cpu edf} (booted : c.Booted) : c.Kept := by
  have empty := booted.empty
  refine ⟨⟨⟨by omega, fun i positive inside => by omega, fun i notRoot inside => by omega⟩, ?_,
    fun u _ => booted.unplaced u⟩, booted.timeouts.timeoutsSound⟩
  rw [empty, booted.capacity]
  exact Nat.le_add_left ..

theorem toOption_eq_some {c : Cpu edf} {run : Except Failure (Cpu edf)} :
    run.toOption = some c ↔ run = .ok c := by
  cases run <;> simp [Except.toOption]

namespace Cpu.Kept

variable {c c' : Cpu edf} (kept : c.Kept)

include kept

theorem sched {event : Event} (stepped : step c event = .ok c') : c'.Kept := by
  refine ⟨step_ends EdfRq.Placed.keeps kept.run event c' stepped, ?_⟩
  cases about : event.thread with
  | some t =>
    have follows := step_follows kept.timeouts about
    rw [stepped] at follows
    exact follows.2.1
  | none =>
    cases event with
    | expire now =>
      have wakes := slTimeoutWakeupExpired_wakes kept.timeouts now
      rw [show slTimeoutWakeupExpired c now = .ok c' from stepped] at wakes
      exact wakes.1
    | _ => cases about

theorem life {event : LifeEvent} (new : CreatesNew c event) (stepped : lifeStep c event = .ok c') :
    c'.Kept := by
  cases event with
  | create t =>
    have stepped : (c.set t _).policy (slModThdCreate · t) = .ok c' := stepped
    obtain ⟨rq, created, rfl⟩ := Cpu.policy_eq_ok.mp stepped
    unfold slModThdCreate at created
    split_ifs at created
    cases created
    refine ⟨(kept.run.setDeadline new.1 _).unplace new.1, kept.timeouts.congr rfl fun u held => ?_⟩
    have other : u ≠ t := fun same => new.2 (same ▸ held)
    exact congrArg Thd.timeoutCycs (update_of_ne other ..)
  | setPrio t prio =>
    simp only [lifeStep, slModThdParamSet] at stepped
    split_ifs at stepped with outside
    obtain ⟨rq, added, rfl⟩ := Cpu.policy_eq_ok.mp stepped
    have absent : ¬c.rq.hs.Holds t := fun held =>
      absurd outside (Int.not_lt.mpr (kept.run.holds_iff.mp held).le)
    exact ⟨(kept.run.setDeadline absent _).add absent added,
      kept.timeouts.congr rfl fun _ _ => rfl⟩
  | setPrioBlock t prio =>
    simp only [lifeStep, slModThdParamSet] at stepped
    split_ifs at stepped with outside
    cases stepped
    have absent : ¬c.rq.hs.Holds t := fun held =>
      absurd outside (Int.not_lt.mpr (kept.run.holds_iff.mp held).le)
    refine ⟨kept.run.setDeadline absent _, ?_⟩
    have marked : (c.set t { c.thd t with state := .blocked }).TimeoutsSound :=
      kept.timeouts.set rfl
    exact marked.congr rfl fun _ _ => rfl
  | sched event => exact kept.sched stepped

end Cpu.Kept

/-- What freeing the thread `t` has to do: it is in neither heap and not in the index, and both
heaps have the other threads in order, each at its recorded place. -/
structure Freed (B : IndexBackend) (c : Cpu edf) (t : Nat) (c' : Cpu edf) (index' : B.Index) :
    Prop where
  dequeued : ¬c'.rq.hs.Holds t
  untimed : ¬c'.timeouts.Holds t
  unlisted : B.tryLkup index' t = false
  run : c'.rq.hs.Sound (compareMin c'.rq.deadline)
  timeouts : c'.timeouts.Sound (slTimeoutCompareMin c'.thd)
  others : ∀ u, u ≠ t → c'.thd u = c.thd u ∧ c'.rq.deadline u = c.rq.deadline u ∧
    (c'.rq.hs.Holds u ↔ c.rq.hs.Holds u) ∧ (c'.timeouts.Holds u ↔ c.timeouts.Holds u)

variable {c c' : Cpu edf} {t : Nat}

/-- A thread leaves the heap of timeouts if its state says so. -/
theorem leaveTimeout_spec (sound : c.TimeoutsSound) (left : leaveTimeout c t = .ok c') :
    c'.thd = c.thd ∧ c'.rq = c.rq ∧ c'.TimeoutsSound ∧
      ((c.thd t).state = .blockedTimeout → c.timeouts.Holds t) ∧
      (c'.timeouts.Holds t ↔ c.timeouts.Holds t ∧ (c.thd t).state ≠ .blockedTimeout) ∧
      ∀ u, u ≠ t → (c'.timeouts.Holds u ↔ c.timeouts.Holds u) := by
  unfold leaveTimeout at left
  split_ifs at left with timed
  · obtain ⟨placed, left⟩ := check_bind_eq_ok.mp left
    obtain ⟨_, left⟩ := check_bind_eq_ok.mp left
    have held : c.timeouts.Holds t := (sound.queued_iff t).mp (decide_eq_true placed)
    obtain ⟨h', removed, spec⟩ := heapRemove_spec sound.sound held
    rw [removed] at left
    cases left
    refine ⟨rfl, rfl, (sound.removed spec).1, fun _ => held, ?_, fun u other => ?_⟩
    · exact ⟨fun still => absurd rfl ((spec.holds t).mp still).1, fun both => absurd timed both.2⟩
    · exact (spec.holds u).trans (and_iff_right other)
  · cases left
    exact ⟨rfl, rfl, sound, fun isTimed => absurd isTimed timed, (and_iff_left timed).symm,
      fun _ _ => .rfl⟩

theorem leaveTimeout_returns (sound : c.TimeoutsSound)
    (held : (c.thd t).state = .blockedTimeout → c.timeouts.Holds t) :
    ∃ c', leaveTimeout c t = .ok c' := by
  unfold leaveTimeout
  split_ifs with timed
  · obtain ⟨h', removed, _⟩ := heapRemove_spec sound.sound (held timed)
    have positive := (sound.sound.indexed.data_idx (held timed)).1
    have filled : heapSize c.timeouts ≠ 0 := by
      obtain ⟨i, first, inside, _⟩ := held timed
      unfold heapSize
      omega
    rw [slTimeoutRemove, check, if_pos positive, ok_bind, check, if_pos filled, ok_bind, removed]
    exact ⟨_, rfl⟩
  · exact ⟨c, rfl⟩

/-- What a thread that is freed has left. -/
theorem slThdFreeNoCs_eq_ok (alive : (c.thd t).state ≠ .free) :
    slThdFreeNoCs c t = .ok c' ↔ ∃ left rq', leaveTimeout c t = .ok left ∧
      slModThdDelete left.rq t = some rq' ∧
      c' = (left.withRq rq').set t { left.thd t with state := .free } := by
  have checked : slThdFreeNoCs c t = leaveTimeout c t >>= fun left =>
      left.policy (slModThdDelete · t) >>= fun deleted =>
        .ok (deleted.set t { deleted.thd t with state := .free }) := by
    rw [slThdFreeNoCs, check, if_pos alive, ok_bind]
  rw [checked, bind_eq_ok]
  refine exists_congr fun left => ?_
  rw [bind_eq_ok]
  constructor
  · rintro ⟨isLeft, _, stepped, ended⟩
    obtain ⟨rq', deleted, rfl⟩ := Cpu.policy_eq_ok.mp stepped
    cases ended
    exact ⟨rq', isLeft, deleted, rfl⟩
  · rintro ⟨rq', isLeft, deleted, rfl⟩
    exact ⟨isLeft, _, Cpu.policy_of_eq deleted, rfl⟩

theorem Cpu.Kept.freed (kept : c.Kept) {left : Cpu edf} (isLeft : leaveTimeout c t = .ok left)
    {rq' : EdfRq} (deleted : slModThdDelete left.rq t = some rq') {B : IndexBackend}
    {index' : B.Index} (unlisted : B.tryLkup index' t = false)
    (untimed : ¬left.timeouts.Holds t) :
    Freed B c t ((left.withRq rq').set t { left.thd t with state := .free }) index' := by
  obtain ⟨sameThd, sameRq, timeouts, _, _, others⟩ := leaveTimeout_spec kept.timeouts isLeft
  rw [sameRq] at deleted
  obtain ⟨hs, rfl, spec⟩ := kept.run.delete_spec deleted
  have freed : (left.set t { left.thd t with state := .free }).TimeoutsSound := timeouts.set rfl
  refine ⟨fun still => ((spec.holds t).mp still).1 rfl, untimed, unlisted, spec.sound, freed.sound,
    fun u other => ⟨?_, rfl, ?_, others u other⟩⟩
  · rw [← sameThd]
    exact update_of_ne other ..
  · exact (spec.holds u).trans (and_iff_right other)

theorem Cpu.allBlocked_booted : Cpu.allBlocked.Booted :=
  ⟨Cpu.allBlocked_initial, rfl, rfl, fun _ => (by decide : (-1 : Int) ≤ 0)⟩

instance (h : Heap Nat) (t : Nat) : Decidable (h.Holds t) :=
  decidable_of_iff (∃ i < h.e, 0 < i ∧ h.data i = t)
    ⟨fun ⟨i, inside, positive, same⟩ => ⟨i, positive, inside, same⟩,
      fun ⟨i, positive, inside, same⟩ => ⟨i, inside, positive, same⟩⟩

end Composite.Sl
