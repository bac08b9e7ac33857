import Composite.Lib.Transition
import Composite.Sl.Edf
import Composite.Sl.Expiry

/-!
# The heap of timeouts and the threads that wait

A thread should be in the heap of timeouts exactly while it waits with a timeout.  A wakeup from
another core changes the state of its thread and leaves the heap alone, so that it may only reach
threads that do not wait with one.
-/

namespace Composite.Sl

open Transition Checked
open Eos (SlThdState)

variable {P : Policy} {c : Cpu P} {t : Nat}

def View.Linked (v : View) : Prop := v.queued = true ↔ v.state = .blockedTimeout

namespace View.Linked

variable {v v' : View} {blockType : SlThdState}

theorem of_unqueued (unqueued : v.queued = false) (awake : v.state ≠ .blockedTimeout) :
    v.Linked := by
  rw [View.Linked, unqueued]
  exact ⟨nofun, fun timed => absurd timed awake⟩

theorem unqueued (linked : v.Linked) (awake : v.state ≠ .blockedTimeout) : v.queued = false := by
  rw [← Bool.not_eq_true]
  exact mt linked.mp awake

theorem leaveTimeout (linked : v.Linked) (left : v.leaveTimeout = .ok v') :
    v' = { v with queued := false } := by
  unfold View.leaveTimeout at left
  split_ifs at left with timed
  · obtain ⟨_, rest⟩ := check_bind_eq_ok.mp left
    cases rest
    rfl
  · cases left
    rw [← linked.unqueued timed]

theorem leaveQueues (linked : v.Linked) (left : v.leaveQueues = .ok v') :
    v' = { v with queued := false } := by
  unfold View.leaveQueues at left
  split_ifs at left with timed blocked
  · obtain ⟨_, rest⟩ := check_bind_eq_ok.mp left
    cases rest
    rfl
  · cases left
    rw [← linked.unqueued timed]
  · obtain ⟨_, rest⟩ := check_bind_eq_ok.mp left
    cases rest
    rw [← linked.unqueued timed]

theorem sleep (unqueued : v.queued = false) (slept : v.sleep blockType = .ok v') : v'.Linked := by
  unfold View.sleep at slept
  split_ifs at slept with timed
  · obtain ⟨_, rest⟩ := check_bind_eq_ok.mp slept
    cases rest
    exact ⟨fun _ => timed, fun _ => rfl⟩
  · cases slept
    exact .of_unqueued unqueued timed

theorem wakeupNoCsRm (unqueued : v.queued = false) (woken : v.wakeupNoCsRm = .ok v') :
    v'.Linked := by
  obtain ⟨_, rest⟩ := check_bind_eq_ok.mp woken
  cases rest
  exact .of_unqueued unqueued (by simp)

section

variable (linked : v.Linked)

include linked

theorem schedUnblockNoCs (unblocked : v.schedUnblockNoCs = .ok v') : v'.Linked := by
  unfold View.schedUnblockNoCs at unblocked
  split_ifs at unblocked with suspended awake
  · cases unblocked
    exact linked
  · obtain ⟨middle, left, woken⟩ := bind_eq_ok.mp unblocked
    have marked : View.Linked { v with rcvSuspended := false } := linked
    obtain rfl := marked.leaveTimeout left
    exact .wakeupNoCsRm rfl woken
  · cases unblocked
    exact linked

theorem schedBlockNoCs (blocked : v.schedBlockNoCs blockType = .ok v') : v'.Linked := by
  unfold View.schedBlockNoCs at blocked
  split_ifs at blocked
  · cases blocked
    exact linked
  · obtain ⟨middle, left, rest⟩ := bind_eq_ok.mp blocked
    obtain rfl := linked.leaveQueues left
    obtain ⟨last, slept, marked⟩ := bind_eq_ok.mp rest
    have asleep : last.Linked := .sleep (v := { v with queued := false }) rfl slept
    cases marked
    exact asleep

theorem blockNoCs (blocked : v.blockNoCs blockType = .ok v') : v'.Linked := by
  unfold View.blockNoCs at blocked
  split_ifs at blocked with woken
  · obtain ⟨_, rest⟩ := check_bind_eq_ok.mp blocked
    cases rest
    refine .of_unqueued (linked.unqueued ?_) (by simp)
    rw [woken]
    simp
  · obtain ⟨middle, unblocked, rest⟩ := bind_eq_ok.mp blocked
    obtain ⟨runs, slept⟩ := check_bind_eq_ok.mp rest
    refine .sleep ((linked.schedUnblockNoCs unblocked).unqueued ?_) slept
    rw [runs]
    simp

theorem block (blocked : v.block = .ok v') : v'.Linked := by
  obtain ⟨_, rest⟩ := check_bind_eq_ok.mp blocked
  split_ifs at rest
  · exact blockNoCs (v := { v with wakeupCnt := Eos.cosFaa v.wakeupCnt (-1) }) linked rest
  · cases rest
    exact linked

theorem schedWakeupNoCs (woken : v.schedWakeupNoCs = .ok v') : v'.Linked := by
  unfold View.schedWakeupNoCs at woken
  split_ifs at woken with suspended runs
  · cases woken
    exact linked
  · obtain ⟨_, rest⟩ := check_bind_eq_ok.mp woken
    obtain ⟨middle, left, waked⟩ := bind_eq_ok.mp rest
    have marked : View.Linked { v with rcvSuspended := false } := linked
    obtain rfl := marked.leaveTimeout left
    cases waked
    exact .of_unqueued rfl (by simp)
  · cases woken
    exact linked

theorem wakeupNoCs (woken : v.wakeupNoCs = .ok v') : v'.Linked := by
  unfold View.wakeupNoCs at woken
  split_ifs at woken with child runs
  · cases woken
    exact linked
  · cases woken
    refine .of_unqueued (linked.unqueued fun timed => ?_) (by simp)
    rw [timed] at runs
    cases runs
  · obtain ⟨_, rest⟩ := check_bind_eq_ok.mp woken
    obtain ⟨middle, left, waked⟩ := bind_eq_ok.mp rest
    obtain rfl := linked.leaveTimeout left
    exact .wakeupNoCsRm rfl waked

theorem freeNoCs (freed : v.freeNoCs = .ok v') : v'.Linked := by
  obtain ⟨_, rest⟩ := check_bind_eq_ok.mp freed
  obtain ⟨middle, left, gone⟩ := bind_eq_ok.mp rest
  obtain rfl := linked.leaveTimeout left
  cases gone
  exact .of_unqueued rfl (by simp)

theorem schedEvent {blocked : Bool} {cycles : Nat} {timeout : Option Nat}
    (treated : v.schedEvent blocked cycles timeout = .ok v') : v'.Linked := by
  unfold View.schedEvent at treated
  split_ifs at treated
  · cases treated
    exact linked
  · cases timeout with
    | none => exact linked.schedBlockNoCs treated
    | some absTimeout => exact linked.schedBlockNoCs treated
  · cases treated
    exact linked
  · exact linked.schedWakeupNoCs treated

/-- Every step but a wakeup from another core, which must not reach a thread that waits with a
timeout. -/
theorem step {event : Event}
    (safe : ∀ t sp, event = .xcpuWakeup t ∨ event = .xcpuWakeupWithDl t sp →
      v.state ≠ .blockedTimeout) (stepped : v.step event = .ok v') : v'.Linked := by
  cases event with
  | block t => exact linked.block stepped
  | blockTimeout t absTimeout =>
    simp only [View.step] at stepped
    split_ifs at stepped
    · exact linked.block stepped
    · exact linked.blockNoCs stepped
  | blockPeriodic t => exact linked.blockNoCs stepped
  | wakeup curr t => exact linked.wakeupNoCs stepped
  | xcpuWakeup t => exact .wakeupNoCsRm (linked.unqueued (safe t 0 (.inl rfl))) stepped
  | xcpuWakeupWithDl t sp => exact .wakeupNoCsRm (linked.unqueued (safe t sp (.inr rfl))) stepped
  | expire now =>
    cases stepped
    exact linked
  | kernel t blocked cycles timeout => exact linked.schedEvent stepped
  | free t => exact linked.freeNoCs stepped

end

end View.Linked

def Event.NotStale (c : Cpu P) : Event → Prop
  | .xcpuWakeup t | .xcpuWakeupWithDl t _ => (c.thd t).state ≠ .blockedTimeout
  | _ => True

instance (c : Cpu P) (event : Event) : Decidable (event.NotStale c) := by
  induction event using Event.casesOn <;> unfold Event.NotStale <;> infer_instance

structure Cpu.TimeoutsExact (c : Cpu P) : Prop where
  sound : c.TimeoutsSound
  linked : ∀ t, (c.view t).Linked

theorem Cpu.Initial.timeoutsExact (initially : c.Initial) : c.TimeoutsExact := by
  refine ⟨initially.timeoutsSound, fun t => .of_unqueued ?_ (initially.untimed t)⟩
  have unplaced := initially.unplaced t
  simp [Cpu.view, Cpu.queued, unplaced]

theorem Cpu.TimeoutsExact.step (exact : c.TimeoutsExact) {event : Event} {c' : Cpu P}
    (safe : event.NotStale c) (stepped : Sl.step c event = .ok c') : c'.TimeoutsExact := by
  cases about : event.thread with
  | some t =>
    have follows := step_follows exact.sound about
    rw [stepped] at follows
    obtain ⟨viewed, sound, only⟩ := follows
    refine ⟨sound, fun u => ?_⟩
    by_cases isThread : u = t
    · subst isThread
      refine (exact.linked u).step ?_ viewed
      rintro t sp (rfl | rfl)
      · cases about
        exact safe
      · cases about
        exact safe
    · have same : c'.view u = c.view u := by
        simp only [Cpu.view, only u isThread]
      rw [same]
      exact exact.linked u
  | none =>
    cases event with
    | expire now =>
      have wakes := slTimeoutWakeupExpired_wakes exact.sound now
      rw [show slTimeoutWakeupExpired c now = .ok c' from stepped] at wakes
      refine ⟨wakes.1, fun t => ?_⟩
      by_cases expired : c.Expired now t
      · obtain ⟨runs, unqueued⟩ := View.expire_ok ((wakes.2 t).1 expired)
        refine .of_unqueued unqueued ?_
        rw [runs]
        simp
      · obtain ⟨thd, queued⟩ := (wakes.2 t).2 expired
        have same : c'.view t = c.view t := by
          simp only [Cpu.view, thd, queued]
        rw [same]
        exact exact.linked t
    | _ => cases about

/-- If no wakeup from another core reaches a thread that waits with a timeout, then over any run a
thread is in the heap of timeouts exactly if it waits with one, its index is then its place and -1
otherwise, and an expiry wakes exactly the threads whose timeout is not after the given time. -/
theorem timeouts_exact (initial : Cpu P) (initially : initial.Initial) {events : List Event}
    (notStale : Meets (fun c event => Event.NotStale c event) next initial events)
    (reached : exec next initial events = some c) :
    (∀ t, c.timeouts.Holds t ↔ (c.thd t).state = .blockedTimeout) ∧
    (∀ t, (c.thd t).state = .blockedTimeout →
      ∃ i : Nat, c.timeouts.idx t = i ∧ 0 < i ∧ i < c.timeouts.e ∧ c.timeouts.data i = t) ∧
    (∀ t, (c.thd t).state ≠ .blockedTimeout → c.timeouts.idx t = -1) ∧
    (∀ now c', step c (.expire now) = .ok c' → ∀ t,
      if (c.thd t).state = .blockedTimeout ∧ (c.thd t).timeoutCycs ≤ now then
        (c'.thd t).state = .runnable
      else c'.thd t = c.thd t) := by
  have kept : ∀ (before : Cpu P) event after, before.TimeoutsExact → event.NotStale before →
      next before event = some after → after.TimeoutsExact :=
    fun _ _ _ exact safe stepped => exact.step safe (next_eq_some.mp stepped)
  have exactly : c.TimeoutsExact := exec_invariant kept initially.timeoutsExact notStale reached
  have holds : ∀ t, c.timeouts.Holds t ↔ (c.thd t).state = .blockedTimeout := fun t =>
    (exactly.sound.queued_iff t).symm.trans (exactly.linked t)
  refine ⟨holds, fun t timed => ?_, fun t awake => ?_, fun now c' expired t => ?_⟩
  · obtain ⟨i, positive, inside, rfl⟩ := (holds t).mpr timed
    exact ⟨i, exactly.sound.sound.indexed i positive inside, positive, inside, rfl⟩
  · exact exactly.sound.unplaced t (mt (holds t).mp awake)
  · have wakes := slTimeoutWakeupExpired_wakes exactly.sound now
    rw [show slTimeoutWakeupExpired c now = .ok c' from expired] at wakes
    have timedIff : c.Expired now t ↔
        (c.thd t).state = .blockedTimeout ∧ (c.thd t).timeoutCycs ≤ now :=
      and_congr_left' (exactly.linked t)
    split_ifs with timed
    · exact (View.expire_ok ((wakes.2 t).1 (timedIff.mpr timed))).1
    · exact ((wakes.2 t).2 (mt timedIff.mp timed)).1

/-- Two threads wait, and the timeout of the first expires. -/
theorem timeouts_exact_two :
    ∃ c c' : Cpu edf, step c (.expire 150) = .ok c' ∧ (c'.thd 1).state = .runnable ∧
      c'.thd 2 = c.thd 2 ∧ c.timeouts.Holds 2 := by
  have run : ((exec next Cpu.allBlocked [.xcpuWakeupWithDl 1 40, .blockTimeout 1 100,
      .xcpuWakeupWithDl 2 30, .blockTimeout 2 200]).bind fun c =>
        (step c (.expire 150)).toOption.map fun _ =>
          ((c.thd 1).state, (c.thd 1).timeoutCycs, (c.thd 2).state, (c.thd 2).timeoutCycs)) =
      some (.blockedTimeout, 100, .blockedTimeout, 200) := by
    decide +kernel
  obtain ⟨c, reached, rest⟩ := Option.bind_eq_some_iff.mp run
  obtain ⟨c', expired, shown⟩ := Option.map_eq_some_iff.mp rest
  have expired : step c (.expire 150) = .ok c' := next_eq_some.mp expired
  simp only [Prod.mk.injEq] at shown
  obtain ⟨state1, timeout1, state2, timeout2⟩ := shown
  obtain ⟨holds, _, _, wakes⟩ :=
    timeouts_exact _ Cpu.allBlocked_initial (by decide +kernel) reached
  have first := wakes 150 c' expired 1
  have second := wakes 150 c' expired 2
  rw [if_pos ⟨state1, by omega⟩] at first
  rw [if_neg (by omega)] at second
  exact ⟨c, c', expired, first, second, (holds 2).mpr state2⟩

/-- A wakeup from another core leaves its thread in the heap of timeouts, and the next block with a
timeout fails an assertion. -/
theorem timeouts_exact_stale :
    ∃ c : Cpu edf, exec next Cpu.allBlocked
        [.xcpuWakeupWithDl 1 40, .blockTimeout 1 100, .xcpuWakeup 1] = some c ∧
      c.timeouts.Holds 1 ∧ (c.thd 1).state = .runnable ∧
      step c (.blockTimeout 1 200) = .error .thread := by
  have run : (exec next Cpu.allBlocked
      [.xcpuWakeupWithDl 1 40, .blockTimeout 1 100, .xcpuWakeup 1]).map
      (fun c => (c.timeouts.e, c.timeouts.data 1, (c.thd 1).state,
        decide (step c (.blockTimeout 1 200) = .error .thread))) =
      some (2, 1, .runnable, true) := by
    decide +kernel
  obtain ⟨c, reached, shown⟩ := Option.map_eq_some_iff.mp run
  simp only [Prod.mk.injEq, decide_eq_true_eq] at shown
  obtain ⟨last, entry, state, failed⟩ := shown
  exact ⟨c, reached, ⟨1, by omega, by omega, entry⟩, state, failed⟩

end Composite.Sl
