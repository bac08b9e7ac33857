import Composite.Sl.Window.Schedule

/-!
# Runs of the window of deadlines

A run keeps the run queues and their bits if no thread changes its deadline while it is queued, no
overdue thread yields, and a thread blocks before the time has moved it on, or leaves others in the
run queue it has moved to.
-/

namespace Composite.Sl.Window

open Eos (SlThdState)
open Transition SchedBitmaps

def Guarded (rq : SchedBitmaps) : Event → Prop
  | .setDeadline t _ => rq.prioIdx t = -1
  | .block t => ∀ moved ∈ rq.updateOffsets,
      moved.prioIdx t = rq.prioIdx t ∨ ∃ u ∈ moved.runqs (moved.prioIdx t).toNat, u ≠ t
  | .yield t => rq.prioIdx t ≠ -1 ∧ rq.tsc ≤ rq.deadline t
  | .schedule => ∀ moved ∈ rq.updateOffsets, moved.Fair
  | .wakeup _ _ | .advance _ => True

instance (rq : SchedBitmaps) (event : Event) : Decidable (Guarded rq event) := by
  cases event <;> unfold Guarded <;> infer_instance

theorem Timely.next {rq rq' : SchedBitmaps} {event : Event} (timely : rq.Timely)
    (guarded : Guarded rq event) (taken : Window.next rq event = some rq') : rq'.Timely := by
  cases event with
  | wakeup t wakeupCnt => exact timely.wakeup taken
  | setDeadline t v => exact timely.setDeadline taken guarded
  | block t => exact timely.block taken guarded
  | yield t => exact timely.yield taken guarded.1 guarded.2
  | schedule =>
    obtain ⟨found, moved, returned, updated, _⟩ := timely.schedule
    obtain ⟨sound, _, current⟩ := timely.updated updated
    simp only [Window.next, returned, Option.map_some, Option.some.injEq] at taken
    subst taken
    exact ⟨sound, Nat.le_of_eq current⟩
  | advance cycles =>
    obtain rfl := Option.some.inj taken
    refine ⟨⟨timely.sound.levels, timely.sound.member, timely.sound.placed, timely.sound.low⟩, ?_⟩
    exact Nat.le_trans timely.behind (Nat.div_le_div_right (Nat.le_add_right ..))

theorem initial_timely (tsc : Nat) (state : Nat → SlThdState) : (initial tsc state).Timely :=
  ⟨initial_sound tsc state _, Nat.le_refl _⟩

/-- In a run of guarded steps the bits of both levels are those of the run queues, and
`sl_mod_schedule` returns no thread only if none is queued and otherwise one that is due first. -/
theorem first_quantum_scheduled {tsc : Nat} {state : Nat → SlThdState} {events : List Event}
    {rq : SchedBitmaps} (meets : Meets Guarded next (initial tsc state) events)
    (reached : exec next (initial tsc state) events = some rq) :
    (∀ pos < 1024, (rq.lvl2 (pos / 32)).getLsbD (pos % 32) = true ↔ rq.runqs pos ≠ []) ∧
      (∀ word < 32, rq.lvl1.getLsbD word = true ↔ rq.lvl2 word ≠ 0) ∧
      ∃ found rq', rq.slModSchedule = some (found, rq') ∧
        (found = none → ∀ u, ¬rq.Queued u) ∧
        ∀ t, found = some t → rq.Queued t ∧ (Guarded rq .schedule →
          ∀ u, rq.Queued u → rq.due rq.currOffset t ≤ rq.due rq.currOffset u) := by
  have timely : rq.Timely :=
    exec_invariant (fun _ _ _ timely guarded taken => Timely.next timely guarded taken)
      (initial_timely tsc state) meets reached
  obtain ⟨found, rq', returned, updated, none, some⟩ := timely.schedule
  refine ⟨timely.sound.levels.places, timely.sound.levels.nonzero, found, rq', returned, none,
    fun t isThread => ?_⟩
  obtain ⟨queued, first⟩ := some t isThread
  exact ⟨queued, fun guarded => first (guarded rq' updated)⟩

def twoThreads : List Event :=
  [.setDeadline 1 4200000, .wakeup 1 1, .setDeadline 2 6300000, .wakeup 2 1, .schedule,
    .advance 1050000, .yield 1, .block 1, .schedule]

theorem first_quantum_scheduled_two :
    ∃ rq, exec next (initial 0 fun _ => .blocked) twoThreads = some rq ∧ rq.runqs 6 = [2] ∧
      ∃ found rq', rq.slModSchedule = some (found, rq') ∧
        (found = none → ∀ u, ¬rq.Queued u) ∧
        ∀ t, found = some t → ∀ u, rq.Queued u →
          rq.due rq.currOffset t ≤ rq.due rq.currOffset u := by
  have run : (exec next (initial 0 fun _ => .blocked) twoThreads).map
      (fun rq => (rq.runqs 6, decide (Guarded rq .schedule))) = some ([2], true) := by
    decide +kernel
  obtain ⟨rq, reached, seen⟩ := Option.map_eq_some_iff.mp run
  obtain ⟨queue, guarded⟩ := Prod.mk.inj seen
  obtain ⟨_, _, found, rq', returned, nobody, somebody⟩ :=
    first_quantum_scheduled (by decide +kernel) reached
  exact ⟨rq, reached, queue, found, rq', returned, nobody,
    fun t isThread => (somebody t isThread).2 (of_decide_eq_true guarded)⟩

def wrapped : List Event :=
  [.setDeadline 1 1082550000, .wakeup 1 1, .setDeadline 2 32550000, .wakeup 2 1]

def movedOn : List Event :=
  [.setDeadline 1 1, .wakeup 1 1, .setDeadline 2 5250000, .wakeup 2 1, .advance 1050000, .block 1]

def changed : List Event :=
  [.setDeadline 1 5250000, .wakeup 1 1, .setDeadline 1 6300000, .wakeup 1 1]

def overdue : List Event :=
  [.setDeadline 1 1, .wakeup 1 1, .advance 1050000, .setDeadline 2 5250000, .wakeup 2 1, .yield 1]

/-- The thread returned is due 1000 quanta after another one; no thread is returned although one is
queued, and the bit of an empty run queue is set; a bit stays behind with the old deadline; and a
thread that is due now waits for one that is not. -/
theorem first_quantum_scheduled_late :
    (∃ rq rq', exec next (initial 32550000 fun _ => .blocked) wrapped = some rq ∧
      rq.slModSchedule = some (some 1, rq') ∧ rq.Queued 2 ∧
      rq.due rq.currOffset 2 + 1000 = rq.due rq.currOffset 1) ∧
    (∃ rq rq', exec next (initial 0 fun _ => .blocked) movedOn = some rq ∧
      rq.slModSchedule = some (none, rq') ∧ rq.Queued 2 ∧
      rq.runqs 1 = [] ∧ (rq.lvl2 0).getLsbD 1 = true) ∧
    (∃ rq, exec next (initial 0 fun _ => .blocked) changed = some rq ∧
      rq.runqs 5 = [] ∧ (rq.lvl2 0).getLsbD 5 = true) ∧
    ∃ rq rq', exec next (initial 0 fun _ => .blocked) overdue = some rq ∧
      rq.slModSchedule = some (some 2, rq') ∧ rq.Queued 1 ∧
      rq.due rq.currOffset 1 < rq.due rq.currOffset 2 := by
  refine ⟨?_, ?_, ?_, ?_⟩
  · obtain ⟨rq, returned, reached, scheduled, seen⟩ := observed
      (show ((exec next (initial 32550000 fun _ => .blocked) wrapped).bind fun rq =>
        rq.slModSchedule.map fun returned => (returned.1, rq.runqs 31, rq.due rq.currOffset 2,
          rq.due rq.currOffset 1)) = some (some 1, [2], 31, 1031) by decide +kernel)
    simp only [Prod.mk.injEq] at seen
    obtain ⟨found, queue, near, far⟩ := seen
    refine ⟨rq, returned.2, reached, by rw [scheduled, ← found],
      .inr ⟨31, by simp [queue]⟩, by omega⟩
  · obtain ⟨rq, returned, reached, scheduled, seen⟩ := observed
      (show ((exec next (initial 0 fun _ => .blocked) movedOn).bind fun rq =>
        rq.slModSchedule.map fun returned => (returned.1, rq.runqs 5, rq.runqs 1,
          (rq.lvl2 0).getLsbD 1)) = some (none, [2], [], true) by decide +kernel)
    simp only [Prod.mk.injEq] at seen
    obtain ⟨found, queue, empty, bit⟩ := seen
    exact ⟨rq, returned.2, reached, by rw [scheduled, ← found], .inr ⟨5, by simp [queue]⟩, empty,
      bit⟩
  · have run : (exec next (initial 0 fun _ => .blocked) changed).map
        (fun rq => (rq.runqs 5, (rq.lvl2 0).getLsbD 5)) = some ([], true) := by decide +kernel
    obtain ⟨rq, reached, seen⟩ := Option.map_eq_some_iff.mp run
    exact ⟨rq, reached, Prod.mk.inj seen⟩
  · obtain ⟨rq, returned, reached, scheduled, seen⟩ := observed
      (show ((exec next (initial 0 fun _ => .blocked) overdue).bind fun rq =>
        rq.slModSchedule.map fun returned => (returned.1, rq.lowPrioRq, rq.due rq.currOffset 1,
          rq.due rq.currOffset 2)) = some (some 2, [1], 1, 5) by decide +kernel)
    simp only [Prod.mk.injEq] at seen
    obtain ⟨found, queue, now, later⟩ := seen
    exact ⟨rq, returned.2, reached, by rw [scheduled, ← found], .inl (by simp [queue]), by omega⟩

end Composite.Sl.Window
