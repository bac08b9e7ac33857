import Composite.Lib.TwoLevel
import Composite.Sl.Window.Model

/-!
# The run queues move with the time

A queued thread is in the run queue of its deadline, or of the present if its deadline has passed,
and the bits say which run queues have threads.  This stays so when the time advances and the
threads that are due move on.
-/

namespace Composite.Sl.Window

open Function
open Eos (SlThdState)
open TwoLevel

namespace SchedBitmaps

variable {rq : SchedBitmaps} {t now pos : Nat}

def due (rq : SchedBitmaps) (now t : Nat) : Nat := max (rq.deadline t / deadlineQuantumLen) now

/-- The run queues and the bitmaps at the time `now`. -/
structure Sound (rq : SchedBitmaps) (now : Nat) : Prop where
  levels : Levels rq.lvl1 rq.lvl2 (fun pos => rq.runqs pos ≠ [])
  member : ∀ t pos, t ∈ rq.runqs pos ↔ pos < 1024 ∧ rq.prioIdx t = pos
  placed : ∀ t, rq.prioIdx t = -1 ∨ (rq.state t = .runnable ∧ rq.due now t < now + 1024 ∧
    rq.prioIdx t = (rq.due now t % 1024 : Nat))
  low : rq.lowPrioRq = []

structure SameThreads (rq rq' : SchedBitmaps) : Prop where
  deadline : rq'.deadline = rq.deadline
  state : rq'.state = rq.state
  tsc : rq'.tsc = rq.tsc
  queued : ∀ t, rq'.prioIdx t = -1 ↔ rq.prioIdx t = -1

theorem SameThreads.trans {first second third : SchedBitmaps} (earlier : first.SameThreads second)
    (later : second.SameThreads third) : first.SameThreads third :=
  ⟨later.deadline.trans earlier.deadline, later.state.trans earlier.state,
    later.tsc.trans earlier.tsc, fun t => (later.queued t).trans (earlier.queued t)⟩

theorem initial_sound (tsc : Nat) (state : Nat → SlThdState) (now : Nat) :
    (initial tsc state).Sound now where
  levels := by
    refine ⟨fun place _ => ?_, fun word _ => ?_⟩ <;> simp [initial]
  member t pos := by
    constructor
    · intro member
      cases member
    · intro placed
      have placed : (-1 : Int) = pos := placed.2
      omega
  placed _ := .inl rfl
  low := rfl

theorem checkList_levels (rq : SchedBitmaps) {occupied : Nat → Prop}
    (levels : Levels rq.lvl1 rq.lvl2 occupied)
    (inside : pos < 1024) (others : ∀ other, other ≠ pos → (occupied other ↔ rq.runqs other ≠ []))
    (this : rq.runqs pos ≠ [] → occupied pos) :
    Levels (rq.checkList pos).lvl1 (rq.checkList pos).lvl2
      (fun other => (rq.checkList pos).runqs other ≠ []) := by
  unfold checkList
  split_ifs with empty
  · refine (levels.unset inside).congr fun other _ => ?_
    show other ≠ pos ∧ occupied other ↔ rq.runqs other ≠ []
    constructor
    · rintro ⟨different, isOccupied⟩
      exact (others other different).mp isOccupied
    · intro nonempty
      have different : other ≠ pos := fun same => nonempty (same ▸ empty)
      exact ⟨different, (others other different).mpr nonempty⟩
  · refine levels.congr fun other _ => ?_
    by_cases same : other = pos
    · subst same
      exact ⟨fun _ => empty, this⟩
    · exact others other same

theorem due_le (rq : SchedBitmaps) (now t : Nat) : now ≤ rq.due now t := Nat.le_max_right ..

theorem Sound.due_eq (sound : rq.Sound now) (placed : rq.prioIdx t = pos) :
    rq.state t = .runnable ∧ pos < 1024 ∧ rq.due now t = now + ahead (now % 1024) pos := by
  have later := rq.due_le now t
  rcases sound.placed t with unqueued | ⟨runs, bounded, place⟩
  · omega
  · unfold ahead
    exact ⟨runs, by omega, by omega⟩

theorem due_succ (rq : SchedBitmaps) (now t : Nat) :
    rq.due (now + 1) t = max (rq.due now t) (now + 1) := by
  unfold due
  omega

theorem Sound.succ_of_empty (sound : rq.Sound now) (empty : rq.runqs (now % 1024) = []) :
    rq.Sound (now + 1) := by
  refine { sound with placed := fun t => ?_ }
  rcases sound.placed t with unqueued | ⟨runs, bounded, place⟩
  · exact .inl unqueued
  · have notDue : rq.due now t ≠ now := by
      intro isDue
      have member := (sound.member t (now % 1024)).mpr ⟨by omega, by omega⟩
      rw [empty] at member
      cases member
    have := rq.due_le now t
    have := rq.due_succ now t
    exact .inr ⟨runs, by omega, by omega⟩

theorem Sound.appendAll (sound : rq.Sound now) (nonempty : rq.runqs (now % 1024) ≠ []) :
    (((rq.appendAll (now % 1024) ((now + 1) % 1024)).unsetBits (now % 1024)).setBits
      ((now + 1) % 1024)).Sound (now + 1) := by
  have isDue : ∀ t, t ∈ rq.runqs (now % 1024) ↔ rq.prioIdx t ≠ -1 ∧ rq.due now t = now := by
    intro t
    have := rq.due_le now t
    rw [sound.member t (now % 1024)]
    rcases sound.placed t with unqueued | ⟨runs, bounded, place⟩
    · omega
    · omega
  have queues : ∀ pos, update (update rq.runqs ((now + 1) % 1024)
      (rq.runqs ((now + 1) % 1024) ++ rq.runqs (now % 1024))) (now % 1024) [] pos =
        if pos = now % 1024 then []
        else if pos = (now + 1) % 1024 then
          rq.runqs ((now + 1) % 1024) ++ rq.runqs (now % 1024)
        else rq.runqs pos := by
    intro pos
    simp only [update_apply]
  refine ⟨?_, fun t pos => ?_, fun t => ?_, sound.low⟩
  · refine ((sound.levels.unset (by omega)).set (by omega)).congr fun pos _ => ?_
    show _ ↔ update (update rq.runqs _ _) _ [] pos ≠ []
    rw [queues]
    have apart : now % 1024 ≠ (now + 1) % 1024 := by omega
    split_ifs with isNow isNext
    · rw [isNow]
      simp [apart]
    · simp [isNext, nonempty]
    · simp [isNow, isNext]
  · show t ∈ update (update rq.runqs _ _) _ [] pos ↔
      pos < 1024 ∧ (if t ∈ rq.runqs (now % 1024) then _ else rq.prioIdx t) = (pos : Int)
    rw [queues]
    have apart : now % 1024 ≠ (now + 1) % 1024 := by omega
    have here := sound.member t (now % 1024)
    have there := sound.member t pos
    by_cases member : t ∈ rq.runqs (now % 1024)
    · have placed := here.mp member
      rw [if_pos member]
      split_ifs with isNow isNext
      · simp only [List.not_mem_nil, false_iff]
        omega
      · exact ⟨fun _ => by omega, fun _ => List.mem_append_right _ member⟩
      · rw [there]
        omega
    · rw [if_neg member]
      split_ifs with isNow isNext
      · rw [← there, isNow]
        simp [member]
      · rw [List.mem_append, ← isNext, there]
        exact ⟨fun either => either.resolve_right member, .inl⟩
      · exact there
  · show (if t ∈ rq.runqs (now % 1024) then (((now + 1) % 1024 : Nat) : Int) else rq.prioIdx t) =
      -1 ∨
      (rq.state t = .runnable ∧ rq.due (now + 1) t < now + 1 + 1024 ∧
        (if t ∈ rq.runqs (now % 1024) then (((now + 1) % 1024 : Nat) : Int) else rq.prioIdx t) =
          (rq.due (now + 1) t % 1024 : Nat))
    have := rq.due_le now t
    have := rq.due_succ now t
    rcases sound.placed t with unqueued | ⟨runs, bounded, place⟩
    · left
      rw [if_neg (fun member => ((isDue t).mp member).1 unqueued)]
      exact unqueued
    · right
      by_cases member : t ∈ rq.runqs (now % 1024)
      · rw [if_pos member]
        have := ((isDue t).mp member).2
        exact ⟨runs, by omega, by omega⟩
      · rw [if_neg member]
        have notDue : rq.due now t ≠ now := fun isNow => member ((isDue t).mpr ⟨by omega, isNow⟩)
        exact ⟨runs, by omega, by omega⟩

theorem moveQueue_sound (sound : rq.Sound now) :
    ∃ rq', rq.moveQueue now = some rq' ∧ rq'.Sound (now + 1) ∧ rq.SameThreads rq' := by
  unfold moveQueue deadlineWindowSz
  simp only
  by_cases empty : rq.runqs (now % 1024) = []
  · rw [if_pos empty]
    exact ⟨rq, rfl, sound.succ_of_empty empty, rfl, rfl, rfl, fun _ => .rfl⟩
  · have passes : ∀ node ∈ rq.runqs (now % 1024),
        rq.prioIdx node = (now % 1024 : Nat) ∧ rq.state node = .runnable := by
      intro node member
      have placed := (sound.member node _).mp member
      exact ⟨placed.2, (sound.due_eq placed.2).1⟩
    rw [if_neg empty, if_pos passes]
    refine ⟨_, rfl, sound.appendAll empty, rfl, rfl, rfl, fun t => ?_⟩
    show (if t ∈ rq.runqs (now % 1024) then (((now + 1) % 1024 : Nat) : Int) else rq.prioIdx t) =
      -1 ↔
      rq.prioIdx t = -1
    split_ifs with member
    · have := (passes t member).1
      simp only [false_iff]
      omega
    · exact .rfl

theorem moveQueues_sound (turns : Nat) (sound : rq.Sound now) :
    ∃ rq', moveQueues turns now rq = some rq' ∧ rq'.Sound (now + turns) ∧ rq.SameThreads rq' := by
  induction turns generalizing rq now with
  | zero => exact ⟨rq, rfl, sound, rfl, rfl, rfl, fun _ => .rfl⟩
  | succ turns ih =>
    obtain ⟨middle, moved, sound', same⟩ := moveQueue_sound sound
    obtain ⟨rq', rest, sound'', same'⟩ := ih sound'
    refine ⟨rq', Option.bind_eq_some_iff.mpr ⟨middle, moved, rest⟩, ?_, same.trans same'⟩
    rw [show now + (turns + 1) = now + 1 + turns by omega]
    exact sound''

structure Timely (rq : SchedBitmaps) : Prop where
  sound : rq.Sound rq.nowQuantized
  behind : rq.nowQuantized ≤ rq.currOffset

theorem Timely.updateOffsets (timely : rq.Timely) :
    ∃ rq', rq.updateOffsets = some rq' ∧ rq'.Sound rq'.nowQuantized ∧ rq.SameThreads rq' ∧
      rq'.nowQuantized = rq.currOffset := by
  obtain ⟨moved, returned, sound, same⟩ :=
    moveQueues_sound (rq.currOffset - rq.nowQuantized) timely.sound
  rw [Nat.add_sub_cancel' timely.behind] at sound
  refine ⟨{ moved with nowQuantized := rq.currOffset }, ?_, ?_, ?_, rfl⟩
  · exact Option.bind_eq_some_iff.mpr ⟨moved, returned, rfl⟩
  · exact ⟨sound.levels, sound.member, sound.placed, sound.low⟩
  · exact ⟨same.deadline, same.state, same.tsc, same.queued⟩

end SchedBitmaps

end Composite.Sl.Window
