import Composite.Lib.Transition
import Composite.Sl.Window.Offsets

/-!
# The thread that is due first

The operations of the policy keep the run queues and their bits, unless a thread leaves a run queue
whose bits are not looked after.  The search through the bitmaps begins at the word of the present
and not at its bit, so that it finds the thread that is due first only if no thread that is due at
the other end of the window shares that word.
-/

namespace Composite.Sl.Window

open Function Option List
open Composite.Bitmap (bitmapSet)
open Eos (SlThdState)
open Transition TwoLevel

namespace SchedBitmaps

variable {rq : SchedBitmaps} {t now pos : Nat} {rq' : SchedBitmaps}

theorem mem_rem {u : Nat} : u ∈ (rq.rem t).runqs pos ↔ u ∈ rq.runqs pos ∧ u ≠ t := by
  simp [rem]

section

variable (sound : rq.Sound now) (unqueued : rq.prioIdx t = -1)

include sound unqueued

theorem Sound.rem_unqueued : rq.rem t = rq := by
  have queues : (fun pos => (rq.runqs pos).filter (· ≠ t)) = rq.runqs := by
    funext pos
    refine filter_eq_self.mpr fun u member => decide_eq_true fun same => ?_
    have placed := ((sound.member u pos).mp member).2
    rw [same, unqueued] at placed
    omega
  have low : rq.lowPrioRq.filter (· ≠ t) = rq.lowPrioRq := by
    rw [sound.low]
    rfl
  unfold rem
  rw [queues, low]

theorem Sound.set_unqueued (v : Nat) (state : SlThdState) :
    Sound { rq with
      state := update rq.state t state
      deadline := update rq.deadline t v } now := by
  refine ⟨sound.levels, sound.member, fun u => ?_, sound.low⟩
  by_cases isThread : u = t
  · rw [isThread]
    exact .inl unqueued
  · simp only [due, update_of_ne isThread]
    exact sound.placed u

theorem Sound.enqueue (runs : rq.state t = .runnable) (bounded : rq.due now t < now + 1024)
    (place : pos = rq.due now t % 1024) :
    Sound ((append { rq with prioIdx := update rq.prioIdx t pos } pos t).setBits pos)
      now := by
  have inside : pos < 1024 := by omega
  refine ⟨(sound.levels.set inside).congr fun other _ => ?_, fun u other => ?_,
    fun u => ?_, sound.low⟩
  · show other = pos ∨ rq.runqs other ≠ [] ↔
      update rq.runqs pos (rq.runqs pos ++ [t]) other ≠ []
    by_cases same : other = pos
    · subst same
      rw [update_self]
      simp
    · rw [update_of_ne same]
      simp [same]
  · show u ∈ update rq.runqs pos (rq.runqs pos ++ [t]) other ↔
      other < 1024 ∧ update rq.prioIdx t (pos : Int) u = other
    have there := sound.member u other
    by_cases isThread : u = t
    · subst isThread
      rw [update_self]
      by_cases same : other = pos
      · subst same
        rw [update_self]
        simp [inside]
      · rw [update_of_ne same, there, unqueued]
        omega
    · rw [update_of_ne isThread]
      by_cases same : other = pos
      · subst same
        rw [update_self, mem_append, there]
        simp [isThread]
      · rw [update_of_ne same]
        exact there
  · show update rq.prioIdx t (pos : Int) u = -1 ∨ (rq.state u = .runnable ∧
      rq.due now u < now + 1024 ∧ update rq.prioIdx t (pos : Int) u = (rq.due now u % 1024 : Nat))
    by_cases isThread : u = t
    · subst isThread
      rw [update_self]
      exact .inr ⟨runs, bounded, by omega⟩
    · rw [update_of_ne isThread]
      exact sound.placed u

end

@[simp]
theorem checkList_runqs : (rq.checkList pos).runqs = rq.runqs := by
  unfold checkList
  split_ifs <;> rfl

@[simp]
theorem checkList_prioIdx : (rq.checkList pos).prioIdx = rq.prioIdx := by
  unfold checkList
  split_ifs <;> rfl

@[simp]
theorem checkList_state : (rq.checkList pos).state = rq.state := by
  unfold checkList
  split_ifs <;> rfl

@[simp]
theorem checkList_deadline : (rq.checkList pos).deadline = rq.deadline := by
  unfold checkList
  split_ifs <;> rfl

@[simp]
theorem checkList_lowPrioRq : (rq.checkList pos).lowPrioRq = rq.lowPrioRq := by
  unfold checkList
  split_ifs <;> rfl

@[simp]
theorem checkList_nowQuantized : (rq.checkList pos).nowQuantized = rq.nowQuantized := by
  unfold checkList
  split_ifs <;> rfl

@[simp]
theorem checkList_tsc : (rq.checkList pos).tsc = rq.tsc := by
  unfold checkList
  split_ifs <;> rfl

theorem nonempty_iff {queue : List Nat} : queue ≠ [] ↔ ∃ u, u ∈ queue :=
  ⟨exists_mem_of_ne_nil queue, fun ⟨_, member⟩ => ne_nil_of_mem member⟩

theorem rem_nonempty : (rq.rem t).runqs pos ≠ [] ↔ ∃ u ∈ rq.runqs pos, u ≠ t := by
  rw [nonempty_iff]
  exact exists_congr fun u => mem_rem

theorem Sound.dequeue (sound : rq.Sound now) {place : Nat} (placed : rq.prioIdx t = place)
    (inside : pos < 1024) (fine : pos = place ∨ ∃ u ∈ rq.runqs place, u ≠ t) :
    Sound { (rq.rem t).checkList pos with
      prioIdx := update ((rq.rem t).checkList pos).prioIdx t (-1)
      state := update ((rq.rem t).checkList pos).state t .blocked } now := by
  have elsewhere : ∀ other, other ≠ place → t ∉ rq.runqs other := by
    intro other different member
    have := ((sound.member t other).mp member).2
    omega
  refine ⟨checkList_levels (rq.rem t) sound.levels inside (fun other different => ?_) ?_,
    fun u other => ?_, fun u => ?_, ?_⟩
  · rw [rem_nonempty]
    constructor
    · intro nonempty
      by_cases isPlace : other = place
      · subst isPlace
        exact fine.resolve_left fun same => different same.symm
      · obtain ⟨u, member⟩ := exists_mem_of_ne_nil _ nonempty
        exact ⟨u, member, fun same => elsewhere other isPlace (same ▸ member)⟩
    · rintro ⟨u, member, _⟩
      exact ne_nil_of_mem member
  · intro nonempty
    obtain ⟨u, member, _⟩ := rem_nonempty.mp nonempty
    exact ne_nil_of_mem member
  · simp only [checkList_runqs, checkList_prioIdx, mem_rem, sound.member u other]
    by_cases isThread : u = t
    · subst isThread
      rw [update_self]
      omega
    · rw [update_of_ne isThread]
      simp [isThread, rem]
  · by_cases isThread : u = t
    · left
      rw [isThread]
      exact update_self ..
    · simp only [due, update_of_ne isThread, checkList_prioIdx, checkList_state,
        checkList_deadline]
      exact sound.placed u
  · simp only [checkList_lowPrioRq, rem, sound.low, filter_nil]

theorem Sound.requeue (sound : rq.Sound now) (placed : rq.prioIdx t = pos) (inside : pos < 1024) :
    Sound { (rq.rem t).append pos t with lvl2 := bitmapSet ((rq.rem t).append pos t).lvl2 pos }
      now := by
  have member : t ∈ rq.runqs pos := (sound.member t pos).mpr ⟨inside, placed⟩
  have members : ∀ u other, u ∈ ((rq.rem t).append pos t).runqs other ↔ u ∈ rq.runqs other := by
    intro u other
    show u ∈ update (rq.rem t).runqs pos ((rq.rem t).runqs pos ++ [t]) other ↔ _
    by_cases same : other = pos
    · subst same
      rw [update_self, mem_append, mem_rem, mem_singleton]
      by_cases isThread : u = t
      · simp [isThread, member]
      · simp [isThread]
    · rw [update_of_ne same, mem_rem]
      refine ⟨fun both => both.1, fun still => ⟨still, fun isThread => same ?_⟩⟩
      have := ((sound.member u other).mp still).2
      rw [isThread] at this
      omega
  refine ⟨(sound.levels.set_again inside (ne_nil_of_mem member)).congr fun other _ => ?_,
    fun u other => (members u other).trans (sound.member u other), sound.placed, ?_⟩
  · rw [nonempty_iff, nonempty_iff]
    exact exists_congr fun u => (members u other).symm
  · simp only [append, rem, sound.low, filter_nil]

theorem updateOffsets_now (current : rq.nowQuantized = rq.currOffset) :
    rq.updateOffsets = some rq := by
  unfold updateOffsets
  rw [current, Nat.sub_self]
  simp only [moveQueues]
  rw [← current]
  rfl

theorem Sound.set_runnable (sound : rq.Sound now) :
    Sound { rq with state := update rq.state t .runnable } now := by
  refine ⟨sound.levels, sound.member, fun u => ?_, sound.low⟩
  by_cases isThread : u = t
  · subst isThread
    rcases sound.placed u with unqueued | ⟨_, rest⟩
    · exact .inl unqueued
    · exact .inr ⟨update_self .., rest⟩
  · simp only [due, update_of_ne isThread]
    exact sound.placed u

theorem Timely.updated (timely : rq.Timely) {moved : SchedBitmaps}
    (updated : rq.updateOffsets = some moved) :
    moved.Sound moved.nowQuantized ∧ rq.SameThreads moved ∧
      moved.nowQuantized = moved.currOffset := by
  obtain ⟨other, returned, sound, same, current⟩ := timely.updateOffsets
  obtain rfl : other = moved := some.inj (returned.symm.trans updated)
  refine ⟨sound, same, ?_⟩
  rw [current, currOffset, currOffset, same.tsc]

theorem Timely.wakeup (timely : rq.Timely) {wakeupCnt : Int}
    (woken : slModWakeup { rq with state := update rq.state t .runnable } t wakeupCnt =
      some rq') : rq'.Timely := by
  have marked : Timely { rq with state := update rq.state t .runnable } :=
    ⟨timely.sound.set_runnable, timely.behind⟩
  obtain ⟨moved, updated, woken⟩ := bind_eq_some_iff.mp woken
  obtain ⟨sound, same, current⟩ := marked.updated updated
  have runs : moved.state t = .runnable := by
    rw [same.state]
    exact update_self ..
  have isDue : moved.due moved.nowQuantized t =
      if rq.deadline t / deadlineQuantumLen < moved.nowQuantized then moved.nowQuantized
      else rq.deadline t / deadlineQuantumLen := by
    rw [due, same.deadline]
    show max (rq.deadline t / deadlineQuantumLen) moved.nowQuantized = _
    split_ifs <;> omega
  by_cases unqueued : moved.prioIdx t = -1
  · have before : ¬rq.prioIdx t ≥ 0 := by
      rw [(same.queued t).mp unqueued]
      decide
    rw [sound.rem_unqueued unqueued] at woken
    simp only [← isDue, before, unqueued, if_false, if_true] at woken
    split_ifs at woken with refused inWindow
    obtain rfl := some.inj woken
    exact ⟨sound.enqueue unqueued runs inWindow rfl, Nat.le_of_eq current⟩
  · simp only [checkList_prioIdx, rem, unqueued, apply_ite prioIdx, ite_self, if_false] at woken
    cases woken

/-- The second half of `sl_mod_block` changes nothing more. -/
theorem Sound.settled (sound : rq.Sound rq.nowQuantized)
    (current : rq.nowQuantized = rq.currOffset)
    (returned : (rq.updateOffsets.bind fun rq => if rq.prioIdx t = -1 then some rq else none) =
      some rq') : rq'.Timely := by
  rw [updateOffsets_now current, bind_some] at returned
  split_ifs at returned
  obtain rfl := some.inj returned
  exact ⟨sound, Nat.le_of_eq current⟩

theorem Timely.block (timely : rq.Timely) (blocked : slModBlock rq t = some rq')
    (watched : ∀ moved, rq.updateOffsets = some moved →
      moved.prioIdx t = rq.prioIdx t ∨ ∃ u ∈ moved.runqs (moved.prioIdx t).toNat, u ≠ t) :
    rq'.Timely := by
  obtain ⟨moved, updated, blocked⟩ := bind_eq_some_iff.mp blocked
  obtain ⟨sound, same, current⟩ := timely.updated updated
  have fine := watched moved updated
  rcases timely.sound.placed t with before | ⟨_, _, before⟩
  · have unqueued : moved.prioIdx t = -1 := (same.queued t).mpr before
    have stopped := sound.set_unqueued unqueued (moved.deadline t) .blocked
    rw [update_eq_self] at stopped
    rw [sound.rem_unqueued unqueued, before] at blocked
    simp only [ne_eq, not_true_eq_false, if_false] at blocked
    exact Sound.settled stopped current blocked
  · have queued : rq.prioIdx t ≠ -1 := by omega
    rcases sound.placed t with unqueued | ⟨_, _, placed⟩
    · exact absurd ((same.queued t).mp unqueued) queued
    · simp only [if_pos queued] at blocked
      have leaves : (rq.prioIdx t).toNat = moved.due moved.nowQuantized t % 1024 ∨
          ∃ u ∈ moved.runqs (moved.due moved.nowQuantized t % 1024), u ≠ t := by
        rw [placed, Int.toNat_natCast] at fine
        exact fine.imp_left fun same => by omega
      have removed := sound.dequeue placed (by omega) leaves
      refine Sound.settled ?_ ?_ blocked
      · simp only [checkList_nowQuantized, rem] at removed ⊢
        exact removed
      · simp only [checkList_nowQuantized, currOffset, checkList_tsc, rem]
        exact current

theorem Timely.yield (timely : rq.Timely) (yielded : slModYield rq t = some rq')
    (queued : rq.prioIdx t ≠ -1) (early : rq.tsc ≤ rq.deadline t) : rq'.Timely := by
  obtain ⟨moved, updated, yielded⟩ := bind_eq_some_iff.mp yielded
  obtain ⟨sound, same, current⟩ := timely.updated updated
  have stays : ¬((moved.rem t).deadline t < (moved.rem t).tsc ∨ moved.prioIdx t = -1) := by
    rw [same.queued t]
    simp only [rem, same.deadline, same.tsc]
    omega
  rcases sound.placed t with unqueued | ⟨_, _, placed⟩
  · exact absurd ((same.queued t).mp unqueued) queued
  · simp only [if_neg stays] at yielded
    split_ifs at yielded with inside
    obtain rfl := some.inj yielded
    rw [placed, Int.toNat_natCast]
    exact ⟨sound.requeue placed (Nat.mod_lt _ (by decide)), Nat.le_of_eq current⟩

theorem Timely.setDeadline (timely : rq.Timely) {v : Nat}
    (set : slModThdParamSet rq t v = some rq') (before : rq.prioIdx t = -1) : rq'.Timely := by
  obtain ⟨moved, updated, set⟩ := bind_eq_some_iff.mp set
  obtain ⟨sound, same, current⟩ := timely.updated updated
  have unqueued : moved.prioIdx t = -1 := (same.queued t).mpr before
  have unchanged : update moved.prioIdx t (-1) = moved.prioIdx := by
    rw [← unqueued, update_eq_self]
  rw [unchanged] at set
  split_ifs at set
  obtain rfl := some.inj set
  exact ⟨sound.set_unqueued unqueued v .blocked, Nat.le_of_eq current⟩

theorem firstBitLvl1_eq {lvl1 : BitVec 32} (nonzero : lvl1 ≠ 0) {rotation : Nat}
    (small : rotation < 32) : firstBitLvl1 lvl1 rotation = some (firstWord lvl1 rotation) := by
  have low := (Words.ctz_spec (rotr_ne_zero nonzero small)).1
  unfold firstBitLvl1 firstWord
  rw [if_pos small]
  simp only
  split_ifs
  · rw [Nat.mod_eq_of_lt (by omega)]
  · congr 1
    omega

/-- No thread that is due at the other end of the window shares the word of the present, or all
threads do. -/
def Fair (rq : SchedBitmaps) : Prop :=
  (∀ pos < 1024, rq.runqs pos ≠ [] → ¬Behind (rq.nowQuantized % 1024) pos) ∨
    ∀ pos < 1024, rq.runqs pos ≠ [] → Behind (rq.nowQuantized % 1024) pos

instance (rq : SchedBitmaps) : Decidable rq.Fair := by
  unfold Fair
  infer_instance

def Queued (rq : SchedBitmaps) (t : Nat) : Prop := t ∈ rq.lowPrioRq ∨ ∃ pos, t ∈ rq.runqs pos

theorem Sound.queued_iff (sound : rq.Sound now) : rq.Queued t ↔ rq.prioIdx t ≠ -1 := by
  unfold Queued
  rw [sound.low]
  constructor
  · rintro (impossible | ⟨pos, member⟩)
    · cases impossible
    · have := ((sound.member t pos).mp member).2
      omega
  · intro queued
    rcases sound.placed t with unqueued | ⟨_, _, placed⟩
    · exact absurd unqueued queued
    · exact .inr ⟨_, (sound.member t _).mpr ⟨Nat.mod_lt _ (by decide), placed⟩⟩

/-- `sl_mod_schedule` returns a thread unless there is none, and the thread that is due first unless
the word of the present misleads it. -/
theorem Timely.schedule (timely : rq.Timely) :
    ∃ found rq', rq.slModSchedule = some (found, rq') ∧ rq.updateOffsets = some rq' ∧
      (found = none → ∀ u, ¬rq.Queued u) ∧
      ∀ t, found = some t → rq.Queued t ∧ (rq'.Fair →
        ∀ u, rq.Queued u → rq.due rq.currOffset t ≤ rq.due rq.currOffset u) := by
  obtain ⟨moved, updated, sound, same, current⟩ := timely.updateOffsets
  have queuedIff : ∀ u, rq.Queued u ↔ moved.prioIdx u ≠ -1 := by
    intro u
    rw [timely.sound.queued_iff, ne_eq, ne_eq, same.queued u]
  have sameDue : ∀ u, rq.due rq.currOffset u = moved.due moved.nowQuantized u := by
    intro u
    rw [due, due, same.deadline, current]
  have queuedAt : ∀ u, rq.Queued u →
      ∃ pos : Nat, pos < 1024 ∧ moved.prioIdx u = pos ∧ moved.runqs pos ≠ [] := by
    intro u queued
    rcases sound.placed u with unqueued | ⟨_, _, placed⟩
    · exact absurd unqueued ((queuedIff u).mp queued)
    · have inside : moved.due moved.nowQuantized u % 1024 < 1024 := Nat.mod_lt _ (by decide)
      exact ⟨_, inside, placed, ne_nil_of_mem ((sound.member u _).mpr ⟨inside, placed⟩)⟩
  unfold slModSchedule
  rw [updated]
  simp only [bind_eq_bind, bind_some]
  by_cases empty : moved.lvl1 = 0
  · rw [if_pos empty, sound.low]
    refine ⟨none, moved, rfl, rfl, fun _ u queued => ?_, nofun⟩
    obtain ⟨pos, inside, _, nonempty⟩ := queuedAt u queued
    exact sound.levels.empty empty inside nonempty
  · have small : moved.nowQuantized % 1024 < 1024 := Nat.mod_lt _ (by decide)
    obtain ⟨inside, nonempty, _⟩ := sound.levels.search_spec empty small
    have nearest : moved.Fair → ∀ pos < 1024, moved.runqs pos ≠ [] →
        ahead (moved.nowQuantized % 1024)
            (search moved.lvl1 moved.lvl2 (moved.nowQuantized % 1024)) ≤
          ahead (moved.nowQuantized % 1024) pos :=
      fun fair pos inside occupied => sound.levels.nearest empty small fair inside occupied
    rw [if_neg empty, firstBitLvl1_eq empty (by unfold deadlineWindowSz; omega), bind_some]
    unfold deadlineWindowSz
    have isSearch : firstWord moved.lvl1 (moved.nowQuantized % 1024 / 32) * 32 +
        (moved.lvl2 (firstWord moved.lvl1 (moved.nowQuantized % 1024 / 32))).ctz.toNat =
          search moved.lvl1 moved.lvl2 (moved.nowQuantized % 1024) := rfl
    rw [isSearch]
    generalize search moved.lvl1 moved.lvl2 (moved.nowQuantized % 1024) = place at *
    rw [if_pos inside]
    cases queue : moved.runqs place with
    | nil => exact absurd queue nonempty
    | cons thd rest =>
      have member : thd ∈ moved.runqs place := by
        rw [queue]
        exact mem_cons_self
      have placed := ((sound.member thd place).mp member).2
      simp only [placed, if_true]
      refine ⟨some thd, moved, rfl, rfl, nofun, ?_⟩
      rintro t ⟨⟩
      refine ⟨(queuedIff thd).mpr (by omega), fun fair u queued => ?_⟩
      obtain ⟨pos, posInside, there, occupied⟩ := queuedAt u queued
      rw [sameDue, sameDue, (sound.due_eq placed).2.2, (sound.due_eq there).2.2]
      exact Nat.add_le_add_left (nearest fair pos posInside occupied) _

end SchedBitmaps

end Composite.Sl.Window
