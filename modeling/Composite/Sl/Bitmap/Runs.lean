import Composite.Lib.Counting
import Composite.Lib.Transition
import Composite.Lib.TwoLevel
import Composite.Sl.Bitmap.Model

/-!
# Runs of the map of intervals

The map and the counters follow the lists only while a thread is woken from outside the lists and
blocks as the last thread of the interval that its deadline has from the base.  A thread is found
only in the first of the three words.
-/

namespace Composite.Sl.Bitmap

open Function Option List
open Eos (SlThdState)
open Transition Words

theorem changeBit_eq (change : BitVec 32 → Nat → BitVec 32) (bitmap : Nat → BitVec 32) {pos : Nat}
    (inside : pos ≤ 95) :
    changeBit change bitmap pos =
      some (update bitmap (pos / 32) (change (bitmap (pos / 32)) (pos % 32))) := by
  unfold changeBit
  rw [if_pos inside]
  split_ifs
  · rw [Nat.div_eq_of_lt ‹_›, Nat.mod_eq_of_lt ‹_›]
  · rw [show pos / 32 = 1 by omega, show pos % 32 = pos - 32 by omega]
  · rw [show pos / 32 = 2 by omega, show pos % 32 = pos - 64 by omega]

theorem setBitAt_eq (bitmap : Nat → BitVec 32) {pos : Nat} (inside : pos ≤ 95) :
    setBitAt bitmap pos = some (TwoLevel.set bitmap pos) := changeBit_eq setBit bitmap inside

theorem clearBitAt_eq (bitmap : Nat → BitVec 32) {pos : Nat} (inside : pos ≤ 95) :
    clearBitAt bitmap pos = some (TwoLevel.unset bitmap pos) := changeBit_eq clearBit bitmap inside

theorem lt_of_near {pos : BitVec 64} (near : pos < 95#64) : pos.toNat < 95 := by
  simpa [BitVec.lt_def] using near

namespace Rq

variable {rq rq' : Rq} {t pos : Nat}

structure Sound (rq : Rq) : Prop where
  bits : ∀ pos ≤ 95, (rq.bitmap (pos / 32)).getLsbD (pos % 32) = true ↔ rq.threads pos ≠ []
  outside : ∀ pos, 95 ≤ pos → rq.threads pos = []
  enqueued : rq.enqueued = ∑ pos ∈ Finset.range 95, ((rq.threads pos).length : Int)
  toSched : rq.toSched = rq.toSchedList.length
  apart : ∀ t pos other, t ∈ rq.threads pos → t ∈ rq.threads other → pos = other
  nodup : ∀ pos, (rq.threads pos).Nodup

def Enqueued (rq : Rq) (t : Nat) : Prop := ∃ pos < 95, t ∈ rq.threads pos

instance (rq : Rq) (t : Nat) : Decidable (rq.Enqueued t) := by
  unfold Enqueued
  infer_instance

theorem Sound.of_same (sound : rq.Sound) (bitmap : rq'.bitmap = rq.bitmap)
    (threads : rq'.threads = rq.threads) (toSchedList : rq'.toSchedList = rq.toSchedList)
    (enqueued : rq'.enqueued = rq.enqueued) (toSched : rq'.toSched = rq.toSched) : rq'.Sound := by
  constructor
  · rw [bitmap, threads]
    exact sound.bits
  · rw [threads]
    exact sound.outside
  · rw [threads, enqueued]
    exact sound.enqueued
  · rw [toSched, toSchedList]
    exact sound.toSched
  · rw [threads]
    exact sound.apart
  · rw [threads]
    exact sound.nodup

theorem Sound.of_mem (sound : rq.Sound) (member : t ∈ rq.threads pos) : pos < 95 := by
  refine Nat.lt_of_not_le fun beyond => ?_
  rw [sound.outside pos beyond] at member
  cases member

theorem initial_sound (tsc : BitVec 64) (state : Nat → SlThdState) : (initial tsc state).Sound where
  bits _ _ := by simp [initial]
  outside _ _ := rfl
  enqueued := by simp [initial]
  toSched := rfl
  apart _ _ _ member := by cases member
  nodup _ := nodup_nil

theorem mem_rem {u : Nat} : u ∈ (rq.rem t).threads pos ↔ u ∈ rq.threads pos ∧ u ≠ t := by
  simp [rem]

theorem Sound.rem_unlisted (sound : rq.Sound) (free : ¬rq.Enqueued t) (away : t ∉ rq.toSchedList) :
    rq.rem t = rq := by
  have lists : (fun pos => (rq.threads pos).filter (· ≠ t)) = rq.threads := by
    funext pos
    refine filter_eq_self.mpr fun u member => decide_eq_true fun same => ?_
    subst same
    exact free ⟨pos, sound.of_mem member, member⟩
  have waiting : rq.toSchedList.filter (· ≠ t) = rq.toSchedList := by
    refine filter_eq_self.mpr fun u member => decide_eq_true fun same => ?_
    subst same
    exact away member
  unfold rem
  rw [lists, waiting]

theorem Sound.enqueue (sound : rq.Sound) (free : ¬rq.Enqueued t) (inside : pos < 95)
    (entered : rq.enqueue pos t = some rq') : rq'.Sound := by
  unfold Rq.enqueue at entered
  rw [setBitAt_eq _ (Nat.le_of_lt inside)] at entered
  obtain rfl := some.inj entered
  have elsewhere : ∀ other, t ∉ rq.threads other := fun other member =>
    free ⟨other, sound.of_mem member, member⟩
  have members : ∀ u other, u ∈ update rq.threads pos (t :: rq.threads pos) other ↔
      u ∈ rq.threads other ∨ u = t ∧ other = pos := by
    intro u other
    by_cases same : other = pos
    · subst same
      rw [update_self, mem_cons]
      tauto
    · rw [update_of_ne same]
      tauto
  refine ⟨fun other otherInside => ?_, fun other beyond => ?_, ?_, sound.toSched,
    fun u place other here there => ?_, fun other => ?_⟩
  · show _ ↔ update rq.threads pos (t :: rq.threads pos) other ≠ []
    rw [TwoLevel.set_getLsbD, Bool.or_eq_true, sound.bits other otherInside, decide_eq_true_eq]
    by_cases same : other = pos
    · subst same
      rw [update_self]
      simp
    · rw [update_of_ne same]
      simp [same]
  · show update rq.threads pos (t :: rq.threads pos) other = []
    rw [update_of_ne (by omega)]
    exact sound.outside other beyond
  · have changed := Counting.sum_change (fun other => ((rq.threads other).length : Int))
      (fun other => ((update rq.threads pos (t :: rq.threads pos) other).length : Int))
      (Finset.mem_range.mpr inside)
      fun other _ different => by rw [update_of_ne different]
    rw [update_self, length_cons, ← sound.enqueued] at changed
    refine Eq.trans ?_ changed.symm
    push_cast
    omega
  · rcases (members u place).mp here with before | ⟨rfl, rfl⟩
    · rcases (members u other).mp there with alsoBefore | ⟨rfl, rfl⟩
      · exact sound.apart u place other before alsoBefore
      · exact absurd before (elsewhere place)
    · rcases (members u other).mp there with before | ⟨_, rfl⟩
      · exact absurd before (elsewhere other)
      · rfl
  · show (update rq.threads pos (t :: rq.threads pos) other).Nodup
    by_cases same : other = pos
    · subst same
      rw [update_self]
      exact nodup_cons.mpr ⟨elsewhere other, sound.nodup other⟩
    · rw [update_of_ne same]
      exact sound.nodup other

theorem Sound.wakeup (sound : rq.Sound) (free : ¬rq.Enqueued t) (away : t ∉ rq.toSchedList)
    (woken : rq.slModWakeup t = some rq') : rq'.Sound := by
  unfold slModWakeup at woken
  rw [sound.rem_unlisted free away] at woken
  obtain ⟨started, based, woken⟩ := bind_eq_some_iff.mp woken
  have soundStart : started.Sound ∧ started.threads = rq.threads := by
    unfold startBase at based
    split_ifs at based
    · obtain rfl := some.inj based
      exact ⟨sound.of_same rfl rfl rfl rfl rfl, rfl⟩
    · obtain rfl := some.inj based
      exact ⟨sound, rfl⟩
  have freeStart : ¬started.Enqueued t := by
    unfold Enqueued
    rw [soundStart.2]
    exact free
  simp only at woken
  split_ifs at woken with near
  · exact soundStart.1.enqueue freeStart (lt_of_near near) woken
  · obtain rfl := some.inj woken
    refine { soundStart.1 with toSched := ?_ }
    show started.toSched + 1 = ((t :: started.toSchedList).length : Int)
    rw [soundStart.1.toSched, length_cons]
    push_cast
    rfl

/-- The thread that blocks is the last of its interval as counted from the base, and it is not the
last of another interval.  A thread on no list leaves the counter alone only if it finds another
there. -/
def Leaves (rq : Rq) (t : Nat) : Prop :=
  let pos := (interval (rq.deadline t) rq.base).toNat
  pos < 95 ∧ t ∉ rq.toSchedList ∧
    (rq.Enqueued t → (∀ u ∈ rq.threads pos, u = t) ∧
      ∀ other < 95, t ∈ rq.threads other → other = pos ∨ ∃ u ∈ rq.threads other, u ≠ t) ∧
    (¬rq.Enqueued t → rq.threads pos ≠ [])

instance (rq : Rq) (t : Nat) : Decidable (rq.Leaves t) := by
  unfold Leaves
  infer_instance

theorem length_filter_ne {list : List Nat} (nodup : list.Nodup) (member : t ∈ list) :
    ((list.filter (· ≠ t)).length : Int) = list.length - 1 := by
  have positive := length_pos_of_mem member
  have isErase : list.filter (· ≠ t) = list.erase t := by
    rw [nodup.erase_eq_filter]
    refine filter_congr fun u _ => ?_
    rw [Bool.eq_iff_iff]
    simp
  rw [isErase, length_erase_of_mem member]
  omega

theorem Sound.rem_length (sound : rq.Sound) (member : t ∈ rq.threads pos) :
    ∑ other ∈ Finset.range 95, (((rq.rem t).threads other).length : Int) = rq.enqueued - 1 := by
  have changed := Counting.sum_change (fun other => ((rq.threads other).length : Int))
    (fun other => (((rq.rem t).threads other).length : Int))
    (Finset.mem_range.mpr (sound.of_mem member)) fun other _ different => by
      have same : (rq.rem t).threads other = rq.threads other :=
        filter_eq_self.mpr fun u there => decide_eq_true fun isThread =>
          different (sound.apart t other pos (isThread ▸ there) member)
      rw [same]
  rw [changed, ← sound.enqueued]
  have shorter : (((rq.rem t).threads pos).length : Int) = (rq.threads pos).length - 1 :=
    length_filter_ne (sound.nodup pos) member
  omega

theorem Sound.block (sound : rq.Sound) (leaves : rq.Leaves t) :
    ∃ rq', rq.slModBlock t = some rq' ∧ rq'.Sound := by
  obtain ⟨inside, away, listed, unlisted⟩ := leaves
  have near : interval (rq.deadline t) rq.base < 95#64 := by simpa [BitVec.lt_def] using inside
  suffices left : ∃ left, (rq.rem t).leave (interval (rq.deadline t) rq.base).toNat = some left ∧
      left.Sound by
    obtain ⟨left, leaving, sound⟩ := left
    refine ⟨{ left with state := update left.state t .blocked }, ?_,
      sound.of_same rfl rfl rfl rfl rfl⟩
    unfold slModBlock
    simp only
    rw [if_pos near, leaving]
    rfl
  generalize (interval (rq.deadline t) rq.base).toNat = pos at *
  unfold leave
  by_cases enqueued : rq.Enqueued t
  · obtain ⟨alone, others⟩ := listed enqueued
    obtain ⟨place, _, member⟩ := enqueued
    have empty : (rq.rem t).threads pos = [] := by
      refine eq_nil_iff_forall_not_mem.mpr fun u there => ?_
      exact (mem_rem.mp there).2 (alone u (mem_rem.mp there).1)
    rw [if_pos empty, clearBitAt_eq _ (Nat.le_of_lt inside)]
    refine ⟨_, rfl, fun other otherInside => ?_, fun other beyond => ?_, ?_, ?_,
      fun u first second here there => ?_, fun other => ?_⟩
    · show _ ↔ (rq.rem t).threads other ≠ []
      have before : (rq.bitmap (other / 32)).getLsbD (other % 32) = true ↔ rq.threads other ≠ [] :=
        sound.bits other otherInside
      rw [show (rq.rem t).bitmap = rq.bitmap from rfl, TwoLevel.unset_getLsbD, Bool.and_eq_true,
        before, decide_eq_true_eq]
      constructor
      · rintro ⟨nonempty, different⟩
        obtain ⟨u, there⟩ := exists_mem_of_ne_nil _ nonempty
        by_cases isThread : u = t
        · subst isThread
          obtain ⟨left, there, notThread⟩ :=
            (others other (sound.of_mem there) there).resolve_left different
          exact ne_nil_of_mem (mem_rem.mpr ⟨there, notThread⟩)
        · exact ne_nil_of_mem (mem_rem.mpr ⟨there, isThread⟩)
      · intro nonempty
        obtain ⟨u, there⟩ := exists_mem_of_ne_nil _ nonempty
        refine ⟨ne_nil_of_mem (mem_rem.mp there).1, fun same => nonempty ?_⟩
        rw [same]
        exact empty
    · show (rq.threads other).filter (· ≠ t) = []
      rw [sound.outside other beyond]
      rfl
    · exact (sound.rem_length member).symm
    · show rq.toSched = ((rq.toSchedList.filter (· ≠ t)).length : Int)
      have same : rq.toSchedList.filter (· ≠ t) = rq.toSchedList :=
        filter_eq_self.mpr fun u there => decide_eq_true fun isThread => away (isThread ▸ there)
      rw [same]
      exact sound.toSched
    · exact sound.apart u first second (mem_rem.mp here).1 (mem_rem.mp there).1
    · exact (sound.nodup other).filter _
  · rw [sound.rem_unlisted enqueued away, if_neg (unlisted enqueued)]
    exact ⟨rq, rfl, sound⟩

/-- A thread is found in the first word, or there is none and none comes from `to_sched`. -/
def Searchable (rq : Rq) : Prop :=
  rq.bitmap 0 ≠ 0 ∨ rq.bitmap 1 = 0 ∧ rq.bitmap 2 = 0 ∧
    ∀ t ∈ rq.toSchedList, rq.tsc < rq.deadline t ∧ 95#64 ≤ interval (rq.deadline t) rq.tsc

instance (rq : Rq) : Decidable rq.Searchable := by
  unfold Searchable
  infer_instance

theorem loadWalk_far {list : List Nat}
    (far : ∀ t ∈ list, rq.base < rq.deadline t ∧ 95#64 ≤ interval (rq.deadline t) rq.base) :
    loadWalk list rq = some (0, rq) := by
  induction list with
  | nil => rfl
  | cons t rest ih =>
    obtain ⟨later, outside⟩ := far t mem_cons_self
    have turn : rq.loadTurn t = some (false, rq) := by
      unfold loadTurn
      rw [if_pos later, if_neg (BitVec.not_lt.mpr outside)]
    rw [loadWalk, turn, bind_some]
    exact ih fun u member => far u (mem_cons_of_mem t member)

theorem Sound.empty (sound : rq.Sound) (zero : ∀ word < 3, rq.bitmap word = 0) :
    ∀ pos, rq.threads pos = [] := by
  intro pos
  by_cases inside : pos ≤ 95
  · by_contra nonempty
    have bit := (sound.bits pos inside).mpr nonempty
    rw [zero (pos / 32) (by omega)] at bit
    simp at bit
  · exact sound.outside pos (by omega)

theorem Sound.first_word (sound : rq.Sound) (nonzero : rq.bitmap 0 ≠ 0) :
    ∃ t pos, rq.firstThread = some (some t, rq) ∧ t ∈ rq.threads pos ∧
      ∀ other < pos, rq.threads other = [] := by
  obtain ⟨low, isSet, below⟩ := ctz_spec nonzero
  have found : findFirstBit rq.bitmap = some (rq.bitmap 0).ctz.toNat := if_pos nonzero
  generalize (rq.bitmap 0).ctz.toNat = pos at *
  have bits : ∀ other < 32, (rq.bitmap 0).getLsbD other = true ↔ rq.threads other ≠ [] := by
    intro other inside
    have bit := sound.bits other (by omega)
    rw [Nat.div_eq_of_lt inside, Nat.mod_eq_of_lt inside] at bit
    exact bit
  cases queue : rq.threads pos with
  | nil => exact absurd queue ((bits pos low).mp isSet)
  | cons t rest =>
    refine ⟨t, pos, ?_, by rw [queue]; exact mem_cons_self, fun other before => ?_⟩
    · unfold firstThread
      rw [found]
      simp [queue]
    · by_contra nonempty
      have bit := (bits other (by omega)).mpr nonempty
      rw [below other before] at bit
      cases bit

/-- `sl_mod_schedule` returns a thread of the first list that has one, or there is none. -/
theorem Sound.schedule (sound : rq.Sound) (searchable : rq.Searchable) :
    (∃ t pos, rq.slModSchedule = some (some t, rq) ∧ t ∈ rq.threads pos ∧
      ∀ other < pos, rq.threads other = []) ∨
    (∀ pos, rq.threads pos = []) ∧ ∃ base, rq.slModSchedule = some (none, { rq with base }) := by
  unfold slModSchedule
  by_cases first : rq.bitmap 0 = 0
  · right
    obtain ⟨second, third, far⟩ := searchable.resolve_left fun nonzero => nonzero first
    have nobody : ∀ pos, rq.threads pos = [] := by
      refine sound.empty fun word inside => ?_
      match word, inside with
      | 0, _ => exact first
      | 1, _ => exact second
      | 2, _ => exact third
    have noneEnqueued : rq.enqueued = 0 := by
      rw [sound.enqueued]
      simp [nobody]
    refine ⟨nobody, ?_⟩
    rw [first, second, third, if_pos (by decide)]
    split_ifs with waiting
    · exact ⟨rq.base, rfl⟩
    · refine ⟨rq.tsc, ?_⟩
      unfold slModLoad
      rw [if_neg (not_not.mpr noneEnqueued), if_neg waiting, loadWalk_far far]
      rfl
  · left
    have nonzero : rq.bitmap 0 ||| rq.bitmap 1 ||| rq.bitmap 2 ≠ 0 := by
      intro zero
      exact first (BitVec.or_eq_zero_iff.mp (BitVec.or_eq_zero_iff.mp zero).1).1
    rw [if_neg nonzero]
    exact sound.first_word first

end Rq

open Rq

/-- What a step needs for the map and the counters to be right after it, and for the thread it
returns to be one of the first interval. -/
def Guarded (rq : Rq) : Event → Prop
  | .wakeup t | .setPrio t => ¬rq.Enqueued t ∧ t ∉ rq.toSchedList
  | .block t => rq.Leaves t
  | .schedule => rq.Searchable
  | .setDeadline _ _ | .setPrioBlock _ | .advance _ => True

instance (rq : Rq) (event : Event) : Decidable (Guarded rq event) := by
  cases event <;> unfold Guarded <;> infer_instance

theorem next_sound {rq rq' : Rq} {event : Event} (sound : rq.Sound) (guarded : Guarded rq event)
    (taken : next rq event = some rq') : rq'.Sound := by
  cases event with
  | wakeup t =>
    refine Sound.wakeup (t := t) ?_ ?_ ?_ taken
    · exact sound.of_same rfl rfl rfl rfl rfl
    · exact guarded.1
    · exact guarded.2
  | setPrio t =>
    refine Sound.wakeup (t := t) ?_ ?_ ?_ taken
    · exact sound.of_same rfl rfl rfl rfl rfl
    · exact guarded.1
    · exact guarded.2
  | block t =>
    obtain ⟨after, blocked, soundAfter⟩ := sound.block guarded
    obtain rfl := some.inj (blocked.symm.trans taken)
    exact soundAfter
  | schedule =>
    rcases sound.schedule guarded with ⟨t, pos, returned, _⟩ | ⟨_, base, returned⟩
    all_goals
      simp only [next, returned, map_some, some.injEq] at taken
      subst taken
    · exact sound
    · exact sound.of_same rfl rfl rfl rfl rfl
  | setDeadline t v =>
    obtain rfl := some.inj taken
    exact sound.of_same rfl rfl rfl rfl rfl
  | setPrioBlock t =>
    obtain rfl := some.inj taken
    exact sound.of_same rfl rfl rfl rfl rfl
  | advance cycles =>
    obtain rfl := some.inj taken
    exact sound.of_same rfl rfl rfl rfl rfl

theorem interval_toNat (deadline origin : BitVec 64) :
    (interval deadline origin).toNat = ((deadline - origin) / 2700#64).toNat * 20 := by
  have bounded := (deadline - origin).isLt
  unfold interval
  generalize deadline - origin = distance at *
  rw [BitVec.toNat_mul, BitVec.toNat_udiv]
  simp only [BitVec.toNat_ofNat, Nat.reducePow, Nat.reduceMod]
  omega

/-- In a run of guarded steps the map and the counters are those of the lists, a thread that blocks
leaves the bit of the list it was on right, and `sl_mod_schedule` returns a thread of the first list
that has one.  That thread is due in the first interval if all intervals have one origin. -/
theorem intervals_followed {tsc : BitVec 64} {state : Nat → SlThdState} {events : List Event}
    {rq : Rq}
    (meets : Meets Guarded next (initial tsc state) events)
    (reached : exec next (initial tsc state) events = some rq) :
    (∀ pos ≤ 95, (rq.bitmap (pos / 32)).getLsbD (pos % 32) = true ↔ rq.threads pos ≠ []) ∧
      rq.enqueued = ∑ pos ∈ Finset.range 95, ((rq.threads pos).length : Int) ∧
      rq.toSched = rq.toSchedList.length ∧
      (∀ t, Guarded rq (.block t) → ∃ rq', rq.slModBlock t = some rq' ∧
        ∀ pos, t ∈ rq.threads pos →
          ((rq'.bitmap (pos / 32)).getLsbD (pos % 32) = true ↔ rq'.threads pos ≠ [])) ∧
      (Guarded rq .schedule →
        (∃ t pos, rq.slModSchedule = some (some t, rq) ∧ t ∈ rq.threads pos ∧
          (∀ other < pos, rq.threads other = []) ∧
          ∀ origin, (∀ u other, u ∈ rq.threads other →
              other = (interval (rq.deadline u) origin).toNat) →
            ∀ u other, u ∈ rq.threads other →
              (rq.deadline t - origin) / 2700#64 ≤ (rq.deadline u - origin) / 2700#64) ∨
        (∀ pos, rq.threads pos = []) ∧ ∃ rq', rq.slModSchedule = some (none, rq')) := by
  have sound : rq.Sound :=
    exec_invariant (fun _ _ _ sound guarded taken => next_sound sound guarded taken)
      (initial_sound tsc state) meets reached
  refine ⟨sound.bits, sound.enqueued, sound.toSched, fun t leaves => ?_, fun searchable => ?_⟩
  · obtain ⟨rq', blocked, soundAfter⟩ := sound.block leaves
    exact ⟨rq', blocked, fun pos member =>
      soundAfter.bits pos (Nat.le_of_lt (sound.of_mem member))⟩
  · rcases sound.schedule searchable with ⟨t, pos, returned, member, first⟩
      | ⟨nobody, base, returned⟩
    · refine .inl ⟨t, pos, returned, member, first, fun origin placed u other there => ?_⟩
      have notBefore : pos ≤ other := by
        by_contra before
        rw [first other (by omega)] at there
        cases there
      rw [placed t pos member, placed u other there, interval_toNat, interval_toNat] at notBefore
      exact BitVec.le_def.mpr (by omega)
    · exact .inr ⟨nobody, _, returned⟩

def twoWoken : List Event :=
  [.setDeadline 1 2000, .wakeup 1, .schedule, .block 1, .setDeadline 2 4700, .wakeup 2, .schedule]

theorem intervals_followed_two :
    ∃ rq, exec next (initial 1000 fun _ => .blocked) twoWoken = some rq ∧
      rq.enqueued = ∑ pos ∈ Finset.range 95, ((rq.threads pos).length : Int) ∧ rq.threads 20 = [2] ∧
      ∃ t pos, rq.slModSchedule = some (some t, rq) ∧ t ∈ rq.threads pos ∧
        ∀ other < pos, rq.threads other = [] := by
  have run : (exec next (initial 1000 fun _ => .blocked) twoWoken).map
      (fun rq => (rq.threads 20, decide (Guarded rq .schedule))) = some ([2], true) := by
    decide +kernel
  obtain ⟨rq, reached, seen⟩ := Option.map_eq_some_iff.mp run
  obtain ⟨queue, guarded⟩ := Prod.mk.inj seen
  obtain ⟨_, enqueued, _, _, scheduled⟩ := intervals_followed (by decide +kernel) reached
  refine ⟨rq, reached, enqueued, queue, ?_⟩
  rcases scheduled (of_decide_eq_true guarded) with ⟨t, pos, returned, member, first, _⟩
    | ⟨nobody, _⟩
  · exact ⟨t, pos, returned, member, first⟩
  · rw [nobody 20] at queue
    cases queue

def sharedInterval : List Event :=
  [.setDeadline 1 2000, .wakeup 1, .setDeadline 2 2100, .wakeup 2, .block 1]

def otherOrigin : List Event := [.setDeadline 1 5700, .wakeup 1, .block 1]

def secondWord : List Event := [.setDeadline 1 6500, .wakeup 1]

def wokenAgain : List Event := [.setDeadline 1 2000, .wakeup 1, .setDeadline 1 4700, .wakeup 1]

def twoOrigins : List Event :=
  [.setDeadline 1 11800, .wakeup 1, .advance 13000, .setDeadline 2 16000, .wakeup 2]

/-- Two threads are counted where one is left; the bit of an empty list stays set when its thread
blocks; no thread is returned although one waits; a bit and a count stay behind with the old
deadline; and the thread returned is due after another one. -/
theorem intervals_followed_astray :
    (∃ rq, exec next (initial 1000 fun _ => .blocked) sharedInterval = some rq ∧ rq.enqueued = 2 ∧
      ∑ pos ∈ Finset.range 95, ((rq.threads pos).length : Int) = 1) ∧
    (∃ rq, exec next (initial 1000 fun _ => .blocked) otherOrigin = some rq ∧
      rq.threads 20 = [] ∧ (rq.bitmap 0).getLsbD 20 = true) ∧
    (∃ rq rq', exec next (initial 1000 fun _ => .blocked) secondWord = some rq ∧
      rq.threads 40 = [1] ∧ rq.slModSchedule = some (none, rq')) ∧
    (∃ rq, exec next (initial 1000 fun _ => .blocked) wokenAgain = some rq ∧ rq.enqueued = 2 ∧
      rq.threads 0 = [] ∧ (rq.bitmap 0).getLsbD 0 = true) ∧
    ∃ rq rq', exec next (initial 1000 fun _ => .blocked) twoOrigins = some rq ∧
      rq.threads 80 = [1] ∧ rq.slModSchedule = some (some 2, rq') ∧
        rq.deadline 1 < rq.deadline 2 := by
  refine ⟨?_, ?_, ?_, ?_, ?_⟩
  · have run : (exec next (initial 1000 fun _ => .blocked) sharedInterval).map
        (fun rq => (rq.enqueued, ∑ pos ∈ Finset.range 95, ((rq.threads pos).length : Int))) =
        some (2, 1) := by decide +kernel
    obtain ⟨rq, reached, seen⟩ := Option.map_eq_some_iff.mp run
    exact ⟨rq, reached, Prod.mk.inj seen⟩
  · have run : (exec next (initial 1000 fun _ => .blocked) otherOrigin).map
        (fun rq => (rq.threads 20, (rq.bitmap 0).getLsbD 20)) = some ([], true) := by decide +kernel
    obtain ⟨rq, reached, seen⟩ := Option.map_eq_some_iff.mp run
    exact ⟨rq, reached, Prod.mk.inj seen⟩
  · obtain ⟨rq, returned, reached, scheduled, seen⟩ := observed
      (show ((exec next (initial 1000 fun _ => .blocked) secondWord).bind fun rq =>
        rq.slModSchedule.map fun returned => (rq.threads 40, returned.1)) = some ([1], none) by
          decide +kernel)
    obtain ⟨queue, nobody⟩ := Prod.mk.inj seen
    exact ⟨rq, returned.2, reached, queue, by rw [scheduled, ← nobody]⟩
  · have run : (exec next (initial 1000 fun _ => .blocked) wokenAgain).map
        (fun rq => (rq.enqueued, rq.threads 0, (rq.bitmap 0).getLsbD 0)) = some (2, [], true) := by
      decide +kernel
    obtain ⟨rq, reached, seen⟩ := Option.map_eq_some_iff.mp run
    simp only [Prod.mk.injEq] at seen
    exact ⟨rq, reached, seen⟩
  · obtain ⟨rq, returned, reached, scheduled, seen⟩ := observed
      (show ((exec next (initial 1000 fun _ => .blocked) twoOrigins).bind fun rq =>
        rq.slModSchedule.map fun returned =>
          (rq.threads 80, returned.1, decide (rq.deadline 1 < rq.deadline 2))) =
            some ([1], some 2, true) by decide +kernel)
    simp only [Prod.mk.injEq] at seen
    obtain ⟨queue, found, later⟩ := seen
    exact ⟨rq, returned.2, reached, queue, by rw [scheduled, ← found], of_decide_eq_true later⟩

end Composite.Sl.Bitmap
