import Composite.Heap.Spec
import Composite.Sl.Sched

/-!
# What a routine does to its thread

Of a thread only its state, its marks, its wakeup count and whether it is in the heap of timeouts
decide what the routines do to it.  This view of a thread has its own version of each routine, and
every routine of the scheduler follows that version: it leaves the heap of timeouts sound and the
other threads as they were.
-/

namespace Composite.Sl

open Function
open Eos (SlThdState cosFaa schedParamValue)

variable {P : Policy} {c : Cpu P} {t : Nat}

structure View where
  state : SlThdState
  rcvSuspended : Bool
  schedthd : Bool
  wakeupCnt : Int
  queued : Bool
  deriving DecidableEq, Repr

namespace View

def timeoutBlock (v : View) : Except Failure View := do
  check (v.queued = false) .thread
  .ok { v with queued := true }

def timeoutRemove (v : View) : Except Failure View := do
  check (v.queued = true) .thread
  .ok { v with queued := false }

def wakeupNoCsRm (v : View) : Except Failure View := do
  check (v.wakeupCnt ≥ 0) .count
  .ok { v with state := .runnable, wakeupCnt := cosFaa v.wakeupCnt 1, rcvSuspended := false }

def leaveTimeout (v : View) : Except Failure View :=
  if v.state = .blockedTimeout then v.timeoutRemove else .ok v

def leaveQueues (v : View) : Except Failure View :=
  if v.state = .blockedTimeout then v.timeoutRemove
  else if v.state = .blocked then .ok v
  else do
    check (slThdIsRunnable v.state) .thread
    .ok v

def sleep (v : View) (blockType : SlThdState) : Except Failure View :=
  if blockType = .blockedTimeout then timeoutBlock { v with state := blockType }
  else .ok { v with state := blockType }

def schedBlockNoCs (v : View) (blockType : SlThdState) : Except Failure View :=
  if v.schedthd then .ok v
  else do
    let v ← v.leaveQueues
    let v ← v.sleep blockType
    .ok { v with rcvSuspended := true }

def schedUnblockNoCs (v : View) : Except Failure View :=
  if ¬v.rcvSuspended then .ok v
  else if v.state ≠ .blocked ∧ v.state ≠ .blockedTimeout then
    .ok { v with rcvSuspended := false }
  else do
    let v ← leaveTimeout { v with rcvSuspended := false }
    v.wakeupNoCsRm

def blockNoCs (v : View) (blockType : SlThdState) : Except Failure View :=
  if v.state = .woken then do
    check (¬v.rcvSuspended) .thread
    .ok { v with state := .runnable }
  else do
    let v ← v.schedUnblockNoCs
    check (v.state = .runnable) .thread
    v.sleep blockType

def block (v : View) : Except Failure View := do
  check (v.wakeupCnt ≥ 1) .count
  if v.wakeupCnt = 1 then blockNoCs { v with wakeupCnt := cosFaa v.wakeupCnt (-1) } .blocked
  else .ok { v with wakeupCnt := cosFaa v.wakeupCnt (-1) }

def schedWakeupNoCs (v : View) : Except Failure View :=
  if ¬v.rcvSuspended then .ok v
  else if slThdIsRunnable v.state then .ok { v with rcvSuspended := false }
  else do
    check (v.state = .blocked ∨ v.state = .blockedTimeout) .thread
    let v ← leaveTimeout { v with rcvSuspended := false }
    .ok { v with state := .runnable }

def wakeupNoCs (v : View) : Except Failure View :=
  if v.schedthd then .ok v
  else if slThdIsRunnable v.state then .ok { v with state := .woken }
  else do
    check (v.state = .blocked ∨ v.state = .blockedTimeout) .thread
    let v ← v.leaveTimeout
    v.wakeupNoCsRm

def freeNoCs (v : View) : Except Failure View := do
  check (v.state ≠ .free) .thread
  let v ← v.leaveTimeout
  .ok { v with state := .free }

def expire (v : View) : Except Failure View := wakeupNoCsRm { v with queued := false }

end View

def Cpu.queued (c : Cpu P) (t : Nat) : Bool := 0 < c.timeouts.idx t

def Cpu.view (c : Cpu P) (t : Nat) : View :=
  ⟨(c.thd t).state, (c.thd t).rcvSuspended, (c.thd t).schedthd, (c.thd t).wakeupCnt, c.queued t⟩

structure Cpu.TimeoutsSound (c : Cpu P) : Prop where
  sound : c.timeouts.Sound (slTimeoutCompareMin c.thd)
  capacity : c.timeouts.maxSz = slMaxNumThds + 1
  unplaced : ∀ t, ¬c.timeouts.Holds t → c.timeouts.idx t = -1

/-- Only the thread `t` has changed. -/
def Cpu.OnlyThread (t : Nat) (c c' : Cpu P) : Prop :=
  ∀ u, u ≠ t → c'.thd u = c.thd u ∧ c'.queued u = c.queued u

/-- The routine `run` does to the thread `t` what the view says, and fails an assertion on the count
only if the view does. -/
def Follows (c : Cpu P) (t : Nat) (run : Except Failure (Cpu P)) (seen : Except Failure View) :
    Prop :=
  match run with
  | .ok c' => seen = .ok (c'.view t) ∧ c'.TimeoutsSound ∧ c.OnlyThread t c'
  | .error .count => seen = .error .count
  | .error _ => True

instance (thd : Nat → Thd) : IsTrans Nat (Before (slTimeoutCompareMin thd)) where
  trans a b d first second := by
    simp only [Before, slTimeoutCompareMin, decide_eq_true_eq] at first second ⊢
    omega

instance (thd : Nat → Thd) : Std.Total (Before (slTimeoutCompareMin thd)) where
  total a b := by
    simp only [Before, slTimeoutCompareMin, decide_eq_true_eq]
    omega

theorem Cpu.Initial.timeoutsSound (initially : c.Initial) : c.TimeoutsSound := by
  have empty := initially.empty
  refine ⟨⟨by omega, fun i positive inside => ?_, fun i notRoot inside => ?_⟩, initially.capacity,
    fun t _ => initially.unplaced t⟩
  · omega
  · omega

namespace Cpu.TimeoutsSound

theorem queued_iff (sound : c.TimeoutsSound) (t : Nat) :
    c.queued t = true ↔ c.timeouts.Holds t := by
  unfold Cpu.queued
  rw [decide_eq_true_eq]
  constructor
  · intro positive
    by_contra absent
    have := sound.unplaced t absent
    omega
  · intro held
    exact (sound.sound.indexed.data_idx held).1

theorem congr (sound : c.TimeoutsSound) {c' : Cpu P} (timeouts : c'.timeouts = c.timeouts)
    (same : ∀ u, c.timeouts.Holds u → (c'.thd u).timeoutCycs = (c.thd u).timeoutCycs) :
    c'.TimeoutsSound := by
  refine ⟨?_, ?_, ?_⟩
  · rw [timeouts]
    refine sound.sound.congr fun a b heldA heldB => ?_
    simp only [slTimeoutCompareMin, same a heldA, same b heldB]
  · rw [timeouts]
    exact sound.capacity
  · rw [timeouts]
    exact sound.unplaced

theorem set (sound : c.TimeoutsSound) {thd : Thd} (same : thd.timeoutCycs = (c.thd t).timeoutCycs) :
    (c.set t thd).TimeoutsSound := by
  refine sound.congr rfl fun u _ => ?_
  by_cases isThread : u = t
  · subst isThread
    exact (congrArg Thd.timeoutCycs (update_self ..)).trans same
  · exact congrArg Thd.timeoutCycs (update_of_ne isThread ..)

end Cpu.TimeoutsSound

@[simp]
theorem Cpu.set_thd_self (c : Cpu P) (t : Nat) (thd : Thd) : (c.set t thd).thd t = thd :=
  update_self ..

@[simp]
theorem Cpu.set_set (c : Cpu P) (t : Nat) (first second : Thd) :
    (c.set t first).set t second = c.set t second :=
  congrArg ({ c with thd := · }) (update_idem ..)

@[simp]
theorem Cpu.set_queued (c : Cpu P) (t : Nat) (thd : Thd) : (c.set t thd).queued t = c.queued t :=
  rfl

@[simp]
theorem Cpu.withRq_thd (c : Cpu P) (rq : P.Rq) : (c.withRq rq).thd = c.thd := rfl

@[simp]
theorem Cpu.withRq_queued (c : Cpu P) (rq : P.Rq) : (c.withRq rq).queued t = c.queued t := rfl

@[simp]
theorem Cpu.view_set (c : Cpu P) (t : Nat) (thd : Thd) :
    (c.set t thd).view t =
      ⟨thd.state, thd.rcvSuspended, thd.schedthd, thd.wakeupCnt, c.queued t⟩ := by
  unfold Cpu.view
  rw [Cpu.set_thd_self]
  rfl

theorem Cpu.view_setState (c : Cpu P) (t : Nat) (state : SlThdState) :
    (c.set t { c.thd t with state }).view t = { c.view t with state } := Cpu.view_set ..

theorem Cpu.view_unsuspend (c : Cpu P) (t : Nat) :
    (c.set t { c.thd t with rcvSuspended := false }).view t =
      { c.view t with rcvSuspended := false } := Cpu.view_set ..

theorem Cpu.onlyThread_set (c : Cpu P) (t : Nat) (thd : Thd) : c.OnlyThread t (c.set t thd) :=
  fun _ other => ⟨update_of_ne other .., rfl⟩

theorem Cpu.OnlyThread.trans {first second third : Cpu P} (earlier : first.OnlyThread t second)
    (later : second.OnlyThread t third) : first.OnlyThread t third := fun u other =>
  ⟨(later u other).1.trans (earlier u other).1, (later u other).2.trans (earlier u other).2⟩

namespace Follows

theorem ok {c' : Cpu P} {v : View} (seen : v = c'.view t) (sound : c'.TimeoutsSound)
    (only : c.OnlyThread t c') : Follows c t (.ok c') (.ok v) :=
  ⟨congrArg Except.ok seen, sound, only⟩

theorem refl (sound : c.TimeoutsSound) : Follows c t (.ok c) (.ok (c.view t)) :=
  .ok rfl sound fun _ _ => ⟨rfl, rfl⟩

variable {seen : Except Failure View}

theorem from_earlier {c' : Cpu P} {run : Except Failure (Cpu P)} (only : c.OnlyThread t c')
    (follows : Follows c' t run seen) : Follows c t run seen := by
  match run, follows with
  | .ok _, ⟨viewed, sound, later⟩ => exact ⟨viewed, sound, only.trans later⟩
  | .error .count, failed => exact failed
  | .error .thread, _ => trivial
  | .error .policy, _ => trivial
  | .error .heap, _ => trivial

theorem bind {run : Except Failure (Cpu P)} {rest : Cpu P → Except Failure (Cpu P)}
    {seenRest : View → Except Failure View} (first : Follows c t run seen)
    (second : ∀ c' : Cpu P, run = .ok c' → c'.TimeoutsSound →
      Follows c' t (rest c') (seenRest (c'.view t))) :
    Follows c t (run >>= rest) (seen >>= seenRest) := by
  match run, first with
  | .ok c', ⟨viewed, sound, only⟩ =>
    rw [viewed]
    exact (second c' rfl sound).from_earlier only
  | .error .count, failed =>
    rw [failed]
    rfl
  | .error .thread, _ => trivial
  | .error .policy, _ => trivial
  | .error .heap, _ => trivial

theorem check {holds holds' : Prop} [Decidable holds] [Decidable holds'] (same : holds ↔ holds')
    {failure : Failure} {rest : Except Failure (Cpu P)} {seenRest : Except Failure View}
    (passed : holds → Follows c t rest seenRest) :
    Follows c t (Sl.check holds failure >>= fun _ => rest)
      (Sl.check holds' failure >>= fun _ => seenRest) := by
  unfold Sl.check
  by_cases passes : holds
  · rw [if_pos passes, if_pos (same.mp passes)]
    exact passed passes
  · rw [if_neg passes, if_neg (mt same.mpr passes)]
    cases failure with
    | count => exact rfl
    | thread => trivial
    | policy => trivial
    | heap => trivial

theorem ite {holds holds' : Prop} [Decidable holds] [Decidable holds'] (same : holds ↔ holds')
    {first second : Except Failure (Cpu P)} {seenFirst seenSecond : Except Failure View}
    (yes : holds → Follows c t first seenFirst) (no : ¬holds → Follows c t second seenSecond) :
    Follows c t (if holds then first else second) (if holds' then seenFirst else seenSecond) := by
  by_cases decided : holds
  · rw [if_pos decided, if_pos (same.mp decided)]
    exact yes decided
  · rw [if_neg decided, if_neg (mt same.mpr decided)]
    exact no decided

theorem check_more {holds : Prop} [Decidable holds] {rest : Except Failure (Cpu P)}
    (passed : holds → Follows c t rest seen) :
    Follows c t (Sl.check holds .thread >>= fun _ => rest) seen := by
  unfold Sl.check
  by_cases passes : holds
  · rw [if_pos passes]
    exact passed passes
  · rw [if_neg passes]
    trivial

section

variable (sound : c.TimeoutsSound)

include sound

/-- A step of the policy, which the view does not know. -/
theorem policy (operation : P.Rq → Option P.Rq) {rest : Cpu P → Except Failure (Cpu P)}
    {seen : Except Failure View}
    (done : ∀ rq, (c.withRq rq).TimeoutsSound →
      Follows (c.withRq rq) t (rest (c.withRq rq)) seen) :
    Follows c t (c.policy operation >>= rest) seen := by
  unfold Cpu.policy
  cases operation c.rq with
  | none => trivial
  | some rq =>
    exact (done rq (sound.congr rfl fun _ _ => rfl)).from_earlier fun _ _ => ⟨rfl, rfl⟩

theorem policy_last (operation : P.Rq → Option P.Rq) :
    Follows c t (c.policy operation) (.ok (c.view t)) := by
  unfold Cpu.policy
  cases operation c.rq with
  | none => trivial
  | some rq => exact .ok rfl (sound.congr rfl fun _ _ => rfl) fun _ _ => ⟨rfl, rfl⟩

/-- Fields of the thread that are no part of its timeout. -/
theorem set (thd : Thd) {run : Except Failure (Cpu P)} {seen : Except Failure View}
    (same : thd.timeoutCycs = (c.thd t).timeoutCycs)
    (follows : (c.set t thd).TimeoutsSound → Follows (c.set t thd) t run seen) :
    Follows c t run seen :=
  (follows (sound.set same)).from_earlier (c.onlyThread_set t thd)

theorem ok_set {thd : Thd} {v : View} (same : thd.timeoutCycs = (c.thd t).timeoutCycs)
    (seen : v = ⟨thd.state, thd.rcvSuspended, thd.schedthd, thd.wakeupCnt, c.queued t⟩) :
    Follows c t (.ok (c.set t thd)) (.ok v) :=
  .ok (seen.trans (c.view_set t thd).symm) (sound.set same) (c.onlyThread_set t thd)

end

end Follows

theorem check_bind_eq_ok {Result : Type} {holds : Prop} [Decidable holds] {failure : Failure}
    {rest : Except Failure Result} {result : Result} :
    (check holds failure >>= fun _ => rest) = .ok result ↔ holds ∧ rest = .ok result := by
  unfold check
  by_cases passes : holds
  · simp [passes]
  · simp [passes]

theorem Cpu.policy_eq_ok {operation : P.Rq → Option P.Rq} {c' : Cpu P} :
    c.policy operation = .ok c' ↔ ∃ rq, operation c.rq = some rq ∧ c' = c.withRq rq := by
  unfold Cpu.policy
  cases operation c.rq with
  | none => simp [orFail]
  | some rq => simp [orFail, eq_comm]

theorem Cpu.policy_of_eq {operation : P.Rq → Option P.Rq} {rq : P.Rq}
    (stepped : operation c.rq = some rq) : c.policy operation = .ok (c.withRq rq) :=
  Cpu.policy_eq_ok.mpr ⟨rq, stepped, rfl⟩

/-! The heap of timeouts. -/

/-- A thread leaves the heap and its index is reset. -/
theorem Cpu.TimeoutsSound.removed (sound : c.TimeoutsSound) {h' : Heap Nat}
    (spec : c.timeouts.Removed (slTimeoutCompareMin c.thd) t h') :
    Cpu.TimeoutsSound { c with timeouts := h'.u t (-1) } ∧
      c.OnlyThread t { c with timeouts := h'.u t (-1) } ∧
      Cpu.queued { c with timeouts := h'.u t (-1) } t = false := by
  have gone : ¬h'.Holds t := fun still => ((spec.holds t).mp still).1 rfl
  have cleared : (h'.u t (-1)).idx t = -1 := update_self ..
  have outside : ∀ u, u ≠ t → (h'.u t (-1)).idx u = h'.idx u := fun u other =>
    update_of_ne other ..
  have placedIff : ∀ u, u ≠ t → (0 < h'.idx u ↔ 0 < c.timeouts.idx u) := by
    intro u other
    by_cases held : c.timeouts.Holds u
    · have now := (spec.sound.indexed.data_idx ((spec.holds u).mpr ⟨other, held⟩)).1
      have before := (sound.sound.indexed.data_idx held).1
      exact ⟨fun _ => before, fun _ => now⟩
    · rw [spec.others u held]
  refine ⟨⟨⟨spec.sound.nonempty, spec.sound.indexed.u_absent gone _, spec.sound.ordered⟩,
    spec.sameMax.trans sound.capacity, fun u absent => ?_⟩, fun u other => ⟨rfl, ?_⟩, ?_⟩
  · by_cases isThread : u = t
    · rw [isThread]
      exact cleared
    · have absent' : ¬c.timeouts.Holds u := fun held =>
        absent ((spec.holds u).mpr ⟨isThread, held⟩)
      exact (outside u isThread).trans ((spec.others u absent').trans (sound.unplaced u absent'))
  · simp only [Cpu.queued, outside u other, placedIff u other]
  · simp [Cpu.queued, cleared]

theorem slTimeoutRemove_follows (sound : c.TimeoutsSound) :
    Follows c t (slTimeoutRemove c t) (c.view t).timeoutRemove := by
  refine .check (by simp [Cpu.view, Cpu.queued]) fun placed => .check_more fun _ => ?_
  have held : c.timeouts.Holds t := (sound.queued_iff t).mp (by simpa [Cpu.queued] using placed)
  obtain ⟨h', removed, spec⟩ := heapRemove_spec sound.sound held
  rw [removed]
  obtain ⟨sound', only, unqueued⟩ := sound.removed spec
  refine .ok ?_ sound' only
  simp only [Cpu.view, unqueued]

theorem withTimeout_cases (thd : Thd) (timeout : Nat) :
    withTimeout thd timeout = .error .thread ∨
      ∃ periodicCycs timeoutCycs,
        withTimeout thd timeout = .ok { thd with periodicCycs, timeoutCycs, wakeupCycs := 0 } := by
  unfold withTimeout check
  by_cases implicit : timeout = 0
  · rw [if_pos implicit]
    simp only
    by_cases periodic : thd.period ≠ 0
    · rw [if_pos periodic]
      by_cases later : thd.periodicCycs < (thd.periodicCycs + thd.period) % 2 ^ 64
      · rw [if_pos later]
        exact .inr ⟨_, _, rfl⟩
      · rw [if_neg later]
        exact .inl rfl
    · rw [if_neg periodic]
      exact .inl rfl
  · rw [if_neg implicit]
    exact .inr ⟨_, _, rfl⟩

section

variable (sound : c.TimeoutsSound)

include sound

theorem slTimeoutBlock_follows (timeout : Nat) :
    Follows c t (slTimeoutBlock c t timeout) (c.view t).timeoutBlock := by
  have unplacedIff : c.timeouts.idx t = -1 ↔ (c.view t).queued = false := by
    rw [← Bool.not_eq_true]
    constructor
    · intro unplaced
      simp [Cpu.view, Cpu.queued, unplaced]
    · intro unqueued
      exact sound.unplaced t (mt (sound.queued_iff t).mpr unqueued)
  refine .check unplacedIff fun unplaced => .check_more fun room => ?_
  have absent : ¬c.timeouts.Holds t := fun held => by
    have := (sound.sound.indexed.data_idx held).1
    omega
  obtain failed | ⟨periodicCycs, timeoutCycs, timed⟩ := withTimeout_cases (c.thd t) timeout
  · rw [failed]
    trivial
  rw [timed]
  simp only [Checked.ok_bind]
  have resorted :
      (c.set t { c.thd t with periodicCycs, timeoutCycs, wakeupCycs := 0 }).TimeoutsSound := by
    refine sound.congr rfl fun u held => ?_
    have other : u ≠ t := fun same => absent (same ▸ held)
    exact congrArg Thd.timeoutCycs (update_of_ne other ..)
  have nonempty := sound.sound.nonempty
  have capacity := sound.capacity
  unfold heapSize at room
  obtain ⟨h', added, spec⟩ := heapAdd_spec resorted.sound absent (by simp only [Cpu.set]; omega)
  rw [added]
  have placedIff : ∀ u, u ≠ t → (0 < h'.idx u ↔ 0 < c.timeouts.idx u) := by
    intro u other
    by_cases held : c.timeouts.Holds u
    · have now := (spec.sound.indexed.data_idx ((spec.holds u).mpr (.inr held))).1
      have before := (sound.sound.indexed.data_idx held).1
      exact ⟨fun _ => before, fun _ => now⟩
    · rw [spec.others u other held]
      rfl
  refine .ok ?_ ⟨spec.sound, spec.sameMax.trans capacity, fun u out => ?_⟩ fun u other => ⟨?_, ?_⟩
  · have placed : 0 < h'.idx t :=
      (spec.sound.indexed.data_idx ((spec.holds t).mpr (.inl rfl))).1
    simp [Cpu.view, Cpu.queued, placed]
  · have other : u ≠ t := fun same => out ((spec.holds u).mpr (.inl same))
    have out' : ¬c.timeouts.Holds u := fun held => out ((spec.holds u).mpr (.inr held))
    exact (spec.others u other out').trans (sound.unplaced u out')
  · exact update_of_ne other ..
  · simp only [Cpu.queued, placedIff u other]

theorem leaveTimeout_follows : Follows c t (leaveTimeout c t) (c.view t).leaveTimeout :=
  .ite .rfl (fun _ => slTimeoutRemove_follows sound) fun _ => .refl sound

theorem leaveQueues_follows : Follows c t (leaveQueues c t) (c.view t).leaveQueues := by
  refine .ite .rfl (fun _ => slTimeoutRemove_follows sound) fun _ => ?_
  refine .ite .rfl (fun _ => .refl sound) fun _ => ?_
  exact .check .rfl fun _ => .policy_last sound _

theorem sleep_follows (blockType : SlThdState) (timeout : Nat) :
    Follows c t (sleep c t blockType timeout) ((c.view t).sleep blockType) := by
  unfold View.sleep
  rw [← Cpu.view_setState]
  have sound' : (c.set t { c.thd t with state := blockType }).TimeoutsSound := sound.set rfl
  have only := c.onlyThread_set t { c.thd t with state := blockType }
  refine .ite .rfl (fun _ => ?_) fun _ => ?_
  · exact (slTimeoutBlock_follows sound' timeout).from_earlier only
  · exact (Follows.refl sound').from_earlier only

/-! The routines. -/

theorem slThdWakeupNoCsRm_follows :
    Follows c t (slThdWakeupNoCsRm c t) (c.view t).wakeupNoCsRm := by
  simp only [slThdWakeupNoCsRm]
  refine .set sound { c.thd t with state := .runnable } rfl fun marked => ?_
  refine .policy marked _ fun rq queued => .check (by simp [Cpu.view]) fun _ => ?_
  exact .ok_set queued rfl (by simp [Cpu.view])

theorem slThdSchedBlockNoCs_follows (blockType : SlThdState) (timeout : Nat) :
    Follows c t (slThdSchedBlockNoCs c t blockType timeout)
      ((c.view t).schedBlockNoCs blockType) := by
  simp only [slThdSchedBlockNoCs]
  refine .check_more fun _ => .ite .rfl (fun _ => .ok rfl ?_ fun _ _ => ⟨rfl, rfl⟩) fun _ => ?_
  · exact sound.congr rfl fun _ _ => rfl
  refine .bind (leaveQueues_follows sound) fun c' _ sound' => ?_
  exact .bind (sleep_follows sound' blockType timeout) fun c'' _ sound'' => .ok_set sound'' rfl rfl

theorem slThdSchedUnblockNoCs_follows :
    Follows c t (slThdSchedUnblockNoCs c t) (c.view t).schedUnblockNoCs := by
  simp only [slThdSchedUnblockNoCs]
  refine .ite .rfl (fun _ => .refl sound) fun _ => ?_
  refine .set sound { c.thd t with rcvSuspended := false } rfl fun marked => ?_
  rw [← Cpu.view_unsuspend]
  refine .ite (by simp [Cpu.view]) (fun _ => .refl marked) fun _ => ?_
  exact .bind (leaveTimeout_follows marked) fun c' _ sound' => slThdWakeupNoCsRm_follows sound'

theorem slThdBlockNoCs_follows (blockType : SlThdState) (timeout : Nat) :
    Follows c t (slThdBlockNoCs c t blockType timeout) ((c.view t).blockNoCs blockType) := by
  simp only [slThdBlockNoCs]
  refine .check_more fun _ => .ite .rfl (fun _ => ?_) fun _ => ?_
  · exact .check .rfl fun _ => .ok_set sound rfl rfl
  · refine .bind (slThdSchedUnblockNoCs_follows sound) fun c' _ sound' => ?_
    refine .check .rfl fun _ => .policy sound' _ fun rq queued => ?_
    exact sleep_follows queued blockType timeout

theorem slThdBlock_follows : Follows c t (slThdBlock c t) (c.view t).block := by
  simp only [slThdBlock]
  refine .set sound { c.thd t with wakeupCnt := cosFaa (c.thd t).wakeupCnt (-1) } rfl fun marked =>
    ?_
  have seen : (c.set t { c.thd t with wakeupCnt := cosFaa (c.thd t).wakeupCnt (-1) }).view t =
      { c.view t with wakeupCnt := cosFaa (c.view t).wakeupCnt (-1) } := Cpu.view_set ..
  unfold View.block
  rw [← seen]
  refine .check .rfl fun _ => .ite .rfl (fun _ => ?_) fun _ => .refl marked
  exact slThdBlockNoCs_follows marked .blocked 0

theorem slThdSchedWakeupNoCs_follows :
    Follows c t (slThdSchedWakeupNoCs c t) (c.view t).schedWakeupNoCs := by
  simp only [slThdSchedWakeupNoCs]
  refine .ite .rfl (fun _ => .refl sound) fun _ => ?_
  refine .set sound { c.thd t with rcvSuspended := false } rfl fun marked => ?_
  rw [← Cpu.view_unsuspend]
  refine .ite (by simp [Cpu.view]) (fun _ => .refl marked) fun _ => ?_
  refine .check (by simp [Cpu.view]) fun _ => ?_
  refine .bind (leaveTimeout_follows marked) fun c' _ sound' => ?_
  refine .set sound' { c'.thd t with state := .runnable } rfl fun woken => ?_
  rw [← Cpu.view_setState]
  exact .policy_last woken _

theorem slThdWakeupNoCs_follows (curr : Nat) :
    Follows c t (slThdWakeupNoCs c curr t) (c.view t).wakeupNoCs := by
  simp only [slThdWakeupNoCs]
  refine .check_more fun _ => .ite .rfl (fun _ => .ok rfl ?_ fun _ _ => ⟨rfl, rfl⟩) fun _ => ?_
  · exact sound.congr rfl fun _ _ => rfl
  refine .ite .rfl (fun _ => .ok_set sound rfl rfl) fun _ => .check .rfl fun _ => ?_
  exact .bind (leaveTimeout_follows sound) fun c' _ sound' => slThdWakeupNoCsRm_follows sound'

theorem slThdFreeNoCs_follows : Follows c t (slThdFreeNoCs c t) (c.view t).freeNoCs := by
  simp only [slThdFreeNoCs]
  refine .check .rfl fun _ => .bind (leaveTimeout_follows sound) fun c' _ sound' => ?_
  exact .policy sound' _ fun rq queued => .ok_set queued rfl rfl

theorem slXcpuWakeupWithDl_follows (sp : Nat) :
    Follows c t (slXcpuWakeupWithDl c t sp) (c.view t).wakeupNoCsRm :=
  .policy sound _ fun _ queued => slThdWakeupNoCsRm_follows queued

end

end Composite.Sl
