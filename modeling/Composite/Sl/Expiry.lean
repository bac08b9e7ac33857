import Composite.Sl.View

/-!
# The steps of a core on the views of its threads

Every event but one is about a single thread.  The expiry of timeouts is about all threads in the
heap whose time has come: each of them is woken, and no other thread changes.
-/

namespace Composite.Sl

open Checked
open Eos (SlThdState)

variable {P : Policy} {c : Cpu P} {t : Nat} {c' : Cpu P} {tp now : Nat}

def Event.thread : Event → Option Nat
  | .block t | .blockTimeout t _ | .blockPeriodic t | .wakeup _ t | .xcpuWakeup t
  | .xcpuWakeupWithDl t _ | .kernel t _ _ _ | .free t => some t
  | .expire _ => none

def View.schedEvent (v : View) (blocked : Bool) (cycles : Nat) (timeout : Option Nat) :
    Except Failure View :=
  if v.state = .free then .ok v
  else if blocked then
    if cycles ≠ 0 then
      match timeout with
      | some _ => v.schedBlockNoCs .blockedTimeout
      | none => v.schedBlockNoCs .blocked
    else .ok v
  else v.schedWakeupNoCs

def View.step (v : View) : Event → Except Failure View
  | .block _ => v.block
  | .blockTimeout _ absTimeout => if absTimeout = 0 then v.block else v.blockNoCs .blockedTimeout
  | .blockPeriodic _ => v.blockNoCs .blockedTimeout
  | .wakeup _ _ => v.wakeupNoCs
  | .xcpuWakeup _ => v.wakeupNoCsRm
  | .xcpuWakeupWithDl _ _ => v.wakeupNoCsRm
  | .kernel _ blocked cycles timeout => v.schedEvent blocked cycles timeout
  | .free _ => v.freeNoCs
  | .expire _ => .ok v

theorem slSchedEvent_follows (sound : c.TimeoutsSound) (blocked : Bool) (cycles : Nat)
    (timeout : Option Nat) :
    Follows c t (slSchedEvent c t blocked cycles timeout)
      ((c.view t).schedEvent blocked cycles timeout) := by
  refine .ite .rfl (fun _ => .refl sound) fun _ => .ite .rfl (fun _ => ?_) fun _ => ?_
  · refine .ite .rfl (fun _ => ?_) fun _ => .refl sound
    cases timeout with
    | none => exact slThdSchedBlockNoCs_follows sound ..
    | some absTimeout => exact slThdSchedBlockNoCs_follows sound ..
  · exact slThdSchedWakeupNoCs_follows sound

theorem step_follows (sound : c.TimeoutsSound) {event : Event} (about : event.thread = some t) :
    Follows c t (step c event) ((c.view t).step event) := by
  cases event with
  | block u =>
    cases about
    exact slThdBlock_follows sound
  | blockTimeout u absTimeout =>
    cases about
    exact .ite .rfl (fun _ => slThdBlock_follows sound) fun _ => slThdBlockNoCs_follows sound ..
  | blockPeriodic u =>
    cases about
    exact .check_more fun _ => slThdBlockNoCs_follows sound ..
  | wakeup curr u =>
    cases about
    exact slThdWakeupNoCs_follows sound curr
  | xcpuWakeup u =>
    cases about
    exact slThdWakeupNoCsRm_follows sound
  | xcpuWakeupWithDl u sp =>
    cases about
    exact slXcpuWakeupWithDl_follows sound sp
  | expire now => cases about
  | kernel u blocked cycles timeout =>
    cases about
    exact slSchedEvent_follows sound ..
  | free u =>
    cases about
    exact slThdFreeNoCs_follows sound

theorem next_eq_some {event : Event} : next c event = some c' ↔ step c event = .ok c' := by
  unfold next
  cases step c event with
  | ok after => simp [Except.toOption]
  | error failure => simp [Except.toOption]

/-! The expiry of timeouts. -/

/-- The thread is in the heap and its timeout is not after `now`. -/
def Cpu.Expired (c : Cpu P) (now t : Nat) : Prop := c.queued t = true ∧ (c.thd t).timeoutCycs ≤ now

def WakesExpired (c : Cpu P) (now : Nat) (run : Except Failure (Cpu P)) : Prop :=
  match run with
  | .ok c' =>
    c'.TimeoutsSound ∧ ∀ t, (c.Expired now t → (c.view t).expire = .ok (c'.view t)) ∧
      (¬c.Expired now t → c'.thd t = c.thd t ∧ c'.queued t = c.queued t)
  | .error .count => ∃ t, c.Expired now t ∧ (c.view t).expire = .error .count
  | .error _ => True

theorem slThdWakeupNoCsRm_timeouts (woken : slThdWakeupNoCsRm c t = .ok c') :
    c'.timeouts = c.timeouts := by
  obtain ⟨queued, stepped, rest⟩ := bind_eq_ok.mp woken
  obtain ⟨rq, _, rfl⟩ := Cpu.policy_eq_ok.mp stepped
  obtain ⟨_, rest⟩ := check_bind_eq_ok.mp rest
  cases rest
  rfl

theorem heapPeek_first {h : Heap Nat} (first : heapPeek h = some tp) : h.e ≠ 1 ∧ h.data 1 = tp := by
  unfold heapPeek at first
  split_ifs at first with empty
  exact ⟨empty, Option.some.inj first⟩

theorem expireFirst_follows (sound : c.TimeoutsSound) (now : Nat)
    (first : heapPeek c.timeouts = some tp) :
    Follows c tp (expireFirst c now tp) (c.view tp).expire ∧
      ∀ c', expireFirst c now tp = .ok c' → heapSize c'.timeouts + 1 = heapSize c.timeouts := by
  have nonempty := sound.sound.nonempty
  obtain ⟨notEmpty, rfl⟩ := heapPeek_first first
  obtain ⟨h', popped, spec⟩ := heapHighest_spec sound.sound (by omega)
  obtain ⟨sound', only, unqueued⟩ := sound.removed spec
  simp only [expireFirst, popped, orFail, ok_bind]
  constructor
  · refine .check_more fun _ => .check_more fun _ => .from_earlier only ?_
    refine .set sound' { c.thd (c.timeouts.data 1) with wakeupCycs := now } rfl fun marked => ?_
    have follows := slThdWakeupNoCsRm_follows (t := c.timeouts.data 1) marked
    rw [Cpu.view_set, unqueued] at follows
    exact follows
  · intro c' woken
    obtain ⟨_, rest⟩ := check_bind_eq_ok.mp woken
    obtain ⟨_, rest⟩ := check_bind_eq_ok.mp rest
    have size := spec.size
    rw [slThdWakeupNoCsRm_timeouts rest]
    simp only [heapSize, Cpu.set, Heap.u]
    have := spec.sound.nonempty
    omega

theorem WakesExpired.refl (sound : c.TimeoutsSound) (early : ∀ t, ¬c.Expired now t) :
    WakesExpired c now (.ok c) :=
  ⟨sound, fun t => ⟨fun expired => absurd expired (early t), fun _ => ⟨rfl, rfl⟩⟩⟩

/-- An expired thread is woken, and then the others. -/
theorem WakesExpired.after {run : Except Failure (Cpu P)} (expired : c.Expired now tp)
    (woken : (c.view tp).expire = .ok (c'.view tp)) (only : c.OnlyThread tp c')
    (unqueued : c'.queued tp = false) (wakes : WakesExpired c' now run) :
    WakesExpired c now run := by
  have same : ∀ t, t ≠ tp → (c'.Expired now t ↔ c.Expired now t) ∧ c'.view t = c.view t := by
    intro t other
    obtain ⟨thd, queued⟩ := only t other
    simp only [Cpu.Expired, Cpu.view, thd, queued, and_self]
  have notAgain : ¬c'.Expired now tp := fun again => by
    rw [Cpu.Expired, unqueued] at again
    cases again.1
  cases run with
  | ok c'' =>
    obtain ⟨sound, threads⟩ := wakes
    refine ⟨sound, fun t => ?_⟩
    by_cases isFirst : t = tp
    · subst isFirst
      obtain ⟨thd, queued⟩ := (threads t).2 notAgain
      refine ⟨fun _ => ?_, fun early => absurd expired early⟩
      rw [woken]
      simp only [Cpu.view, thd, queued]
    · obtain ⟨expiredIff, view⟩ := same t isFirst
      rw [← expiredIff, ← view, ← (only t isFirst).1, ← (only t isFirst).2]
      exact threads t
  | error failure =>
    cases failure with
    | count =>
      obtain ⟨t, failing, failed⟩ := wakes
      have isOther : t ≠ tp := fun isFirst => notAgain (isFirst ▸ failing)
      obtain ⟨expiredIff, view⟩ := same t isOther
      exact ⟨t, expiredIff.mp failing, view ▸ failed⟩
    | thread | policy | heap => trivial

theorem no_thread_queued (sound : c.TimeoutsSound) (empty : heapSize c.timeouts = 0) (t : Nat) :
    ¬c.queued t = true := by
  intro queued
  obtain ⟨i, positive, inside, _⟩ := (sound.queued_iff t).mp queued
  unfold heapSize at empty
  omega

theorem View.expire_ok {v v' : View} (woken : v.expire = .ok v') :
    v'.state = .runnable ∧ v'.queued = false := by
  obtain ⟨_, rest⟩ := check_bind_eq_ok.mp woken
  cases rest
  exact ⟨rfl, rfl⟩

theorem expireLoop_wakes (sound : c.TimeoutsSound) {turns : Nat}
    (enough : heapSize c.timeouts ≤ turns) : WakesExpired c now (expireLoop now turns c) := by
  induction turns generalizing c with
  | zero =>
    exact .refl sound fun t expired => no_thread_queued sound (by omega) t expired.1
  | succ turns ih =>
    unfold expireLoop
    cases first : heapPeek c.timeouts with
    | none => trivial
    | some tp =>
      obtain ⟨held, least⟩ := heapPeek_eq_some sound.sound first
      simp only
      by_cases early : (c.thd tp).timeoutCycs > now
      · rw [if_pos early]
        refine .refl sound fun t expired => ?_
        have order := least t ((sound.queued_iff t).mp expired.1)
        have reached := expired.2
        simp only [slTimeoutCompareMin, decide_eq_true_eq] at order
        omega
      · rw [if_neg early]
        obtain ⟨follows, shrinks⟩ := expireFirst_follows sound now first
        have expired : c.Expired now tp := ⟨(sound.queued_iff tp).mpr held, by omega⟩
        cases woken : expireFirst c now tp with
        | ok c' =>
          rw [woken] at follows
          obtain ⟨viewed, sound', only⟩ := follows
          have size := shrinks c' woken
          refine .after expired viewed only (View.expire_ok viewed).2 ?_
          by_cases more : heapSize c'.timeouts ≠ 0
          · rw [ok_bind, if_pos more]
            exact ih sound' (by omega)
          · rw [ok_bind, if_neg more]
            refine .refl sound' fun t expired' => ?_
            exact no_thread_queued sound' (by omega) t expired'.1
        | error failure =>
          rw [woken] at follows
          cases failure with
          | count => exact ⟨tp, expired, follows⟩
          | thread => trivial
          | policy => trivial
          | heap => trivial

theorem slTimeoutWakeupExpired_wakes (sound : c.TimeoutsSound) (now : Nat) :
    WakesExpired c now (slTimeoutWakeupExpired c now) := by
  unfold slTimeoutWakeupExpired
  by_cases empty : heapSize c.timeouts = 0
  · rw [if_pos empty]
    exact .refl sound fun t expired => no_thread_queued sound empty t expired.1
  · rw [if_neg empty]
    exact expireLoop_wakes sound (Nat.le_refl _)

end Composite.Sl
