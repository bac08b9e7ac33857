import Composite.Lib.Transition
import Composite.Sl.Edf
import Composite.Sl.Expiry

/-!
# The wakeup count

A thread that blocks takes one from its count of wakeups and sleeps only if that was the last.  The
wakeups from other cores and the expired timeouts add to the count; a local wakeup of a thread that
runs leaves a mark in its state, and the other ways to block and wake do not look at the count.
The two records agree over whole runs if a thread that runs on a wakeup and one that runs otherwise
are blocked and woken in the ways that belong to them.
-/

namespace Composite.Sl

open Transition
open Eos (SlThdState cosFaa cosFaa_of_bounds)

variable {P : Policy} {c : Cpu P} {t : Nat}

def slThdIsBlocked (state : SlThdState) : Bool := state = .blocked ∨ state = .blockedTimeout

/-- What the wakeups sent to a thread have come to. -/
structure Tally where
  /-- The thread runs on a wakeup, and not since its start or since the kernel let it run. -/
  onWakeup : Bool
  /-- The wakeups that came since, while the thread could run, and that no block has taken. -/
  pending : Nat
  deriving DecidableEq, Repr

namespace Tally

def none : Tally := ⟨false, 0⟩

def wake (tally : Tally) (runs : Bool) : Tally :=
  if runs || tally.onWakeup then { tally with pending := tally.pending + 1 }
  else { tally with onWakeup := true }

/-- A block takes a pending wakeup, or the thread sleeps. -/
def block (tally : Tally) : Tally :=
  if tally.pending = 0 then .none else { tally with pending := tally.pending - 1 }

/-- A wakeup that is counted: it finds the thread asleep, or running on a wakeup. -/
def Counts (tally : Tally) (runs : Bool) : Prop :=
  (runs = true → tally.onWakeup = true) ∧ tally.pending < 2 ^ 31 - 2

instance (tally : Tally) (runs : Bool) : Decidable (tally.Counts runs) :=
  inferInstanceAs (Decidable (_ ∧ _))

end Tally

namespace View

/-- The event is a block of the thread; a thread with a child scheduler is blocked there. -/
def blocks (v : View) : Event → Bool
  | .block _ | .blockTimeout _ _ | .blockPeriodic _ => true
  | .kernel _ blocked cycles _ => blocked ∧ cycles ≠ 0 ∧ v.schedthd = false ∧ v.state ≠ .free
  | _ => false

/-- The tally after an event about the thread.  A thread that is freed loses the mark in its
state, but not its count. -/
def tallyAfter (v : View) (tally : Tally) (event : Event) : Tally :=
  match event with
  | .wakeup _ _ => if v.schedthd then tally else tally.wake (slThdIsRunnable v.state)
  | .xcpuWakeup _ | .xcpuWakeupWithDl _ _ => tally.wake (slThdIsRunnable v.state)
  | .free _ => if tally.onWakeup then tally else .none
  | event => if v.blocks event then tally.block else tally

theorem tallyAfter_of_blocks {v : View} {tally : Tally} {event : Event}
    (blocks : v.blocks event = true) : v.tallyAfter tally event = tally.block := by
  cases event with
  | wakeup | xcpuWakeup | xcpuWakeupWithDl | free | expire => cases blocks
  | block | blockTimeout | blockPeriodic | kernel => simp only [tallyAfter, blocks, if_true]

/-- What the callers keep to.  A thread that runs on a wakeup blocks with `sl_thd_block` only, and
is woken while it runs only in the ways that count; a thread that runs otherwise blocks with a
timeout or in the kernel, and is woken while it runs only locally, once, and not before a block
in the kernel. -/
def Allows (v : View) (tally : Tally) : Event → Prop
  | .block _ => tally.onWakeup = true
  | .blockTimeout _ absTimeout =>
    if absTimeout = 0 then tally.onWakeup = true
    else slThdIsRunnable v.state = true ∧ tally.onWakeup = false
  | .blockPeriodic _ => slThdIsRunnable v.state = true ∧ tally.onWakeup = false
  | .wakeup _ _ => v.schedthd = false ∧ slThdIsRunnable v.state = true → tally = .none
  | .xcpuWakeup _ | .xcpuWakeupWithDl _ _ => tally.Counts (slThdIsRunnable v.state)
  | .kernel _ blocked cycles _ =>
    blocked = true ∧ cycles ≠ 0 ∧ v.schedthd = false ∧ slThdIsRunnable v.state = true →
      tally = .none
  | .free _ | .expire _ => True

instance (v : View) (tally : Tally) (event : Event) : Decidable (v.Allows tally event) := by
  induction event using Event.casesOn <;> unfold View.Allows <;> infer_instance

/-- The state and the count of a thread record its tally: the count is one more than the pending
wakeups if it runs on a wakeup, and otherwise a pending wakeup is the mark in its state. -/
inductive Counted (v : View) : Tally → Prop where
  | unwoken (unmarked : v.state ≠ .woken) (count : v.wakeupCnt = 0) : Counted v .none
  | marked (state : v.state = .woken) (count : v.wakeupCnt = 0) : Counted v ⟨false, 1⟩
  | onWakeup (pending : Nat) (awake : slThdIsBlocked v.state = false) (unmarked : v.state ≠ .woken)
      (count : v.wakeupCnt = pending + 1) (high : pending < 2 ^ 31 - 1) :
      Counted v ⟨true, pending⟩

/-- What a step should do to a thread: it keeps the record, and a block does not put a thread with
a pending wakeup to sleep. -/
structure Kept (v : View) (tally : Tally) (event : Event) (v' : View) : Prop where
  counted : v'.Counted (v.tallyAfter tally event)
  awake : v.blocks event = true → tally.pending ≠ 0 → slThdIsBlocked v'.state = false

end View

def Returns (result : Except Failure View) (good : View → Prop) : Prop :=
  match result with
  | .ok v => good v
  | .error failure => failure ≠ .count

namespace View

variable {v : View}

theorem wakeupNoCsRm_eq (low : 0 ≤ v.wakeupCnt) (high : v.wakeupCnt < 2 ^ 31 - 1) :
    v.wakeupNoCsRm =
      .ok { v with state := .runnable, wakeupCnt := v.wakeupCnt + 1, rcvSuspended := false } := by
  simp only [wakeupNoCsRm, check]
  rw [if_pos low, cosFaa_of_bounds (by omega) (by omega)]
  rfl

theorem leaveTimeout_returns (v : View) :
    Returns v.leaveTimeout fun v' => ∃ queued, v' = { v with queued } := by
  unfold leaveTimeout timeoutRemove check
  split_ifs
  · exact ⟨false, rfl⟩
  · exact nofun
  · exact ⟨v.queued, rfl⟩

theorem leaveQueues_returns (v : View) :
    Returns v.leaveQueues fun v' =>
      (slThdIsBlocked v.state = true ∨ slThdIsRunnable v.state = true) ∧
        ∃ queued, v' = { v with queued } := by
  unfold leaveQueues timeoutRemove check
  split_ifs with timed queued blocked runs
  · exact ⟨.inl (by simp [slThdIsBlocked, timed]), false, rfl⟩
  · exact nofun
  · exact ⟨.inl (by simp [slThdIsBlocked, blocked]), v.queued, rfl⟩
  · exact ⟨.inr runs, v.queued, rfl⟩
  · exact nofun

theorem sleep_returns (v : View) (blockType : SlThdState) :
    Returns (v.sleep blockType) fun v' => ∃ queued, v' = { v with state := blockType, queued } := by
  unfold sleep timeoutBlock check
  split_ifs
  · exact ⟨true, rfl⟩
  · exact nofun
  · exact ⟨v.queued, rfl⟩

end View

theorem Returns.bind {result : Except Failure View} {rest : View → Except Failure View}
    {middle good : View → Prop} (first : Returns result middle)
    (second : ∀ v, middle v → Returns (rest v) good) : Returns (result >>= rest) good := by
  cases result with
  | ok v => exact second v first
  | error failure => exact first

theorem Returns.mono {result : Except Failure View} {good better : View → Prop}
    (first : Returns result good) (implies : ∀ v, good v → better v) : Returns result better := by
  cases result with
  | ok v => exact implies v first
  | error failure => exact first

theorem Returns.check {holds : Prop} [Decidable holds] {rest : Except Failure View}
    {good : View → Prop} (passed : holds → Returns rest good) :
    Returns (Sl.check holds .thread >>= fun _ => rest) good := by
  unfold Sl.check
  split_ifs with passes
  · exact passed passes
  · exact nofun

namespace View

variable {v : View} {good : View → Prop}

theorem schedUnblockNoCs_eq (awake : slThdIsBlocked v.state = false) :
    v.schedUnblockNoCs = .ok { v with rcvSuspended := false } := by
  obtain ⟨state, rcvSuspended, schedthd, wakeupCnt, queued⟩ := v
  simp only [slThdIsBlocked, decide_eq_false_iff_not, not_or] at awake
  unfold schedUnblockNoCs
  cases rcvSuspended with
  | false => rfl
  | true => exact (if_neg (by simp)).trans (if_pos awake)

theorem blockNoCs_returns {blockType : SlThdState} (awake : slThdIsBlocked v.state = false)
    (woken : v.state = .woken → good { v with state := .runnable })
    (slept : v.state = .runnable → ∀ queued,
      good { v with state := blockType, rcvSuspended := false, queued }) :
    Returns (v.blockNoCs blockType) good := by
  unfold blockNoCs
  split_ifs with isWoken
  · exact .check fun _ => woken isWoken
  · rw [schedUnblockNoCs_eq awake]
    refine .check fun runs => (sleep_returns _ blockType).mono ?_
    rintro _ ⟨queued, rfl⟩
    exact slept runs queued

end View

namespace View.Counted

variable {v : View} {tally : Tally} {event : Event}

section

variable (counted : v.Counted tally)

include counted

theorem none_of_blocked (blocked : slThdIsBlocked v.state = true) : tally = .none := by
  cases counted with
  | unwoken => rfl
  | marked state =>
    rw [state] at blocked
    cases blocked
  | onWakeup _ awake =>
    rw [awake] at blocked
    cases blocked

theorem zero_of_none (unwoken : tally = .none) : v.state ≠ .woken ∧ v.wakeupCnt = 0 := by
  cases counted with
  | unwoken unmarked count => exact ⟨unmarked, count⟩
  | marked => cases unwoken
  | onWakeup => cases unwoken

/-- The thread has changed in nothing that the tally is about. -/
theorem congr {v' : View} (state : v'.state = v.state) (count : v'.wakeupCnt = v.wakeupCnt) :
    v'.Counted tally := by
  cases counted with
  | unwoken unmarked zero => exact .unwoken (state ▸ unmarked) (count.trans zero)
  | marked woken zero => exact .marked (state.trans woken) (count.trans zero)
  | onWakeup pending awake unmarked more high =>
    exact .onWakeup pending (state ▸ awake) (state ▸ unmarked) (count.trans more) high

theorem block (allowed : tally.onWakeup = true) :
    Returns v.block fun v' =>
      v'.Counted tally.block ∧ (tally.pending ≠ 0 → slThdIsBlocked v'.state = false) := by
  cases counted with
  | unwoken | marked => cases allowed
  | onWakeup pending awake unmarked count high =>
    simp only [View.block, Sl.check]
    rw [if_pos (by omega), Checked.ok_bind, cosFaa_of_bounds (by omega) (by omega)]
    split_ifs with last
    · obtain rfl : pending = 0 := by omega
      refine View.blockNoCs_returns awake (fun woken => absurd woken unmarked) fun _ queued => ?_
      exact ⟨.unwoken (by simp) (by simp only; omega), fun more => absurd rfl more⟩
    · have more : pending ≠ 0 := by omega
      refine ⟨?_, fun _ => awake⟩
      unfold Tally.block
      rw [if_neg more]
      exact .onWakeup (pending - 1) awake unmarked (by simp only; omega) (by omega)

theorem blockTimed (allowed : slThdIsRunnable v.state = true ∧ tally.onWakeup = false) :
    Returns (v.blockNoCs .blockedTimeout) fun v' =>
      v'.Counted tally.block ∧ (tally.pending ≠ 0 → slThdIsBlocked v'.state = false) := by
  have awake : slThdIsBlocked v.state = false := by
    have runs := allowed.1
    revert runs
    cases v.state <;> decide
  cases counted with
  | unwoken unmarked count =>
    refine View.blockNoCs_returns awake (fun woken => absurd woken unmarked) fun _ queued => ?_
    exact ⟨.unwoken (by simp) count, fun more => absurd rfl more⟩
  | marked state count =>
    refine View.blockNoCs_returns awake (fun _ => ?_) fun runs => ?_
    · exact ⟨.unwoken (by simp) count, fun _ => rfl⟩
    · rw [state] at runs
      cases runs
  | onWakeup => cases allowed.2

theorem wakeupBlocked (blocked : slThdIsBlocked v.state = true) (queued : Bool) :
    Returns (View.wakeupNoCsRm { v with queued }) fun v' => v'.Counted (tally.wake false) := by
  obtain rfl := counted.none_of_blocked blocked
  obtain ⟨-, count⟩ := counted.zero_of_none rfl
  rw [View.wakeupNoCsRm_eq (by simp only; omega) (by simp only; omega)]
  exact .onWakeup 0 rfl (by simp) (by simp only; omega) (by decide)

theorem wakeupNoCs (allowed : v.schedthd = false ∧ slThdIsRunnable v.state = true → tally = .none) :
    Returns v.wakeupNoCs fun v' =>
      v'.Counted (if v.schedthd then tally else tally.wake (slThdIsRunnable v.state)) := by
  unfold View.wakeupNoCs
  split_ifs with child runs
  · exact counted
  · obtain rfl := allowed ⟨Bool.eq_false_iff.mpr child, runs⟩
    rw [runs]
    exact .marked rfl (counted.zero_of_none rfl).2
  · refine .check fun blocked => .bind v.leaveTimeout_returns ?_
    rintro _ ⟨queued, rfl⟩
    rw [Bool.eq_false_iff.mpr runs]
    exact counted.wakeupBlocked (by simpa [slThdIsBlocked] using blocked) queued

theorem wakeupNoCsRm (allowed : tally.Counts (slThdIsRunnable v.state)) :
    Returns v.wakeupNoCsRm fun v' => v'.Counted (tally.wake (slThdIsRunnable v.state)) := by
  obtain ⟨onWakeup, room⟩ := allowed
  cases counted with
  | unwoken unmarked count =>
    rw [View.wakeupNoCsRm_eq (by omega) (by omega)]
    have stopped : slThdIsRunnable v.state = false := by
      rw [← Bool.not_eq_true]
      exact fun runs => Bool.noConfusion (onWakeup runs)
    rw [stopped]
    exact .onWakeup 0 rfl (by simp) (by simp only; omega) (by decide)
  | marked state count => cases onWakeup (by rw [state]; rfl)
  | onWakeup pending awake unmarked count high =>
    simp only at room
    rw [View.wakeupNoCsRm_eq (by omega) (by omega)]
    unfold Tally.wake
    rw [if_pos (Bool.or_true _)]
    exact .onWakeup (pending + 1) rfl (by simp) (by simp only; omega) (by omega)

theorem schedWakeupNoCs : Returns v.schedWakeupNoCs fun v' => v'.Counted tally := by
  unfold View.schedWakeupNoCs
  split_ifs with suspended runs
  · exact counted.congr rfl rfl
  · refine .check fun blocked => .bind (View.leaveTimeout_returns _) ?_
    rintro _ ⟨queued, rfl⟩
    obtain rfl := counted.none_of_blocked (by simpa [slThdIsBlocked] using blocked)
    exact .unwoken (by simp) (counted.zero_of_none rfl).2
  · exact counted

theorem schedBlockNoCs (blockType : SlThdState) (blocking : slThdIsBlocked blockType = true)
    (child : v.schedthd = false) (allowed : slThdIsRunnable v.state = true → tally = .none) :
    Returns (v.schedBlockNoCs blockType) fun v' =>
      v'.Counted tally.block ∧ (tally.pending ≠ 0 → slThdIsBlocked v'.state = false) := by
  unfold View.schedBlockNoCs
  rw [child, if_neg Bool.false_ne_true]
  refine .bind v.leaveQueues_returns ?_
  rintro _ ⟨either, queued, rfl⟩
  obtain rfl : tally = .none := either.elim counted.none_of_blocked allowed
  refine .bind (View.sleep_returns _ blockType) ?_
  rintro _ ⟨queued', rfl⟩
  refine ⟨.unwoken ?_ (counted.zero_of_none rfl).2, fun more => absurd rfl more⟩
  rintro rfl
  cases blocking

theorem freeNoCs :
    Returns v.freeNoCs fun v' => v'.Counted (if tally.onWakeup then tally else .none) := by
  refine .check fun _ => .bind v.leaveTimeout_returns ?_
  rintro _ ⟨queued, rfl⟩
  cases counted with
  | unwoken _ count | marked _ count => exact .unwoken (by simp) count
  | onWakeup pending _ _ count high => exact .onWakeup pending rfl (by simp) count high

theorem schedEvent {blocked : Bool} {cycles : Nat} {timeout : Option Nat}
    (allowed : v.Allows tally (.kernel t blocked cycles timeout)) :
    Returns (v.schedEvent blocked cycles timeout)
      (v.Kept tally (.kernel t blocked cycles timeout)) := by
  have nothing (other : v.blocks (.kernel t blocked cycles timeout) = false) {v' : View}
      (counted : v'.Counted tally) : v.Kept tally (.kernel t blocked cycles timeout) v' := by
    refine ⟨?_, fun blocks => absurd blocks (Bool.eq_false_iff.mp other)⟩
    show v'.Counted (if v.blocks _ = true then tally.block else tally)
    rwa [if_neg (Bool.eq_false_iff.mp other)]
  unfold View.schedEvent
  split_ifs with free isBlocked ran
  · exact nothing (by simp [View.blocks, free]) counted
  · by_cases child : v.schedthd = true
    · have left {blockType : SlThdState} : v.schedBlockNoCs blockType = .ok v := if_pos child
      have kept := nothing (by simp [View.blocks, child]) counted
      cases timeout <;> simpa only [left, Returns] using kept
    · have child : v.schedthd = false := Bool.eq_false_iff.mpr child
      have blocks : v.blocks (.kernel t blocked cycles timeout) = true := by
        simp [View.blocks, isBlocked, ran, child, free]
      have sleeps (blockType : SlThdState) (blocking : slThdIsBlocked blockType = true) :=
        (counted.schedBlockNoCs blockType blocking child fun runs =>
          allowed ⟨isBlocked, ran, child, runs⟩).mono fun v' good =>
            (⟨View.tallyAfter_of_blocks blocks ▸ good.1, fun _ => good.2⟩ : v.Kept tally _ v')
      cases timeout with
      | none => exact sleeps .blocked rfl
      | some absTimeout => exact sleeps .blockedTimeout rfl
  · exact nothing (by simp [View.blocks, ran]) counted
  · exact counted.schedWakeupNoCs.mono fun v' kept =>
      nothing (by simp [View.blocks, isBlocked]) kept

/-- A step that the callers may take keeps the record, lets no pending wakeup be slept through and
fails no assertion on the count. -/
theorem step (allowed : v.Allows tally event) : Returns (v.step event) (v.Kept tally event) := by
  cases event with
  | block t => exact (counted.block allowed).mono fun v' good => ⟨good.1, fun _ => good.2⟩
  | blockTimeout t absTimeout =>
    simp only [View.Allows] at allowed
    simp only [View.step]
    split_ifs at allowed ⊢
    · exact (counted.block allowed).mono fun v' good => ⟨good.1, fun _ => good.2⟩
    · exact (counted.blockTimed allowed).mono fun v' good => ⟨good.1, fun _ => good.2⟩
  | blockPeriodic t =>
    exact (counted.blockTimed allowed).mono fun v' good => ⟨good.1, fun _ => good.2⟩
  | wakeup curr t => exact (counted.wakeupNoCs allowed).mono fun v' good =>
    ⟨good, fun blocks => by cases blocks⟩
  | xcpuWakeup t | xcpuWakeupWithDl t sp =>
    exact (counted.wakeupNoCsRm allowed).mono fun v' good => ⟨good, fun blocks => by cases blocks⟩
  | expire now => exact ⟨counted, fun blocks => by cases blocks⟩
  | kernel t blocked cycles timeout => exact counted.schedEvent allowed
  | free t => exact counted.freeNoCs.mono fun v' good => ⟨good, fun blocks => by cases blocks⟩

end

end View.Counted

/-! Whole runs. -/

structure Watched (P : Policy) where
  cpu : Cpu P
  tally : Nat → Tally

namespace Watched

def start (c : Cpu P) : Watched P := ⟨c, fun _ => .none⟩

/-- The tallies after an event. -/
def tallies (s : Watched P) : Event → Nat → Tally
  | .expire now => fun t =>
    if s.cpu.queued t = true ∧ (s.cpu.thd t).timeoutCycs ≤ now then
      (s.tally t).wake (slThdIsRunnable (s.cpu.thd t).state)
    else s.tally t
  | event => fun t =>
    if event.thread = some t then (s.cpu.view t).tallyAfter (s.tally t) event else s.tally t

def next (s : Watched P) (event : Event) : Option (Watched P) :=
  (Sl.step s.cpu event).toOption.map fun c => ⟨c, s.tallies event⟩

/-- The callers may take the step: see `View.Allows`; a timeout may expire where a wakeup counts. -/
def Allows (s : Watched P) (event : Event) : Prop :=
  match event.thread, event with
  | some t, event => (s.cpu.view t).Allows (s.tally t) event
  | none, .expire now => ∀ i < s.cpu.timeouts.e, 0 < i →
      (s.cpu.thd (s.cpu.timeouts.data i)).timeoutCycs ≤ now →
      (s.tally (s.cpu.timeouts.data i)).Counts
        (slThdIsRunnable (s.cpu.thd (s.cpu.timeouts.data i)).state)
  | none, _ => True

instance (s : Watched P) (event : Event) : Decidable (s.Allows event) := by
  unfold Watched.Allows
  split <;> infer_instance

structure Sound (s : Watched P) : Prop where
  timeouts : s.cpu.TimeoutsSound
  counted : ∀ t, (s.cpu.view t).Counted (s.tally t)

variable {s : Watched P} {event : Event}

theorem Allows.of_thread (allowed : s.Allows event) (about : event.thread = some t) :
    (s.cpu.view t).Allows (s.tally t) event := by
  unfold Watched.Allows at allowed
  rw [about] at allowed
  exact allowed

theorem tallies_of_thread (about : event.thread = some t) (u : Nat) :
    s.tallies event u =
      if u = t then (s.cpu.view t).tallyAfter (s.tally t) event else s.tally u := by
  unfold tallies
  split
  · cases about
  · simp only [about, Option.some.injEq, eq_comm (a := t)]
    by_cases here : u = t
    · subst here
      rfl
    · rw [if_neg here, if_neg here]

theorem Sound.thread_step (sound : s.Sound) (about : event.thread = some t)
    (allowed : s.Allows event) :
    match Sl.step s.cpu event with
    | .ok c' =>
      Sound ⟨c', s.tallies event⟩ ∧ ((s.cpu.view t).blocks event = true →
        (s.tally t).pending ≠ 0 → slThdIsBlocked (c'.thd t).state = false)
    | .error failure => failure ≠ .count := by
  have follows := step_follows sound.timeouts about
  have returns := (sound.counted t).step (allowed.of_thread about)
  cases stepped : Sl.step s.cpu event with
  | ok c' =>
    rw [stepped] at follows
    obtain ⟨viewed, timeouts, only⟩ := follows
    rw [viewed] at returns
    refine ⟨⟨timeouts, fun u => ?_⟩, returns.awake⟩
    simp only [tallies_of_thread about]
    split_ifs with isThread
    · subst isThread
      exact returns.counted
    · have same : c'.view u = s.cpu.view u := by simp only [Cpu.view, only u isThread]
      rw [same]
      exact sound.counted u
  | error failure =>
    rw [stepped] at follows
    rintro rfl
    have failed : (s.cpu.view t).step event = .error .count := follows
    rw [failed] at returns
    exact returns rfl

theorem Sound.expire_step (sound : s.Sound) {now : Nat} (allowed : s.Allows (.expire now)) :
    match Sl.step s.cpu (.expire now) with
    | .ok c' => Sound ⟨c', s.tallies (.expire now)⟩
    | .error failure => failure ≠ .count := by
  have wakes := slTimeoutWakeupExpired_wakes sound.timeouts now
  have returns : ∀ t, s.cpu.Expired now t → Returns (s.cpu.view t).expire fun v' =>
      v'.Counted ((s.tally t).wake (slThdIsRunnable (s.cpu.thd t).state)) := by
    intro t expired
    obtain ⟨i, positive, inside, rfl⟩ := (sound.timeouts.queued_iff t).mp expired.1
    exact View.Counted.wakeupNoCsRm (v := { s.cpu.view _ with queued := false })
      ((sound.counted _).congr rfl rfl) (allowed i inside positive expired.2)
  cases stepped : Sl.step s.cpu (.expire now) with
  | ok c' =>
    rw [show slTimeoutWakeupExpired s.cpu now = .ok c' from stepped] at wakes
    refine ⟨wakes.1, fun t => ?_⟩
    by_cases expired : s.cpu.Expired now t
    · have returned := returns t expired
      rw [(wakes.2 t).1 expired] at returned
      have woken : s.tallies (.expire now) t = _ := if_pos expired
      simp only [woken]
      exact returned
    · obtain ⟨thd, queued⟩ := (wakes.2 t).2 expired
      have same : c'.view t = s.cpu.view t := by
        simp only [Cpu.view, thd, queued]
      have kept : s.tallies (.expire now) t = s.tally t := if_neg expired
      simp only [kept, same]
      exact sound.counted t
  | error failure =>
    rw [show slTimeoutWakeupExpired s.cpu now = .error failure from stepped] at wakes
    rintro rfl
    obtain ⟨t, expired, failed⟩ := wakes
    have returned := returns t expired
    rw [failed] at returned
    exact returned rfl

theorem Sound.step (sound : s.Sound) (allowed : s.Allows event) :
    match Sl.step s.cpu event with
    | .ok c' => Sound ⟨c', s.tallies event⟩
    | .error failure => failure ≠ .count := by
  cases about : event.thread with
  | some t =>
    have result := sound.thread_step about allowed
    revert result
    cases Sl.step s.cpu event with
    | ok c' => exact And.left
    | error failure => exact id
  | none =>
    cases event with
    | expire now => exact sound.expire_step allowed
    | _ => cases about

/-- Over any run whose steps the callers may take: a thread sleeps only with a count of zero, a
block of a thread with a pending wakeup takes one of them and does not put it to sleep, and no
assertion on the count fails. -/
theorem wakeups_counted (initial : Cpu P) (initially : initial.Initial)
    (fresh : ∀ t, (initial.thd t).wakeupCnt = 0 ∧ (initial.thd t).state ≠ .woken)
    {events : List Event} {s : Watched P}
    (allowed : Meets (fun s event => Watched.Allows s event) next (start initial) events)
    (reached : exec next (start initial) events = some s) :
    (∀ t, (s.cpu.thd t).state = .blocked ∨ (s.cpu.thd t).state = .blockedTimeout →
      (s.cpu.thd t).wakeupCnt = 0) ∧
    (∀ event t c', s.Allows event → event.thread = some t → (s.cpu.view t).blocks event = true →
      (s.tally t).pending ≠ 0 → Sl.step s.cpu event = .ok c' →
      (c'.thd t).state ≠ .blocked ∧ (c'.thd t).state ≠ .blockedTimeout ∧
        (s.tallies event t).pending + 1 = (s.tally t).pending) ∧
    (∀ event, s.Allows event → Sl.step s.cpu event ≠ .error .count) := by
  have kept : ∀ (before : Watched P) event after, before.Sound → before.Allows event →
      next before event = some after → after.Sound := by
    intro before event after sound allowed stepped
    have result := sound.step allowed
    unfold next at stepped
    cases ended : Sl.step before.cpu event with
    | error failure =>
      rw [ended] at stepped
      cases stepped
    | ok c' =>
      rw [ended] at result stepped
      cases stepped
      exact result
  have initialSound : (start initial).Sound :=
    ⟨initially.timeoutsSound, fun t => .unwoken (fresh t).2 (fresh t).1⟩
  have sound : s.Sound := exec_invariant kept initialSound allowed reached
  refine ⟨fun t blocked => ?_, fun event t c' met about blocks pending stepped => ?_,
    fun event met failed => ?_⟩
  · have counted := sound.counted t
    exact (counted.zero_of_none (counted.none_of_blocked (decide_eq_true blocked))).2
  · have result := sound.thread_step about met
    rw [stepped] at result
    have awake := result.2 blocks pending
    simp only [slThdIsBlocked, decide_eq_false_iff_not, not_or] at awake
    refine ⟨awake.1, awake.2, ?_⟩
    rw [tallies_of_thread about, if_pos rfl, View.tallyAfter_of_blocks blocks, Tally.block,
      if_neg pending]
    exact Nat.succ_pred_eq_of_ne_zero pending
  · have result := sound.step met
    rw [failed] at result
    exact result rfl

/-- Three wakeups from other cores, and two blocks that do not put the thread to sleep. -/
theorem wakeups_counted_twice :
    ∃ (s : Watched edf) (c' : Cpu edf),
      exec next (start Cpu.allBlocked) [.xcpuWakeupWithDl 2 40, .block 2, .xcpuWakeupWithDl 1 50,
        .xcpuWakeup 1, .xcpuWakeup 1, .block 1] = some s ∧
      (s.tally 1).pending = 1 ∧ Sl.step s.cpu (.block 1) = .ok c' ∧
      (c'.thd 1).state ≠ .blocked ∧ (s.cpu.thd 2).wakeupCnt = 0 := by
  have run : ((exec next (start Cpu.allBlocked : Watched edf)
      [.xcpuWakeupWithDl 2 40, .block 2, .xcpuWakeupWithDl 1 50, .xcpuWakeup 1, .xcpuWakeup 1,
        .block 1]).bind fun s => (Sl.step s.cpu (.block 1)).toOption.map fun _ =>
          ((s.tally 1).pending, (s.cpu.thd 2).state, decide (s.Allows (.block 1)))) =
      some (1, .blocked, true) := by
    decide +kernel
  obtain ⟨s, reached, rest⟩ := Option.bind_eq_some_iff.mp run
  obtain ⟨c', blocked, shown⟩ := Option.map_eq_some_iff.mp rest
  have blocked : Sl.step s.cpu (.block 1) = .ok c' := next_eq_some.mp blocked
  simp only [Prod.mk.injEq, decide_eq_true_eq] at shown
  obtain ⟨pending, asleep, met⟩ := shown
  obtain ⟨zero, awake, _⟩ :=
    wakeups_counted _ Cpu.allBlocked_initial (fun _ => ⟨rfl, by simp [Cpu.allBlocked]⟩)
      (by decide +kernel) reached
  exact ⟨s, c', reached, pending, blocked,
    (awake _ 1 c' met rfl rfl (by omega) blocked).1, zero 2 (.inl asleep)⟩

/-- A thread sleeps with a wakeup counted; a wakeup is slept through; a block fails an assertion. -/
theorem wakeups_counted_mixed :
    (∃ s : Watched edf, exec next (start Cpu.allBlocked)
        [.xcpuWakeupWithDl 1 40, .blockTimeout 1 100] = some s ∧
      (s.cpu.thd 1).state = .blockedTimeout ∧ (s.cpu.thd 1).wakeupCnt = 1) ∧
    (∃ (s : Watched edf) (c' : Cpu edf), exec next (start Cpu.allBlocked)
        [.xcpuWakeupWithDl 1 40, .wakeup 2 1, .block 1, .xcpuWakeup 1] = some s ∧
      (s.tally 1).pending = 1 ∧ Sl.step s.cpu (.block 1) = .ok c' ∧ (c'.thd 1).state = .blocked) ∧
    (∃ s : Watched edf, exec next (start Cpu.allBlocked)
        [.xcpuWakeupWithDl 1 40, .wakeup 2 1, .block 1] = some s ∧
      (s.cpu.thd 1).state = .runnable ∧ Sl.step s.cpu (.block 1) = .error .count) := by
  have timed : (exec next (start Cpu.allBlocked : Watched edf)
      [.xcpuWakeupWithDl 1 40, .blockTimeout 1 100]).map
      (fun s => ((s.cpu.thd 1).state, (s.cpu.thd 1).wakeupCnt)) = some (.blockedTimeout, 1) := by
    decide +kernel
  have lost : ((exec next (start Cpu.allBlocked : Watched edf)
      [.xcpuWakeupWithDl 1 40, .wakeup 2 1, .block 1, .xcpuWakeup 1]).bind fun s =>
        (Sl.step s.cpu (.block 1)).toOption.map fun c' =>
          ((s.tally 1).pending, (c'.thd 1).state)) = some (1, .blocked) := by
    decide +kernel
  have failing : (exec next (start Cpu.allBlocked : Watched edf)
      [.xcpuWakeupWithDl 1 40, .wakeup 2 1, .block 1]).map
      (fun s => ((s.cpu.thd 1).state, decide (Sl.step s.cpu (.block 1) = .error .count))) =
      some (.runnable, true) := by
    decide +kernel
  refine ⟨?_, ?_, ?_⟩
  · obtain ⟨s, reached, shown⟩ := Option.map_eq_some_iff.mp timed
    exact ⟨s, reached, Prod.ext_iff.mp shown⟩
  · obtain ⟨s, reached, rest⟩ := Option.bind_eq_some_iff.mp lost
    obtain ⟨c', blocked, shown⟩ := Option.map_eq_some_iff.mp rest
    obtain ⟨pending, asleep⟩ := Prod.ext_iff.mp shown
    exact ⟨s, c', reached, pending, next_eq_some.mp blocked, asleep⟩
  · obtain ⟨s, reached, shown⟩ := Option.map_eq_some_iff.mp failing
    obtain ⟨state, failed⟩ := Prod.ext_iff.mp shown
    exact ⟨s, reached, state, of_decide_eq_true failed⟩

end Watched

end Composite.Sl
