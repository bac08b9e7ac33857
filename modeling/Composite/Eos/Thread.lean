import Mathlib.Algebra.Order.Ring.Int

/-!
# A thread that counts its wakeups

Each wakeup adds one to a count of the thread.  To block takes one from the count, and the
thread sleeps only if nothing is left of it.  The count is a C integer.
-/

namespace Composite.Eos

/-- `sl_thd_state_t`. -/
inductive SlThdState where
  | free
  | blocked
  | blockedTimeout
  | woken
  | runnable
  | dying
  deriving DecidableEq, Repr

/-- `struct sl_thd` and its policy. -/
structure SlThd where
  state : SlThdState
  rcvSuspended : Bool
  wakeupCnt : Int
  deadline : Nat
  /-- `prio_idx` is a place in the heap. -/
  inHeap : Bool
  deriving DecidableEq, Repr

def slEdfMaxDeadline : Nat := 2 ^ 64 - 1

/-- The value of a packed `sched_param_t`. -/
def schedParamValue (value : Nat) : Nat := value % 2 ^ 56

/-- What `cos_faa` leaves in a C integer. -/
def cosFaa (value delta : Int) : Int := (value + delta).bmod (2 ^ 32)

def slModWakeup (t : SlThd) : Option SlThd :=
  if t.deadline = slEdfMaxDeadline then none else some { t with inHeap := true }

def slModBlock (t : SlThd) : Option SlThd :=
  if t.inHeap then some { t with inHeap := false, state := .blocked } else none

def slThdWakeupNoCsRm (t : SlThd) : Option SlThd := do
  let t ← slModWakeup { t with state := .runnable }
  if t.wakeupCnt < 0 then none
  else some { t with wakeupCnt := cosFaa t.wakeupCnt 1, rcvSuspended := false }

def slThdSchedUnblockNoCs (t : SlThd) : Option SlThd :=
  if ¬t.rcvSuspended then some t
  else if t.state ≠ .blocked ∧ t.state ≠ .blockedTimeout then
    some { t with rcvSuspended := false }
  else slThdWakeupNoCsRm { t with rcvSuspended := false }

/-- `sl_thd_block_no_cs`, for `SL_THD_BLOCKED`. -/
def slThdBlockNoCs (t : SlThd) : Option SlThd :=
  if t.state = .woken then
    if t.rcvSuspended then none else some { t with state := .runnable }
  else do
    let t ← slThdSchedUnblockNoCs t
    if t.state ≠ .runnable then none
    else
      let t ← slModBlock t
      some { t with state := .blocked }

def slThdBlock (t : SlThd) : Option SlThd :=
  let cnt := t.wakeupCnt
  let t := { t with wakeupCnt := cosFaa cnt (-1) }
  if cnt < 1 then none
  else if cnt = 1 then slThdBlockNoCs t
  else some t

/-- `sl_xcpu_process_no_cs`, for one `SL_XCPU_THD_WAKEUP_WITH_DL`. -/
def slXcpuWakeupWithDl (t : SlThd) (sp : Nat) : Option SlThd :=
  slThdWakeupNoCsRm { t with deadline := schedParamValue sp }

/-! The count covers the nodes that are ready. -/

/-- A running thread has a wakeup of its own.  If it is about to sleep, there is another one for
each node that is ready, counted or pending; if it sleeps, all of them are pending. -/
inductive ThreadSound (t : SlThd) (eblocked : Bool) (ready pending : Int) : Prop where
  | running (state : t.state = .runnable) (fresh : t.rcvSuspended = false)
      (positive : 1 ≤ t.wakeupCnt) (bounded : t.wakeupCnt < 2 ^ 31) (queued : t.inHeap = true)
      (covered : eblocked = true → ready ≤ t.wakeupCnt - 1 + pending)
  | sleeping (state : t.state = .blocked) (fresh : t.rcvSuspended = false)
      (none_left : t.wakeupCnt = 0) (unqueued : t.inHeap = false) (reset : eblocked = false)
      (covered : ready ≤ pending)

theorem cosFaa_of_bounds {value delta : Int} (low : -2 ^ 31 ≤ value + delta)
    (high : value + delta < 2 ^ 31) : cosFaa value delta = value + delta := by
  unfold cosFaa
  rw [Int.bmod_def]
  omega

theorem schedParamValue_ne_max (sp : Nat) : schedParamValue sp ≠ slEdfMaxDeadline := by
  have below : sp % 2 ^ 56 < 2 ^ 56 := Nat.mod_lt _ (by decide)
  unfold schedParamValue slEdfMaxDeadline
  omega

variable {t : SlThd} {ready pending : Int}

theorem slXcpuWakeupWithDl_eq (counted : 0 ≤ t.wakeupCnt) (sp : Nat) :
    slXcpuWakeupWithDl t sp =
      some ⟨.runnable, false, cosFaa t.wakeupCnt 1, schedParamValue sp, true⟩ := by
  simp [slXcpuWakeupWithDl, slThdWakeupNoCsRm, slModWakeup, schedParamValue_ne_max,
    Int.not_lt.mpr counted]

theorem ThreadSound.wakeup {eblocked : Bool} (sound : ThreadSound t eblocked ready (pending + 1))
    (bounded : t.wakeupCnt < 2 ^ 31 - 1) (sp : Nat) :
    ∃ t', slXcpuWakeupWithDl t sp = some t' ∧ ThreadSound t' eblocked ready pending := by
  cases sound with
  | running state fresh positive _ queued covered =>
    have sum : cosFaa t.wakeupCnt 1 = t.wakeupCnt + 1 := cosFaa_of_bounds (by omega) (by omega)
    refine ⟨_, slXcpuWakeupWithDl_eq (by omega) sp, ?_⟩
    rw [sum]
    refine .running rfl rfl (by simp only; omega) (by simp only; omega) rfl fun about => ?_
    have before := covered about
    simp only
    omega
  | sleeping state fresh none_left unqueued reset covered =>
    have sum : cosFaa t.wakeupCnt 1 = t.wakeupCnt + 1 := cosFaa_of_bounds (by omega) (by omega)
    refine ⟨_, slXcpuWakeupWithDl_eq (by omega) sp, ?_⟩
    rw [sum]
    refine .running rfl rfl (by simp only; omega) (by simp only; omega) rfl fun about => ?_
    rw [reset] at about
    cases about

theorem ThreadSound.block (sound : ThreadSound t true ready pending) :
    ∃ t', slThdBlock t = some t' ∧ ThreadSound t' false ready pending := by
  cases sound with
  | sleeping _ _ _ _ reset => cases reset
  | running state fresh positive bounded queued covered =>
    have before := covered rfl
    have difference : cosFaa t.wakeupCnt (-1) = t.wakeupCnt + -1 :=
      cosFaa_of_bounds (by omega) (by omega)
    by_cases last : t.wakeupCnt = 1
    · have slept : slThdBlock t = some ⟨.blocked, false, 0, t.deadline, false⟩ := by
        have zero : cosFaa 1 (-1) = 0 := by decide
        simp [slThdBlock, last, zero, slThdBlockNoCs, slThdSchedUnblockNoCs, slModBlock, state,
          fresh, queued]
      exact ⟨_, slept, .sleeping rfl rfl rfl rfl rfl (by omega)⟩
    · have stayed : slThdBlock t = some { t with wakeupCnt := t.wakeupCnt + -1 } := by
        simp only [slThdBlock, difference]
        rw [if_neg (by omega), if_neg last]
      refine ⟨_, stayed, .running state fresh ?_ ?_ queued fun about => ?_⟩
      · simp only
        omega
      · simp only
        omega
      · cases about

theorem ThreadSound.covers_more {eblocked : Bool} {ready' pending' : Int}
    (sound : ThreadSound t eblocked ready pending) (less : ready' - pending' ≤ ready - pending) :
    ThreadSound t eblocked ready' pending' := by
  cases sound with
  | running state fresh positive bounded queued covered =>
    refine .running state fresh positive bounded queued fun about => ?_
    have before := covered about
    omega
  | sleeping state fresh none_left unqueued reset covered =>
    exact .sleeping state fresh none_left unqueued reset (by omega)

end Composite.Eos
