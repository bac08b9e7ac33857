import Composite.Kernel.Dispatch

/-!
# The timer of a core

When a core goes on with a tcap it programs the local timer for the end of the budget or
for an earlier timeout.  It leaves the timer as it is when it was last programmed for nearly
the same time.  In TSC-deadline mode the timer fires once, when the cycle counter comes to
the deadline, and the kernel does not note that it has.
-/

namespace Composite

open Option

def lapicTimerMin : Nat := 2 ^ 12

/-- The register `IA32_TSC_DEADLINE`, which is 0 when the timer is not armed, and
`lapic_is_disabled`. -/
structure Lapic where
  deadline : Nat
  isDisabled : Bool
  deriving DecidableEq, Repr

/-- `lapic_set_timer` in TSC-deadline mode. -/
def lapicSetTimer (now deadline : Nat) : Lapic where
  deadline :=
    if deadline < now ∨ deadline - now < lapicTimerMin then (now + lapicTimerMin) % 2 ^ 64
    else deadline
  isDisabled := false

/-- `lapic_disable_timer` in TSC-deadline mode. -/
def lapicDisableTimer (lapic : Lapic) : Lapic :=
  if lapic.isDisabled then lapic else ⟨0, true⟩

/-- What the kernel and the hardware know about the timer of a core: the time that was last
programmed, the timer itself, whether it has fired and the interrupt was not taken yet, and
the cycle counter. -/
structure CpuTimer where
  nextTimer : Nat
  lapic : Lapic
  fired : Bool
  tsc : Nat
  deriving DecidableEq, Repr

inductive TimerEvent where
  | update (left timeout : UInt32)
  | interrupt (left : UInt32)
  | advance (cycles : Nat)
  deriving DecidableEq

namespace CpuTimer

/-- `tcap_timer_update`, with the calls of `chal_timer_set` and `chal_timer_disable`. -/
def tcapTimerUpdate (c : CpuTimer) (left timeout : Nat) : Except Fault CpuTimer :=
  let timer := tcapTimer left timeout c.tsc
  if timeout = 0 ∧ left = tcapResInf then
    .ok { c with nextTimer := 0, lapic := lapicDisableTimer c.lapic }
  else if cyclesSame c.nextTimer timer tcapTimerDiff ∧ c.nextTimer ≠ 0 then .ok c
  else if timer = 0 then .error .assertion
  else .ok { c with nextTimer := timer, lapic := lapicSetTimer c.tsc timer }

/-- Time passes.  The timer fires when the counter comes to the deadline. -/
def advance (c : CpuTimer) (cycles : Nat) : CpuTimer :=
  if c.lapic.deadline ≠ 0 ∧ c.lapic.deadline ≤ c.tsc + cycles then
    { c with tsc := c.tsc + cycles, lapic := { c.lapic with deadline := 0 }, fired := true }
  else { c with tsc := c.tsc + cycles }

/-- The kernel entries that update the tcap, and the time between them.  The interrupt has no
timeout of its own. -/
def next (c : CpuTimer) : TimerEvent → Option CpuTimer
  | .update left timeout => (c.tcapTimerUpdate left.toNat timeout.toNat).toOption
  | .interrupt left =>
    if c.fired then ({ c with fired := false }.tcapTimerUpdate left.toNat 0).toOption else none
  | .advance cycles => some (c.advance cycles)

def updates (c : CpuTimer) : TimerEvent → Option (Nat × Nat)
  | .update left timeout => some (left.toNat, timeout.toNat)
  | .interrupt left => if c.fired then some (left.toNat, 0) else none
  | .advance _ => none

/-- The timer is still armed whenever programming it is left out, and the cycle counter is
far from its end. -/
def Programs (c : CpuTimer) (event : TimerEvent) : Prop :=
  c.tsc + 2 ^ 33 < 2 ^ 64 ∧ ∀ left timeout, c.updates event = some (left, timeout) →
    cyclesSame c.nextTimer (tcapTimer left timeout c.tsc) tcapTimerDiff → c.nextTimer ≠ 0 →
    c.lapic.deadline ≠ 0

def Initial (c : CpuTimer) : Prop := c.nextTimer = 0 ∧ c.lapic.deadline = 0

end CpuTimer

def timerWanted (left timeout now : Nat) : Nat :=
  if timeout = 0 then now + left
  else if left = tcapResInf then tcapTime2cyc timeout now
  else min (now + left) (tcapTime2cyc timeout now)

theorem tcapTimerUpdate_nextTimer (cosInfo : CosCpuLocalInfo) (lapic : Lapic) (fired : Bool)
    (left timeout now : Nat) :
    (tcapTimerUpdate cosInfo left timeout now).map CosCpuLocalInfo.nextTimer =
      (CpuTimer.tcapTimerUpdate ⟨cosInfo.nextTimer, lapic, fired, now⟩ left timeout).map
        CpuTimer.nextTimer := by
  unfold tcapTimerUpdate CpuTimer.tcapTimerUpdate
  simp only
  split_ifs <;> rfl

/-- Every update of a core is an update of its timer, with the budget of the tcap that the core
goes on with. -/
theorem Core.settle_timer {s s' : Core} {choice : Core.Choice} (lapic : Lapic) (fired : Bool)
    (settled : s.settle choice = .ok s') :
    ∃ c, CpuTimer.tcapTimerUpdate ⟨s.cosInfo.nextTimer, lapic, fired, s.tsc⟩
        (s.tcaps choice.tc).budget choice.timeout = .ok c ∧ s'.cosInfo.nextTimer = c.nextTimer := by
  obtain ⟨threads, -, rest⟩ := Checked.bind_eq_ok.mp settled
  obtain ⟨cosInfo, timed, last⟩ := Checked.bind_eq_ok.mp rest
  cases last
  have same := tcapTimerUpdate_nextTimer s.cosInfo lapic fired (s.tcaps choice.tc).budget
    choice.timeout s.tsc
  rw [timed] at same
  cases updated : CpuTimer.tcapTimerUpdate ⟨s.cosInfo.nextTimer, lapic, fired, s.tsc⟩
      (s.tcaps choice.tc).budget choice.timeout with
  | error fault =>
    rw [updated] at same
    cases same
  | ok c =>
    rw [updated] at same
    refine ⟨c, rfl, ?_⟩
    rw [← Except.ok.inj same]
    unfold tcapCurrentSet
    simp only [withTcaps]
    split_ifs <;> rfl

theorem cyclesSame_iff {a b thresh : Nat} :
    cyclesSame a b thresh = true ↔ a ≤ b + thresh ∧ b ≤ a + thresh := by
  unfold cyclesSame
  rw [decide_eq_true_iff]
  split_ifs <;> omega

section Wanted

variable {left timeout now : Nat}

theorem tcapTime2cyc_ne_zero (set : timeout ≠ 0) (bounded : timeout < 2 ^ 32) :
    tcapTime2cyc timeout now ≠ 0 := by
  unfold tcapTime2cyc
  rw [Nat.mod_eq_of_lt (by omega)]
  intro zero
  have parts := Nat.or_eq_zero_iff.mp zero
  omega

theorem tcapTimer_le (timeout : Nat) (far : now + 2 ^ 33 < 2 ^ 64) (bounded : left < 2 ^ 32) :
    tcapTimer left timeout now ≤ max (now + tcapTimerDiff) (timerWanted left timeout now) := by
  unfold tcapTimer timerWanted
  simp only [tcapTimerDiff]
  rw [Nat.mod_eq_of_lt (by omega : now + left < 2 ^ 64),
    Nat.mod_eq_of_lt (by omega : now + 2 ^ 9 < 2 ^ 64)]
  split_ifs <;> omega

theorem tcapTimer_ne_zero (far : now + 2 ^ 33 < 2 ^ 64) (bounded : left < 2 ^ 32)
    (timeoutBounded : timeout < 2 ^ 32) : tcapTimer left timeout now ≠ 0 := by
  unfold tcapTimer
  simp only [tcapTimerDiff]
  rw [Nat.mod_eq_of_lt (by omega : now + left < 2 ^ 64),
    Nat.mod_eq_of_lt (by omega : now + 2 ^ 9 < 2 ^ 64)]
  split_ifs with asked past same same same
  · omega
  · rw [cyclesSame_iff] at same
    omega
  · omega
  · exact tcapTime2cyc_ne_zero asked.1 timeoutBounded
  · omega
  · rw [cyclesSame_iff] at same
    omega

end Wanted

namespace CpuTimer

variable {c c' : CpuTimer} {left timeout : Nat} {event : TimerEvent}

/-- An armed timer has not fired, and it fires at the time that was last programmed or, if
that was too close, at the smallest distance from some time before. -/
structure Sound (c : CpuTimer) : Prop where
  disabled : c.lapic.isDisabled = true → c.lapic.deadline = 0
  ahead : c.lapic.deadline ≠ 0 → c.tsc < c.lapic.deadline
  programmed : c.lapic.deadline ≠ 0 → c.lapic.deadline ≤ max (c.tsc + lapicTimerMin) c.nextTimer

theorem lapicSetTimer_deadline {now : Nat} (deadline : Nat) (far : now + 2 ^ 33 < 2 ^ 64) :
    (lapicSetTimer now deadline).deadline = max (now + lapicTimerMin) deadline := by
  unfold lapicSetTimer lapicTimerMin
  by_cases close : deadline < now ∨ deadline - now < 2 ^ 12
  · simp only [if_pos close]
    omega
  · simp only [if_neg close]
    omega

theorem Sound.deadline_disable (sound : c.Sound) : (lapicDisableTimer c.lapic).deadline = 0 := by
  unfold lapicDisableTimer
  split_ifs with disabled
  · exact sound.disabled disabled
  · rfl

/-- What `tcap_timer_update` leaves behind. -/
inductive Updated (c : CpuTimer) (left timeout : Nat) : CpuTimer → Prop where
  | disabled : timeout = 0 → left = tcapResInf →
      Updated c left timeout { c with nextTimer := 0, lapic := lapicDisableTimer c.lapic }
  | kept : cyclesSame c.nextTimer (tcapTimer left timeout c.tsc) tcapTimerDiff = true →
      c.nextTimer ≠ 0 → Updated c left timeout c
  | set : Updated c left timeout { c with
      nextTimer := tcapTimer left timeout c.tsc
      lapic := lapicSetTimer c.tsc (tcapTimer left timeout c.tsc) }

theorem updated_of_update (done : c.tcapTimerUpdate left timeout = .ok c') :
    Updated c left timeout c' := by
  unfold tcapTimerUpdate at done
  simp only at done
  split_ifs at done with infinite same
  · cases done
    exact .disabled infinite.1 infinite.2
  · cases done
    exact .kept same.1 same.2
  · cases done
    exact .set

theorem tcapTimerUpdate_ok (far : c.tsc + 2 ^ 33 < 2 ^ 64) (bounded : left < 2 ^ 32)
    (timeoutBounded : timeout < 2 ^ 32) : ∃ c', c.tcapTimerUpdate left timeout = .ok c' := by
  unfold tcapTimerUpdate
  simp only [tcapTimer_ne_zero far bounded timeoutBounded, if_false]
  split_ifs
  · exact ⟨_, rfl⟩
  · exact ⟨_, rfl⟩
  · exact ⟨_, rfl⟩

theorem Sound.update (sound : c.Sound) (far : c.tsc + 2 ^ 33 < 2 ^ 64)
    (updated : Updated c left timeout c') : c'.Sound := by
  cases updated with
  | disabled noTimeout infinite =>
    have off := sound.deadline_disable
    exact ⟨fun _ => off, fun armed => absurd off armed, fun armed => absurd off armed⟩
  | kept same programmed => exact sound
  | set =>
    have deadline := lapicSetTimer_deadline (tcapTimer left timeout c.tsc) far
    refine ⟨fun disabled => ?_, fun _ => ?_, fun _ => Nat.le_of_eq deadline⟩
    · cases disabled
    · dsimp only
      rw [deadline, lapicTimerMin]
      omega

theorem Sound.advance (sound : c.Sound) (cycles : Nat) : (c.advance cycles).Sound := by
  unfold CpuTimer.advance
  split_ifs with fires
  · exact ⟨fun _ => rfl, fun armed => absurd rfl armed, fun armed => absurd rfl armed⟩
  · refine ⟨sound.disabled, fun armed => ?_, fun armed => ?_⟩
    · exact Nat.lt_of_not_le fun reached => fires ⟨armed, reached⟩
    · have programmed := sound.programmed armed
      dsimp only at programmed ⊢
      omega

theorem armed_of_updated (sound : c.Sound) (far : c.tsc + 2 ^ 33 < 2 ^ 64) (bounded : left < 2 ^ 32)
    (limited : left ≠ tcapResInf ∨ timeout ≠ 0)
    (still : cyclesSame c.nextTimer (tcapTimer left timeout c.tsc) tcapTimerDiff →
      c.nextTimer ≠ 0 → c.lapic.deadline ≠ 0)
    (updated : Updated c left timeout c') :
    c.tsc < c'.lapic.deadline ∧
      c'.lapic.deadline ≤ max (c.tsc + lapicTimerMin) (timerWanted left timeout c.tsc) +
        tcapTimerDiff := by
  have wanted := tcapTimer_le timeout far bounded
  cases updated with
  | disabled noTimeout infinite =>
    rcases limited with finite | asked
    · exact absurd infinite finite
    · exact absurd noTimeout asked
  | kept same programmed =>
    have armed := still same programmed
    have deadline := sound.programmed armed
    rw [cyclesSame_iff] at same
    refine ⟨sound.ahead armed, ?_⟩
    simp only [tcapTimerDiff, lapicTimerMin] at *
    omega
  | set =>
    dsimp only
    rw [lapicSetTimer_deadline _ far]
    simp only [tcapTimerDiff, lapicTimerMin] at *
    omega

theorem Initial.sound (initial : c.Initial) : c.Sound :=
  ⟨fun _ => initial.2, fun armed => absurd initial.2 armed, fun armed => absurd initial.2 armed⟩

theorem Sound.next (sound : c.Sound) (programs : c.Programs event)
    (stepped : c.next event = some c') : c'.Sound := by
  have updatedSound {c : CpuTimer} {left timeout : Nat} (sound : c.Sound)
      (far : c.tsc + 2 ^ 33 < 2 ^ 64)
      (done : (c.tcapTimerUpdate left timeout).toOption = some c') : c'.Sound := by
    cases updated : c.tcapTimerUpdate left timeout with
    | error fault =>
      rw [updated] at done
      cases done
    | ok after =>
      rw [updated] at done
      exact some_inj.mp done ▸ sound.update far (updated_of_update updated)
  cases event with
  | update left timeout => exact updatedSound sound programs.1 stepped
  | interrupt left =>
    simp only [CpuTimer.next, ite_none_right_eq_some] at stepped
    have taken : CpuTimer.Sound { c with fired := false } :=
      ⟨sound.disabled, sound.ahead, sound.programmed⟩
    exact updatedSound taken programs.1 stepped.2
  | advance cycles => exact some_inj.mp stepped ▸ sound.advance cycles

theorem next_of_updates (far : c.tsc + 2 ^ 33 < 2 ^ 64)
    (update : c.updates event = some (left, timeout)) :
    left < 2 ^ 32 ∧ ∃ fired c', c.next event = some c' ∧
      Updated { c with fired := fired } left timeout c' := by
  have carried {fired : Bool} {left timeout : Nat} (bounded : left < 2 ^ 32)
      (timeoutBounded : timeout < 2 ^ 32) :
      ∃ c', (tcapTimerUpdate { c with fired := fired } left timeout).toOption = some c' ∧
        Updated { c with fired := fired } left timeout c' := by
    have far' : ({ c with fired := fired } : CpuTimer).tsc + 2 ^ 33 < 2 ^ 64 := far
    obtain ⟨c', done⟩ := tcapTimerUpdate_ok far' bounded timeoutBounded
    exact ⟨c', by rw [done]; rfl, updated_of_update done⟩
  cases event with
  | update left timeout =>
    cases update
    exact ⟨left.toNat_lt, c.fired, carried left.toNat_lt timeout.toNat_lt⟩
  | interrupt left =>
    simp only [updates, ite_none_right_eq_some, some.injEq, Prod.mk.injEq] at update
    obtain ⟨fired, rfl, rfl⟩ := update
    obtain ⟨c', done, updated⟩ := carried left.toNat_lt (by decide : 0 < 2 ^ 32)
    exact ⟨left.toNat_lt, false, c', by rw [CpuTimer.next, if_pos fired]; exact done, updated⟩
  | advance cycles => cases update

end CpuTimer

/-- In every run in which programming is left out only while the timer is armed, each update
with a finite budget or a timeout is carried out and leaves the timer armed, to fire no later
than 512 cycles after what is wanted or the smallest distance. -/
theorem timer_armed {start c : CpuTimer} {events : List TimerEvent} {event : TimerEvent}
    {left timeout : Nat} (initial : start.Initial)
    (programs : Transition.Meets CpuTimer.Programs CpuTimer.next start events)
    (reached : Transition.exec CpuTimer.next start events = some c) (last : c.Programs event)
    (update : c.updates event = some (left, timeout))
    (limited : left ≠ tcapResInf ∨ timeout ≠ 0) :
    ∃ c', c.next event = some c' ∧ c'.tsc = c.tsc ∧ c.tsc < c'.lapic.deadline ∧
      c'.lapic.deadline ≤ max (c.tsc + 4096) (timerWanted left timeout c.tsc) + 512 := by
  have kept : ∀ (c : CpuTimer) event c', c.Sound → c.Programs event → c.next event = some c' →
      c'.Sound := fun _ _ _ sound programs stepped => sound.next programs stepped
  have sound := Transition.exec_invariant kept initial.sound programs reached
  obtain ⟨bounded, fired, c', stepped, updated⟩ := CpuTimer.next_of_updates last.1 update
  have sound' : CpuTimer.Sound { c with fired := fired } :=
    ⟨sound.disabled, sound.ahead, sound.programmed⟩
  have armed := CpuTimer.armed_of_updated (c := { c with fired := fired }) sound' last.1 bounded
    limited (last.2 left timeout update) updated
  refine ⟨c', stepped, ?_, armed⟩
  cases updated <;> rfl

/-- A tcap with 100000 cycles and a timeout after 8192, at which the interrupt is taken. -/
theorem timer_armed_timeout :
    ∃ c ∈ Transition.exec CpuTimer.next ⟨0, ⟨0, true⟩, false, 0⟩ [.update 100000 2, .advance 8192],
      ∃ c', c.next (.interrupt 91808) = some c' ∧ 8192 < c'.lapic.deadline ∧
        c'.lapic.deadline ≤ 100512 := by
  have run : Transition.exec CpuTimer.next ⟨0, ⟨0, true⟩, false, 0⟩
      [.update 100000 2, .advance 8192] = some ⟨8192, ⟨0, false⟩, true, 8192⟩ := by decide +kernel
  have first : CpuTimer.Programs ⟨0, ⟨0, true⟩, false, 0⟩ (.update 100000 2) :=
    ⟨by decide, fun _ _ _ _ programmed => absurd rfl programmed⟩
  have programs : Transition.Meets CpuTimer.Programs CpuTimer.next ⟨0, ⟨0, true⟩, false, 0⟩
      [.update 100000 2, .advance 8192] := by
    refine ⟨first, fun c stepped => ⟨⟨?_, fun _ _ update => by cases update⟩, fun _ _ => trivial⟩⟩
    obtain rfl := Option.some_inj.mp (stepped.symm.trans
      (by decide +kernel : _ = some (CpuTimer.mk 8192 ⟨8192, false⟩ false 0)))
    decide
  have last : CpuTimer.Programs ⟨8192, ⟨0, false⟩, true, 8192⟩ (.interrupt 91808) := by
    refine ⟨by decide, fun left timeout update same => ?_⟩
    cases update
    exact absurd same (by decide +kernel)
  obtain ⟨c', stepped, -, ahead, inTime⟩ :=
    timer_armed ⟨rfl, rfl⟩ programs run last (by rfl : _ = some (91808, 0)) (.inl (by decide))
  exact ⟨_, run, c', stepped, ahead, inTime.trans (by decide +kernel)⟩

/-- The timeout is 308 cycles before the end of the budget.  After the interrupt the new time
is within 512 cycles of the one that was programmed last, and the timer is not armed again. -/
theorem timer_armed_not_again :
    Transition.exec CpuTimer.next ⟨0, ⟨0, true⟩, false, 0⟩
      [.update 8500 2, .advance 8192, .interrupt 308] = some ⟨8192, ⟨0, false⟩, false, 8192⟩ := by
  decide +kernel

end Composite
