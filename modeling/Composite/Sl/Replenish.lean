import Composite.Lib.Transition
import Mathlib.Data.List.Perm.Subperm

/-!
# Replenishing the budget of a thread

A thread with its own tcap is replenished when it is scheduled and a period has passed.  The time
that is recorded is the start of the period, so that the recorded times keep their phase.  Times
are 64-bit numbers.
-/

namespace Composite.Sl

open Transition

def slCycsDiff : Nat := 2 ^ 14

def cyclesSame (a b diffThresh : Nat) : Bool := (if b < a then a - b else b - a) ≤ diffThresh

/-- One decision for the thread: the clock, the budget that the kernel reports for its tcap, and
whether it would grant a transfer. -/
structure Decision where
  now : Nat
  currbudget : Nat
  granted : Bool
  deriving DecidableEq, Repr

/-- What `sl_cs_exit_schedule_nospin_arg` asks of `cos_tcap_transfer`. -/
def transferAsked (budget : Nat) (d : Decision) : Option Nat :=
  if ¬cyclesSame d.currbudget budget slCycsDiff ∧ d.currbudget < budget then
    some (budget - d.currbudget)
  else none

/-- The new `last_replenish`, if it is set. -/
def replenishAt (budget period last : Nat) (d : Decision) : Option Nat :=
  if last = 0 ∨ (last + period) % 2 ^ 64 ≤ d.now then
    let replenish := d.now - (d.now + 2 ^ 64 - last) % 2 ^ 64 % period
    if (transferAsked budget d).isNone ∨ d.granted then some replenish else none
  else none

structure Replenishment where
  now : Nat
  recorded : Nat
  deriving DecidableEq, Repr

/-- `last_replenish`, the clock at the last decision, and the replenishments, the last one first. -/
structure Replenishing where
  last : Nat
  clock : Nat
  log : List Replenishment
  deriving DecidableEq, Repr

def Replenishing.initial : Replenishing := ⟨0, 0, []⟩

def Replenishing.next (budget period : Nat) (s : Replenishing) (d : Decision) :
    Option Replenishing :=
  some <| match replenishAt budget period s.last d with
    | some replenish => ⟨replenish, d.now, ⟨d.now, replenish⟩ :: s.log⟩
    | none => { s with clock := d.now }

def Replenishing.Legal (period : Nat) (s : Replenishing) (d : Decision) : Prop :=
  s.clock ≤ d.now ∧ period ≤ d.now ∧ d.now + period < 2 ^ 64

instance Replenishing.decidableLegal (period : Nat) (s : Replenishing) (d : Decision) :
    Decidable (s.Legal period d) :=
  inferInstanceAs (Decidable (_ ∧ _ ∧ _))

variable {budget period : Nat}

structure Replenishment.Aligned (period : Nat) (r : Replenishment) : Prop where
  phase : period ∣ r.recorded
  inside : r.recorded ≤ r.now ∧ r.now < r.recorded + period
  late : period ≤ r.recorded

theorem Replenishment.Aligned.window {r : Replenishment} (aligned : r.Aligned period) :
    period * (r.now / period) = r.recorded := by
  obtain ⟨k, phase⟩ := aligned.phase
  have inside := aligned.inside
  rw [phase] at inside ⊢
  have quotient : r.now / period = k := by
    refine Nat.div_eq_of_lt_le (by rw [Nat.mul_comm]; exact inside.1) ?_
    rw [Nat.mul_comm, Nat.mul_add, Nat.mul_one]
    exact inside.2
  rw [quotient]

structure Replenishing.Sound (period : Nat) (s : Replenishing) : Prop where
  last : s.last = (s.log.head?.map Replenishment.recorded).getD 0
  before : ∀ r ∈ s.log, r.now ≤ s.clock
  aligned : ∀ r ∈ s.log, r.Aligned period
  spaced : s.log.Pairwise fun later earlier => earlier.recorded < later.recorded

/-- A replenishment at a clock that is a period away from its end. -/
theorem replenishAt_aligned {last replenish : Nat} {d : Decision} (positive : 0 < period)
    (bounded : period ≤ d.now ∧ d.now + period < 2 ^ 64) (past : last ≤ d.now)
    (phase : period ∣ last) (set : replenishAt budget period last d = some replenish) :
    Replenishment.Aligned period ⟨d.now, replenish⟩ ∧ (last ≠ 0 → last < replenish) := by
  unfold replenishAt at set
  split_ifs at set with due granted
  cases set
  have elapsed : (d.now + 2 ^ 64 - last) % 2 ^ 64 = d.now - last := by omega
  have short := Nat.mod_lt (d.now - last) positive
  have small := Nat.mod_le (d.now - last) period
  obtain ⟨k, phase⟩ := phase
  have split := Nat.div_add_mod (d.now - last) period
  have recorded : d.now - (d.now - last) % period = period * (k + (d.now - last) / period) := by
    rw [Nat.mul_add]
    omega
  have after : last ≠ 0 → period ≤ d.now - last := by
    intro again
    have reached := due.resolve_left again
    omega
  rw [elapsed]
  refine ⟨⟨⟨_, recorded⟩, ⟨Nat.sub_le .., by simp only; omega⟩, ?_⟩, fun again => ?_⟩
  · refine recorded.symm ▸ Nat.le_mul_of_pos_right period ?_
    by_cases first : last = 0
    · exact Nat.add_pos_right _ (Nat.div_pos (by omega) positive)
    · have earlier : k ≠ 0 := fun zero => first (by rw [phase, zero, Nat.mul_zero])
      exact Nat.add_pos_left (Nat.pos_of_ne_zero earlier) _
  · have whole := Nat.mul_le_mul_left period (Nat.div_pos (after again) positive)
    rw [recorded, Nat.mul_add, ← phase]
    omega

namespace Replenishing

variable {s s' : Replenishing}

theorem Sound.next {d : Decision} (positive : 0 < period) (sound : s.Sound period)
    (legal : s.Legal period d) (stepped : s.next budget period d = some s') : s'.Sound period := by
  obtain ⟨later, bounded⟩ := legal
  cases stepped
  have recent : ∀ r ∈ s.log, r.now ≤ d.now := fun r member =>
    Nat.le_trans (sound.before r member) later
  cases set : replenishAt budget period s.last d with
  | none => exact { sound with before := recent }
  | some replenish =>
    have isLast := sound.last
    have state : s.last ≤ d.now ∧ period ∣ s.last ∧ ∀ r ∈ s.log, s.last ≠ 0 ∧
      r.recorded ≤ s.last := by
      cases log : s.log with
      | nil =>
        rw [log] at isLast
        exact ⟨isLast ▸ Nat.zero_le _, isLast ▸ Nat.dvd_zero .., nofun⟩
      | cons r rest =>
        have isLast : s.last = r.recorded := by rw [isLast, log]; rfl
        have member : r ∈ s.log := log ▸ List.mem_cons_self ..
        have aligned := sound.aligned r member
        have spaced := log ▸ sound.spaced
        refine ⟨?_, isLast ▸ aligned.phase, fun other isIn => ⟨?_, ?_⟩⟩
        · exact isLast ▸ Nat.le_trans aligned.inside.1 (recent r member)
        · have late := aligned.late
          omega
        · rcases List.mem_cons.mp isIn with rfl | older
          · exact Nat.le_of_eq isLast.symm
          · exact isLast ▸ Nat.le_of_lt (List.rel_of_pairwise_cons spaced older)
    obtain ⟨aligned, increases⟩ := replenishAt_aligned positive bounded state.1 state.2.1 set
    refine ⟨rfl, ?_, ?_, ?_⟩
    · simpa using recent
    · simpa using ⟨aligned, sound.aligned⟩
    · refine List.pairwise_cons.mpr ⟨fun r member => ?_, sound.spaced⟩
      obtain ⟨nonzero, earlier⟩ := state.2.2 r member
      exact Nat.lt_of_le_of_lt earlier (increases nonzero)

/-- The recorded times increase by whole periods, at most one replenishment falls into each period
and at most `k + 1` into `k` of them, and no transfer asks for more than is missing. -/
theorem replenishments_spaced (budget period : Nat) (positive : 0 < period)
    {decisions : List Decision} {s : Replenishing}
    (legal : Meets (Legal period) (next budget period) initial decisions)
    (reached : exec (next budget period) initial decisions = some s) :
    (s.log.Pairwise fun later earlier =>
      earlier.recorded < later.recorded ∧ period ∣ later.recorded - earlier.recorded) ∧
    (s.log.map fun r => r.now / period).Nodup ∧
    (∀ a k, (s.log.filter fun r => a ≤ r.now ∧ r.now ≤ a + k * period).length ≤ k + 1) ∧
    ∀ d asked, transferAsked budget d = some asked → asked ≤ budget - d.currbudget := by
  have sound : s.Sound period :=
    exec_invariant (fun _ _ _ sound legal => sound.next positive legal)
      ⟨rfl, by simp [initial], by simp [initial], .nil⟩ legal reached
  have windows : (s.log.map fun r => r.now / period).Nodup := by
    refine List.pairwise_map.mpr
      (sound.spaced.imp_of_mem fun {later earlier} isIn isIn' order same => ?_)
    have start := (sound.aligned later isIn).window
    have start' := (sound.aligned earlier isIn').window
    rw [same, start'] at start
    omega
  refine ⟨sound.spaced.imp_of_mem fun isIn isIn' order => ⟨order, ?_⟩, windows, fun a k => ?_,
    fun d asked isAsked => ?_⟩
  · exact Nat.dvd_sub (sound.aligned _ isIn).phase (sound.aligned _ isIn').phase
  · have among : (s.log.filter fun r => a ≤ r.now ∧ r.now ≤ a + k * period).map
        (fun r => r.now / period) ⊆ List.range' (a / period) (k + 1) := by
      intro window isWindow
      obtain ⟨r, inFilter, rfl⟩ := List.mem_map.mp isWindow
      obtain ⟨after, before⟩ := of_decide_eq_true (List.mem_filter.mp inFilter).2
      have least := Nat.div_le_div_right (c := period) after
      have most := Nat.div_le_div_right (c := period) before
      rw [Nat.add_mul_div_right _ _ positive] at most
      rw [List.mem_range'_1]
      omega
    have counted := (List.subperm_of_subset
      (windows.sublist (List.filter_sublist.map _)) among).length_le
    rwa [List.length_map, List.length_range'] at counted
  · unfold transferAsked at isAsked
    split_ifs at isAsked
    cases isAsked
    exact Nat.le_refl _

/-- Three decisions, of which the first and the last replenish. -/
theorem replenishments_spaced_three :
    ∃ s : Replenishing, s.log = [⟨250, 200⟩, ⟨130, 100⟩] ∧
      exec (next 50000 100) initial [⟨130, 0, true⟩, ⟨190, 0, true⟩, ⟨250, 0, true⟩] = some s ∧
      (s.log.map fun r => r.now / 100).Nodup := by
  have legal : Meets (Legal 100) (next 50000 100) initial
      [⟨130, 0, true⟩, ⟨190, 0, true⟩, ⟨250, 0, true⟩] := by decide
  exact ⟨_, rfl, rfl, (replenishments_spaced 50000 100 (by decide) legal rfl).2.1⟩

/-- At the end of the clock two replenishments are recorded for one period. -/
theorem replenished_twice_at_end :
    ∃ s : Replenishing,
      exec (next 50000 (2 ^ 63)) initial [⟨2 ^ 63, 0, true⟩, ⟨2 ^ 63 + 5, 0, true⟩] = some s ∧
      s.log = [⟨2 ^ 63 + 5, 2 ^ 63⟩, ⟨2 ^ 63, 2 ^ 63⟩] :=
  ⟨_, rfl, rfl⟩

end Replenishing

end Composite.Sl
