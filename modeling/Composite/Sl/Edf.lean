import Composite.Heap.Spec
import Composite.Sl.Sched

/-!
# The earliest deadline first policy

The run queue is a heap of the threads that can run, ordered by their deadlines.  A thread of fixed
priority is in it from its start on, with the largest deadline; any other starts blocked.
-/

namespace Composite.Sl

open Function
open Eos (SlThdState schedParamValue slEdfMaxDeadline schedParamValue_ne_max)

/-- The heap of a core with `prio_idx`, and the deadlines of the threads. -/
structure EdfRq where
  deadline : Nat → Nat
  hs : Heap Nat

def slEdfMaxThds : Nat := slMaxNumThds

def compareMin (deadline : Nat → Nat) (a b : Nat) : Bool := deadline a ≤ deadline b

def EdfRq.setDeadline (rq : EdfRq) (t v : Nat) : EdfRq :=
  { rq with deadline := Function.update rq.deadline t v }

def slModSchedule (rq : EdfRq) : Option Nat := heapPeek rq.hs

def slModBlock (rq : EdfRq) (t : Nat) : Option EdfRq :=
  if rq.hs.idx t ≥ 0 then do
    let (_, hs) ← heapRemove (compareMin rq.deadline) rq.hs (rq.hs.idx t)
    some { rq with hs := hs.u t (-1) }
  else none

/-- `heap_add` of a thread. -/
def EdfRq.add (rq : EdfRq) (t : Nat) : Option EdfRq := do
  let (_, hs) ← heapAdd (compareMin rq.deadline) rq.hs t
  some { rq with hs }

def slModWakeup (rq : EdfRq) (t : Nat) : Option EdfRq :=
  if rq.deadline t = slEdfMaxDeadline then none
  else if rq.hs.idx t < 0 then rq.add t
  else if rq.hs.idx t > 0 then do
    let hs ← heapAdjust (compareMin rq.deadline) rq.hs (rq.hs.idx t)
    some { rq with hs }
  else none

def slModThdCreate (rq : EdfRq) (t : Nat) : Option EdfRq :=
  if heapSize rq.hs + 1 < slEdfMaxThds then
    some { (rq.setDeadline t slEdfMaxDeadline) with hs := rq.hs.u t (-1) }
  else none

def slModThdDelete (rq : EdfRq) (t : Nat) : Option EdfRq := do
  let (_, hs) ← heapRemove (compareMin rq.deadline) rq.hs (rq.hs.idx t)
  some { rq with hs }

abbrev edf : Policy where
  Rq := EdfRq
  block := slModBlock
  wakeup := slModWakeup
  delete := slModThdDelete
  deadline rq t v := some (rq.setDeadline t v)

/-- `sched_param_type_t`, as far as the policy knows it. -/
inductive SchedParamType where
  | prio
  | prioBlock
  | deadline
  | other
  deriving DecidableEq, Repr

def slModThdParamSet (c : Cpu edf) (t : Nat) (type : SchedParamType) (v : Nat) :
    Except Failure (Cpu edf) :=
  match type with
  | .prio =>
    let rq : EdfRq := c.rq.setDeadline t slEdfMaxDeadline
    if rq.hs.idx t < 0 then (c.withRq rq).policy fun rq => EdfRq.add rq t else .error .policy
  | .prioBlock =>
    let c := c.set t { c.thd t with state := .blocked }
    let rq : EdfRq := c.rq.setDeadline t slEdfMaxDeadline
    if rq.hs.idx t < 0 then .ok (c.withRq rq) else .error .policy
  | .deadline => c.policy (edf.deadline · t v)
  | .other => .error .policy

/-- `sl_thd_alloc_init` and `sl_mod_thd_create`. -/
def slThdAllocInit (c : Cpu edf) (t : Nat) : Except Failure (Cpu edf) :=
  let c := c.set t ⟨.runnable, false, false, 0, 0, 0, 0, 0⟩
  c.policy (slModThdCreate · t)

/-- A core on which every thread has been started with `SCHEDP_PRIO_BLOCK`. -/
def Cpu.allBlocked : Cpu edf where
  thd _ := ⟨.blocked, false, false, 0, 0, 0, 0, 0⟩
  timeouts := heapInit (fun _ => 0) (fun _ => -1) slMaxNumThds
  rq := ⟨fun _ => slEdfMaxDeadline, heapInit (fun _ => 0) (fun _ => -1) slEdfMaxThds⟩
  notified := []

theorem Cpu.allBlocked_initial : Cpu.allBlocked.Initial :=
  ⟨rfl, rfl, fun _ => rfl, fun _ => nofun⟩

/-! What the policy does to its run queue. -/

/-- The run queue holds the threads of `queued`, and a thread of `known` outside has no index. -/
structure EdfRq.Queues (rq : EdfRq) (queued known : Nat → Prop) : Prop where
  sound : rq.hs.Sound (compareMin rq.deadline)
  capacity : rq.hs.maxSz = slEdfMaxThds + 1
  holds : ∀ t, rq.hs.Holds t ↔ queued t
  unplaced : ∀ t, known t → ¬queued t → rq.hs.idx t = -1

instance (deadline : Nat → Nat) : IsTrans Nat (Before (compareMin deadline)) where
  trans a b d first second := by
    simp only [Before, compareMin, decide_eq_true_eq] at first second ⊢
    omega

instance (deadline : Nat → Nat) : Std.Total (Before (compareMin deadline)) where
  total a b := by
    simp only [Before, compareMin, decide_eq_true_eq]
    omega

theorem compareMin_update {deadline : Nat → Nat} {t v a b : Nat} (otherA : a ≠ t) (otherB : b ≠ t) :
    compareMin (update deadline t v) a b = compareMin deadline a b := by
  unfold compareMin
  rw [update_of_ne otherA, update_of_ne otherB]

namespace EdfRq.Queues

variable {rq : EdfRq} {queued known : Nat → Prop} {t : Nat}

section

variable (queues : rq.Queues queued known)

include queues

theorem placed_iff (isKnown : known t) : 0 < rq.hs.idx t ↔ queued t := by
  constructor
  · intro positive
    by_contra out
    have := queues.unplaced t isKnown out
    omega
  · intro isQueued
    exact (queues.sound.indexed.data_idx ((queues.holds t).mpr isQueued)).1

theorem block (isQueued : queued t) :
    ∃ rq', slModBlock rq t = some rq' ∧ rq'.deadline = rq.deadline ∧
      rq'.Queues (fun u => u ≠ t ∧ queued u) known := by
  have held := (queues.holds t).mpr isQueued
  obtain ⟨hs, removed, spec⟩ := heapRemove_spec queues.sound held
  have placed := (queues.sound.indexed.data_idx held).1
  have gone : ¬hs.Holds t := fun still => ((spec.holds t).mp still).1 rfl
  refine ⟨{ rq with hs := hs.u t (-1) }, ?_, rfl,
    ⟨spec.sound.nonempty, spec.sound.indexed.u_absent gone _, spec.sound.ordered⟩,
    spec.sameMax.trans queues.capacity, fun u => ?_, fun u isKnown out => ?_⟩
  · rw [slModBlock, if_pos (by omega), removed]
    rfl
  · rw [← queues.holds u]
    exact spec.holds u
  · by_cases same : u = t
    · rw [same]
      exact update_self ..
    · have absent : ¬queued u := fun still => out ⟨same, still⟩
      have absent' : ¬rq.hs.Holds u := mt (queues.holds u).mp absent
      exact (update_of_ne same ..).trans
        ((spec.others u absent').trans (queues.unplaced u isKnown absent))

theorem setDeadline (absent : ¬queued t) (v : Nat) : (rq.setDeadline t v).Queues queued known := by
  refine { queues with sound := queues.sound.congr fun a b heldA heldB => ?_ }
  have otherA : a ≠ t := fun same => absent (same ▸ (queues.holds a).mp heldA)
  have otherB : b ≠ t := fun same => absent (same ▸ (queues.holds b).mp heldB)
  exact compareMin_update otherA otherB

theorem congr {queued' known' : Nat → Prop} (same : ∀ t, queued t ↔ queued' t)
    (fewer : ∀ t, known' t → known t) : rq.Queues queued' known' :=
  { queues with
    holds := fun t => (queues.holds t).trans (same t)
    unplaced := fun t isKnown out => queues.unplaced t (fewer t isKnown) (mt (same t).mp out) }

theorem create (absent : ¬queued t) (room : heapSize rq.hs + 1 < slEdfMaxThds) :
    ∃ rq', slModThdCreate rq t = some rq' ∧ rq'.Queues queued (fun u => u = t ∨ known u) := by
  have queues' := queues.setDeadline absent slEdfMaxDeadline
  have absent' : ¬rq.hs.Holds t := mt (queues.holds t).mp absent
  refine ⟨_, if_pos room, ⟨queues'.sound.nonempty, queues'.sound.indexed.u_absent absent' _,
    queues'.sound.ordered⟩, queues.capacity, queues.holds, fun u isKnown out => ?_⟩
  by_cases same : u = t
  · rw [same]
    exact update_self ..
  · exact (update_of_ne same ..).trans
      (queues.unplaced u (isKnown.resolve_left same) out)

theorem add (absent : ¬queued t) (room : heapSize rq.hs < slEdfMaxThds) :
    ∃ rq', rq.add t = some rq' ∧ rq'.deadline = rq.deadline ∧
      rq'.Queues (fun u => u = t ∨ queued u) known := by
  have nonempty := queues.sound.nonempty
  have capacity := queues.capacity
  unfold heapSize at room
  obtain ⟨hs, added, spec⟩ :=
    heapAdd_spec queues.sound (mt (queues.holds t).mp absent) (by omega)
  refine ⟨{ rq with hs }, ?_, rfl, spec.sound, spec.sameMax.trans capacity, fun u => ?_,
    fun u isKnown out => ?_⟩
  · rw [EdfRq.add, added]
    rfl
  · rw [← queues.holds u]
    exact spec.holds u
  · rw [not_or] at out
    exact (spec.others u out.1 (mt (queues.holds u).mp out.2)).trans
      (queues.unplaced u isKnown out.2)

/-- A new deadline breaks the order of the heap, and the wakeup repairs it. -/
theorem wakeup (isKnown : known t) (room : heapSize rq.hs < slEdfMaxThds) {v : Nat}
    (finite : v ≠ slEdfMaxDeadline) :
    ∃ rq', slModWakeup (rq.setDeadline t v) t = some rq' ∧
      rq'.deadline = update rq.deadline t v ∧
      rq'.Queues (fun u => u = t ∨ queued u) known := by
  have set : (rq.setDeadline t v).deadline t = v := update_self ..
  by_cases isQueued : queued t
  · have held := (queues.holds t).mpr isQueued
    have placed := (queues.sound.indexed.data_idx held).1
    obtain ⟨hs, adjusted, sound, rearranged⟩ :=
      heapAdjust_rekeyed queues.sound held fun _ _ => compareMin_update (v := v)
    refine ⟨{ rq.setDeadline t v with hs }, ?_, rfl, sound,
      rearranged.sameMax.trans queues.capacity, fun u => ?_, fun u isKnown' out => ?_⟩
    · rw [slModWakeup, set, if_neg finite, if_neg (by simp only [EdfRq.setDeadline]; omega),
        if_pos (by simp only [EdfRq.setDeadline]; omega)]
      exact Option.bind_eq_some_iff.mpr ⟨hs, adjusted, rfl⟩
    · rw [← queues.holds u]
      refine (rearranged.holds u).trans ⟨.inr, ?_⟩
      rintro (rfl | still)
      · exact held
      · exact still
    · rw [not_or] at out
      exact (rearranged.others u (mt (queues.holds u).mp out.2)).trans
        (queues.unplaced u isKnown' out.2)
  · have unplaced := queues.unplaced t isKnown isQueued
    obtain ⟨rq', added, deadline, queues'⟩ := (queues.setDeadline isQueued v).add isQueued room
    refine ⟨rq', ?_, deadline, queues'⟩
    rw [slModWakeup, set, if_neg finite, if_pos (by simp only [EdfRq.setDeadline]; omega)]
    exact added

/-- The thread at the top has the least deadline. -/
theorem schedule :
    match slModSchedule rq with
    | none => ∀ t, ¬queued t
    | some t => queued t ∧ ∀ u, queued u → rq.deadline t ≤ rq.deadline u := by
  unfold slModSchedule
  cases peeked : heapPeek rq.hs with
  | none =>
    intro t isQueued
    exact (heapPeek_eq_none queues.sound).mp peeked t ((queues.holds t).mpr isQueued)
  | some t =>
    obtain ⟨held, least⟩ := heapPeek_eq_some queues.sound peeked
    refine ⟨(queues.holds t).mp held, fun u isQueued => ?_⟩
    have order := least u ((queues.holds u).mpr isQueued)
    simpa only [compareMin, decide_eq_true_eq] using order

end

end EdfRq.Queues

end Composite.Sl
