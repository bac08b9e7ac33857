import Composite.Bitmap.Offset
import Composite.Eos.Thread

/-!
# Earliest deadline first with a window of deadlines

Time and deadlines are counted in quanta.  A thread waits in the run queue of its deadline modulo
the window, and two levels of bitmaps say which of the run queues have threads.  As time passes the
threads that are due move with it.  A failed assertion is `none`, and so is an access outside the
run queues.
-/

namespace Composite.Sl.Window

open Composite.Bitmap (bitmapSet bitmapUnset)
open Eos (SlThdState)
open Words

def deadlineQuantumLen : Nat := 500 * 2100

/-- `DEADLINE_WINDOW_SZ`: as many words of 32 bits as a word has. -/
abbrev deadlineWindowSz : Nat := 1024

/-- `struct sched_bitmaps` of a core, its threads and the clock. -/
structure SchedBitmaps where
  nowQuantized : Nat
  lvl1 : BitVec 32
  lvl2 : Nat → BitVec 32
  runqs : Nat → List Nat
  lowPrioRq : List Nat
  deadline : Nat → Nat
  prioIdx : Nat → Int
  state : Nat → SlThdState
  tsc : Nat

namespace SchedBitmaps

def currOffset (rq : SchedBitmaps) : Nat := rq.tsc / deadlineQuantumLen

def setBits (rq : SchedBitmaps) (pos : Nat) : SchedBitmaps :=
  { rq with lvl2 := bitmapSet rq.lvl2 pos, lvl1 := setBit rq.lvl1 (pos / 32) }

def unsetBits (rq : SchedBitmaps) (pos : Nat) : SchedBitmaps :=
  let lvl2 := bitmapUnset rq.lvl2 pos
  { rq with
    lvl2
    lvl1 := if lvl2 (pos / 32) = 0 then clearBit rq.lvl1 (pos / 32) else rq.lvl1 }

def checkList (rq : SchedBitmaps) (pos : Nat) : SchedBitmaps :=
  if rq.runqs pos = [] then rq.unsetBits pos else rq

/-- `ps_list_rem_d`: the thread is in one list at most. -/
def rem (rq : SchedBitmaps) (t : Nat) : SchedBitmaps :=
  { rq with
    runqs := fun pos => (rq.runqs pos).filter (· ≠ t)
    lowPrioRq := rq.lowPrioRq.filter (· ≠ t) }

/-- `ps_list_head_append_d` to a run queue. -/
def append (rq : SchedBitmaps) (pos t : Nat) : SchedBitmaps :=
  { rq with runqs := Function.update rq.runqs pos (rq.runqs pos ++ [t]) }

/-- `ps_list_head_append_all_d`, and the new `prio_idx` of the threads of the run queue `now`. -/
def appendAll (rq : SchedBitmaps) (now next : Nat) : SchedBitmaps :=
  { rq with
    prioIdx := fun t => if t ∈ rq.runqs now then next else rq.prioIdx t
    runqs := Function.update (Function.update rq.runqs next (rq.runqs next ++ rq.runqs now)) now
      [] }

/-- One turn of the loop of `bitmap_edf_update_offsets`: the threads that are due at `nowOffset` go
to the next run queue. -/
def moveQueue (rq : SchedBitmaps) (nowOffset : Nat) : Option SchedBitmaps :=
  let now := nowOffset % deadlineWindowSz
  let next := (nowOffset + 1) % deadlineWindowSz
  if rq.runqs now = [] then some rq
  else if ∀ node ∈ rq.runqs now, rq.prioIdx node = now ∧ rq.state node = .runnable then
    some (((rq.appendAll now next).unsetBits now).setBits next)
  else none

/-- The loop of `bitmap_edf_update_offsets`. -/
def moveQueues : Nat → Nat → SchedBitmaps → Option SchedBitmaps
  | 0, _, rq => some rq
  | turns + 1, nowOffset, rq => (rq.moveQueue nowOffset).bind (moveQueues turns (nowOffset + 1))

/-- `bitmap_edf_update_offsets`. -/
def updateOffsets (rq : SchedBitmaps) : Option SchedBitmaps := do
  let moved ← moveQueues (rq.currOffset - rq.nowQuantized) rq.nowQuantized rq
  some { moved with nowQuantized := rq.currOffset }

def firstBitLvl1 (lvl1 : BitVec 32) (rotation : Nat) : Option Nat :=
  if rotation < 32 then
    let ret := (rotr lvl1 rotation).ctz.toNat
    if ret < 32 - rotation then some (ret + rotation) else some (ret - (32 - rotation))
  else none

def slModSchedule (rq : SchedBitmaps) : Option (Option Nat × SchedBitmaps) := do
  let rq ← rq.updateOffsets
  if rq.lvl1 = 0 then some (rq.lowPrioRq.head?, rq)
  else
    let rotation := rq.nowQuantized % deadlineWindowSz
    let firstLvl1 ← firstBitLvl1 rq.lvl1 (rotation / 32)
    let firstLvl2 := (rq.lvl2 firstLvl1).ctz.toNat
    let pos := firstLvl1 * 32 + firstLvl2
    if pos < 1024 then
      match rq.runqs pos with
      | thd :: _ => if rq.prioIdx thd = pos then some (some thd, rq) else none
      | [] => some (none, rq.checkList pos)
    else none

def slModBlock (rq : SchedBitmaps) (t : Nat) : Option SchedBitmaps := do
  let pos := rq.prioIdx t
  let rq ← rq.updateOffsets
  let rq := rq.rem t
  let rq :=
    if pos ≠ -1 then
      let rq := rq.checkList pos.toNat
      { rq with prioIdx := Function.update rq.prioIdx t (-1) }
    else rq
  let rq := { rq with state := Function.update rq.state t .blocked }
  let rq ← rq.updateOffsets
  if rq.prioIdx t = -1 then some rq else none

/-- `sl_mod_wakeup` of a thread whose state has been set and whose wakeup count is given. -/
def slModWakeup (rq : SchedBitmaps) (t : Nat) (wakeupCnt : Int) : Option SchedBitmaps := do
  let dlQuantized := rq.deadline t / deadlineQuantumLen
  let pos := rq.prioIdx t
  let rq ← rq.updateOffsets
  if rq.deadline t = 0 ∨ ¬wakeupCnt > 0 then none
  else
    let rq := rq.rem t
    let dlQuantized := if dlQuantized < rq.nowQuantized then rq.nowQuantized else dlQuantized
    if dlQuantized < rq.nowQuantized + deadlineWindowSz then
      let rq := if pos ≥ 0 then rq.checkList pos.toNat else rq
      let dlQuantized := dlQuantized % deadlineWindowSz
      if rq.prioIdx t = -1 then
        let rq := { rq with prioIdx := Function.update rq.prioIdx t dlQuantized }
        some ((rq.append dlQuantized t).setBits dlQuantized)
      else none
    else none

def slModYield (rq : SchedBitmaps) (t : Nat) : Option SchedBitmaps := do
  let rq ← rq.updateOffsets
  let pos := rq.prioIdx t
  let rq := rq.rem t
  if rq.deadline t < rq.tsc ∨ pos = -1 then
    if pos = -1 then none
    else
      let rq := { rq with prioIdx := Function.update rq.prioIdx t (-1) }
      let rq := rq.checkList pos.toNat
      some { rq with lowPrioRq := rq.lowPrioRq ++ [t] }
  else if 0 ≤ pos ∧ pos < deadlineWindowSz then
    let rq := rq.append pos.toNat t
    some { rq with lvl2 := bitmapSet rq.lvl2 pos.toNat }
  else none

/-- `sl_mod_thd_param_set`, for `SCHEDP_DEADLINE`. -/
def slModThdParamSet (rq : SchedBitmaps) (t v : Nat) : Option SchedBitmaps := do
  let rq ← rq.updateOffsets
  if v ≤ rq.tsc + 500 * 1000 * 2100 then
    some { rq with
      state := Function.update rq.state t .blocked
      deadline := Function.update rq.deadline t v
      prioIdx := Function.update rq.prioIdx t (-1) }
  else none

/-- `sl_mod_init`, with threads that have just been created. -/
def initial (tsc : Nat) (state : Nat → SlThdState) : SchedBitmaps where
  nowQuantized := tsc / deadlineQuantumLen
  lvl1 := 0
  lvl2 _ := 0
  runqs _ := []
  lowPrioRq := []
  deadline _ := 0
  prioIdx _ := -1
  state := state
  tsc := tsc

end SchedBitmaps

inductive Event where
  | wakeup (t : Nat) (wakeupCnt : Int)
  | setDeadline (t v : Nat)
  | block (t : Nat)
  | yield (t : Nat)
  | schedule
  | advance (cycles : Nat)
  deriving DecidableEq, Repr

/-- A step.  The caller of `sl_mod_wakeup` has set the state of the thread. -/
def next (rq : SchedBitmaps) : Event → Option SchedBitmaps
  | .wakeup t wakeupCnt =>
    SchedBitmaps.slModWakeup { rq with state := Function.update rq.state t .runnable } t wakeupCnt
  | .setDeadline t v => rq.slModThdParamSet t v
  | .block t => rq.slModBlock t
  | .yield t => rq.slModYield t
  | .schedule => rq.slModSchedule.map Prod.snd
  | .advance cycles => some { rq with tsc := rq.tsc + cycles }

end Composite.Sl.Window
