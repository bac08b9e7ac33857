import Composite.Eos.Thread
import Composite.Lib.Words

/-!
# Earliest deadline first with a map of intervals

The threads whose deadline is near wait in the list of its interval, and a map of three words says
which lists have threads.  The others wait in the list `to_sched` until the map is empty.  The
interval of a deadline is counted from the time of the wakeup, and again from a stored base when the
thread blocks.  A failed assertion is `none`, and so is what C leaves undefined.
-/

namespace Composite.Sl.Bitmap

open Eos (SlThdState)
open Words

abbrev slWindowSz : Nat := 95

/-- A division by `INTERVAL_SZ`, which is `2700 * 20` without brackets. -/
def interval (deadline origin : BitVec 64) : BitVec 64 := (deadline - origin) / 2700#64 * 20#64

/-- The lists of a core, its `struct base_info`, its threads and the clock. -/
structure Rq where
  bitmap : Nat → BitVec 32
  threads : Nat → List Nat
  toSchedList : List Nat
  base : BitVec 64
  enqueued : Int
  toSched : Int
  deadline : Nat → BitVec 64
  state : Nat → SlThdState
  tsc : BitVec 64

/-- `__find_first_bit`.  The result of `__builtin_ctzl` is undefined at zero. -/
def findFirstBit (bitmap : Nat → BitVec 32) : Option Nat :=
  if bitmap 0 ≠ 0 then some (bitmap 0).ctz.toNat
  else if bitmap 1 ≠ 0 then
    if bitmap 1 + 32#32 ≠ 0 then some (bitmap 1 + 32#32).ctz.toNat else none
  else if bitmap 2 + 32#32 ≠ 0 then some (bitmap 2 + 32#32).ctz.toNat else none

def changeBit (change : BitVec 32 → Nat → BitVec 32) (bitmap : Nat → BitVec 32) (pos : Nat) :
    Option (Nat → BitVec 32) :=
  if pos ≤ slWindowSz then
    if pos < 32 then some (Function.update bitmap 0 (change (bitmap 0) pos))
    else if pos < 64 then some (Function.update bitmap 1 (change (bitmap 1) (pos - 32)))
    else some (Function.update bitmap 2 (change (bitmap 2) (pos - 64)))
  else none

/-- `__set_bit`. -/
def setBitAt : (Nat → BitVec 32) → Nat → Option (Nat → BitVec 32) := changeBit setBit

/-- `__clear_bit`. -/
def clearBitAt : (Nat → BitVec 32) → Nat → Option (Nat → BitVec 32) := changeBit clearBit

namespace Rq

/-- `ps_list_rem_d`: the thread is in one list at most. -/
def rem (rq : Rq) (t : Nat) : Rq :=
  { rq with
    threads := fun pos => (rq.threads pos).filter (· ≠ t)
    toSchedList := rq.toSchedList.filter (· ≠ t) }

def enqueue (rq : Rq) (pos t : Nat) : Option Rq := do
  let bitmap ← setBitAt rq.bitmap pos
  some { rq with
    bitmap
    threads := Function.update rq.threads pos (t :: rq.threads pos)
    enqueued := rq.enqueued + 1 }

/-- The body of the loop of `sl_mod_load`, and whether it has moved the thread. -/
def loadTurn (rq : Rq) (t : Nat) : Option (Bool × Rq) :=
  if rq.deadline t > rq.base then
    let pos := interval (rq.deadline t) rq.base
    if pos < 95#64 then
      let rq := rq.rem t
      (enqueue { rq with toSched := rq.toSched - 1 } pos.toNat t).map fun rq => (true, rq)
    else some (false, rq)
  else none

/-- The loop of `sl_mod_load`.  `ps_list_foreach_d` goes on from the links of the thread it is at,
so that it does not come back to the list once that thread has been moved to another. -/
def loadWalk : List Nat → Rq → Option (Nat × Rq)
  | [], rq => some (0, rq)
  | t :: rest, rq => (rq.loadTurn t).bind fun turn => if turn.1 then none else loadWalk rest turn.2

/-- `sl_mod_load`: how many threads have been loaded. -/
def slModLoad (rq : Rq) : Option (Nat × Rq) :=
  if rq.enqueued ≠ 0 then none
  else if rq.toSched = 0 then some (0, rq)
  else loadWalk rq.toSchedList { rq with base := rq.tsc }

/-- The first thread of the list that `__find_first_bit` finds. -/
def firstThread (rq : Rq) : Option (Option Nat × Rq) := do
  let first ← findFirstBit rq.bitmap
  some ((rq.threads first).head?, rq)

def slModSchedule (rq : Rq) : Option (Option Nat × Rq) :=
  if rq.bitmap 0 ||| rq.bitmap 1 ||| rq.bitmap 2 = 0 then
    if rq.toSched = 0 then some (none, rq)
    else rq.slModLoad.bind fun loaded =>
      if loaded.1 = 0 then some (none, loaded.2) else loaded.2.firstThread
  else rq.firstThread

def leave (rq : Rq) (pos : Nat) : Option Rq :=
  if rq.threads pos = [] then do
    let bitmap ← clearBitAt rq.bitmap pos
    some { rq with bitmap, enqueued := rq.enqueued - 1 }
  else some rq

def slModBlock (rq : Rq) (t : Nat) : Option Rq :=
  let pos := interval (rq.deadline t) rq.base
  if pos < 95#64 then do
    let rq ← (rq.rem t).leave pos.toNat
    some { rq with state := Function.update rq.state t .blocked }
  else none

def startBase (rq : Rq) (t : Nat) : Option Rq :=
  if rq.base = 0 then
    if rq.enqueued = 0 ∧ rq.toSched = 0 then some { rq with base := rq.deadline t } else none
  else some rq

def slModWakeup (rq : Rq) (t : Nat) : Option Rq := do
  let rq ← (rq.rem t).startBase t
  let pos := interval (rq.deadline t) rq.tsc
  if pos < 95#64 then rq.enqueue pos.toNat t
  else some { rq with toSchedList := t :: rq.toSchedList, toSched := rq.toSched + 1 }

/-- `sl_mod_thd_param_set`, for `SCHEDP_DEADLINE`. -/
def setDeadline (rq : Rq) (t : Nat) (v : BitVec 64) : Rq :=
  { rq with deadline := Function.update rq.deadline t v }

/-- `sl_mod_init`, with threads that have just been created. -/
def initial (tsc : BitVec 64) (state : Nat → SlThdState) : Rq where
  bitmap _ := 0
  threads _ := []
  toSchedList := []
  base := 0
  enqueued := 0
  toSched := 0
  deadline _ := BitVec.allOnes 64
  state := state
  tsc := tsc

end Rq

inductive Event where
  | wakeup (t : Nat)
  | block (t : Nat)
  | setDeadline (t : Nat) (v : BitVec 64)
  | setPrio (t : Nat)
  | setPrioBlock (t : Nat)
  | schedule
  | advance (cycles : BitVec 64)
  deriving DecidableEq, Repr

/-- A step.  `SCHEDP_PRIO` wakes the thread with the last deadline there is, `SCHEDP_PRIO_BLOCK`
leaves it blocked with that deadline. -/
def next (rq : Rq) : Event → Option Rq
  | .wakeup t => Rq.slModWakeup { rq with state := Function.update rq.state t .runnable } t
  | .block t => rq.slModBlock t
  | .setDeadline t v => some (rq.setDeadline t v)
  | .setPrio t => (rq.setDeadline t (BitVec.allOnes 64)).slModWakeup t
  | .setPrioBlock t =>
    some { rq.setDeadline t (BitVec.allOnes 64) with state := Function.update rq.state t .blocked }
  | .schedule => rq.slModSchedule.map Prod.snd
  | .advance cycles => some { rq with tsc := rq.tsc + cycles }

end Composite.Sl.Bitmap
