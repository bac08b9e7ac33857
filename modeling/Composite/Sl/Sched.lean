import Composite.Eos.Thread
import Composite.Heap.Model
import Composite.Lib.Checked

/-!
# Blocking and waking threads

The routines of the user-level scheduler that put a thread to sleep and wake it, on one core and
inside the critical section.  The policy keeps the run queue; here it is any that can block, wake
and delete a thread and take a new deadline.  The results of the routines only say whether to
schedule next, and are left out.
-/

namespace Composite.Sl

open Eos (SlThdState cosFaa schedParamValue)

/-- `struct sl_thd`.  A thread with a child scheduler is left to it. -/
structure Thd where
  state : SlThdState
  rcvSuspended : Bool
  schedthd : Bool
  period : Nat
  periodicCycs : Nat
  timeoutCycs : Nat
  wakeupCycs : Nat
  wakeupCnt : Int
  deriving DecidableEq, Repr

inductive Failure where
  /-- Of the routines here, and not on the wakeup count. -/
  | thread
  /-- On the wakeup count. -/
  | count
  /-- Of the policy or its heap. -/
  | policy
  /-- Of the heap of timeouts. -/
  | heap
  deriving DecidableEq, Repr

/-- The policy: `sl_mod_block`, `sl_mod_wakeup`, `sl_mod_thd_delete` and `sl_mod_thd_param_set` with
`SCHEDP_DEADLINE`. -/
structure Policy where
  Rq : Type
  block : Rq → Nat → Option Rq
  wakeup : Rq → Nat → Option Rq
  delete : Rq → Nat → Option Rq
  deadline : Rq → Nat → Nat → Option Rq

/-- The threads of a core, the heap of timeouts with `timeout_idx`, the data of the policy, and the
notifications to child schedulers. -/
structure Cpu (P : Policy) where
  thd : Nat → Thd
  timeouts : Heap Nat
  rq : P.Rq
  notified : List (Nat × Bool)

def slMaxNumThds : Nat := 16 + 10 + 200 * (16 - 6)

variable {P : Policy}

def Cpu.set (c : Cpu P) (t : Nat) (thd : Thd) : Cpu P :=
  { c with thd := Function.update c.thd t thd }

def check (holds : Prop) [Decidable holds] (failure : Failure) : Except Failure Unit :=
  if holds then .ok () else .error failure

def orFail {Result : Type} (failure : Failure) : Option Result → Except Failure Result
  | some result => .ok result
  | none => .error failure

def Cpu.withRq (c : Cpu P) (rq : P.Rq) : Cpu P := { c with rq }

def Cpu.policy (c : Cpu P) (operation : P.Rq → Option P.Rq) : Except Failure (Cpu P) := do
  let rq ← orFail .policy (operation c.rq)
  .ok (c.withRq rq)

def slTimeoutCompareMin (thd : Nat → Thd) (a b : Nat) : Bool :=
  (thd a).timeoutCycs ≤ (thd b).timeoutCycs

def slThdIsRunnable (state : SlThdState) : Bool := state = .runnable ∨ state = .woken

/-- The thread with the timeout that `sl_timeout_block` sets: zero is the next period. -/
def withTimeout (thd : Thd) (timeout : Nat) : Except Failure Thd :=
  if timeout = 0 then do
    let tmp := thd.periodicCycs
    check (thd.period ≠ 0) .thread
    let periodicCycs := (thd.periodicCycs + thd.period) % 2 ^ 64
    check (tmp < periodicCycs) .thread
    .ok { thd with periodicCycs, timeoutCycs := periodicCycs, wakeupCycs := 0 }
  else .ok { thd with timeoutCycs := timeout, wakeupCycs := 0 }

def slTimeoutBlock (c : Cpu P) (t timeout : Nat) : Except Failure (Cpu P) := do
  check (c.timeouts.idx t = -1) .thread
  check (heapSize c.timeouts < slMaxNumThds) .thread
  let thd ← withTimeout (c.thd t) timeout
  let c := c.set t thd
  let (_, timeouts) ← orFail .heap (heapAdd (slTimeoutCompareMin c.thd) c.timeouts t)
  .ok { c with timeouts }

def slTimeoutRemove (c : Cpu P) (t : Nat) : Except Failure (Cpu P) := do
  check (c.timeouts.idx t > 0) .thread
  check (heapSize c.timeouts ≠ 0) .thread
  let (_, timeouts) ←
    orFail .heap (heapRemove (slTimeoutCompareMin c.thd) c.timeouts (c.timeouts.idx t))
  .ok { c with timeouts := timeouts.u t (-1) }

def slThdWakeupNoCsRm (c : Cpu P) (t : Nat) : Except Failure (Cpu P) := do
  let c := c.set t { c.thd t with state := .runnable }
  let c ← c.policy (P.wakeup · t)
  let ret := (c.thd t).wakeupCnt
  check (ret ≥ 0) .count
  .ok (c.set t { c.thd t with wakeupCnt := cosFaa ret 1, rcvSuspended := false })

def leaveTimeout (c : Cpu P) (t : Nat) : Except Failure (Cpu P) :=
  if (c.thd t).state = .blockedTimeout then slTimeoutRemove c t else .ok c

def sleep (c : Cpu P) (t : Nat) (blockType : SlThdState) (timeout : Nat) :
    Except Failure (Cpu P) :=
  let c := c.set t { c.thd t with state := blockType }
  if blockType = .blockedTimeout then slTimeoutBlock c t timeout else .ok c

/-- `sl_thd_sched_block_no_cs` up to `update`: the thread leaves the run queue or the heap of
timeouts. -/
def leaveQueues (c : Cpu P) (t : Nat) : Except Failure (Cpu P) :=
  if (c.thd t).state = .blockedTimeout then slTimeoutRemove c t
  else if (c.thd t).state = .blocked then .ok c
  else do
    check (slThdIsRunnable (c.thd t).state) .thread
    c.policy (P.block · t)

/-- `sl_thd_sched_block_no_cs`, where `sl_mod_block` leaves a state that is overwritten. -/
def slThdSchedBlockNoCs (c : Cpu P) (t : Nat) (blockType : SlThdState) (timeout : Nat) :
    Except Failure (Cpu P) := do
  check (blockType = .blockedTimeout ∨ blockType = .blocked) .thread
  if (c.thd t).schedthd then .ok { c with notified := (t, false) :: c.notified }
  else
    let c ← leaveQueues c t
    let c ← sleep c t blockType timeout
    .ok (c.set t { c.thd t with rcvSuspended := true })

def slThdSchedUnblockNoCs (c : Cpu P) (t : Nat) : Except Failure (Cpu P) :=
  if ¬(c.thd t).rcvSuspended then .ok c
  else
    let c := c.set t { c.thd t with rcvSuspended := false }
    if (c.thd t).state ≠ .blocked ∧ (c.thd t).state ≠ .blockedTimeout then .ok c
    else do
      let c ← leaveTimeout c t
      slThdWakeupNoCsRm c t

/-- `sl_thd_block_no_cs`, called by the thread itself. -/
def slThdBlockNoCs (c : Cpu P) (t : Nat) (blockType : SlThdState) (timeout : Nat) :
    Except Failure (Cpu P) := do
  check (blockType = .blockedTimeout ∨ blockType = .blocked) .thread
  if (c.thd t).state = .woken then
    check (¬(c.thd t).rcvSuspended) .thread
    .ok (c.set t { c.thd t with state := .runnable })
  else
    let c ← slThdSchedUnblockNoCs c t
    check ((c.thd t).state = .runnable) .thread
    let c ← c.policy (P.block · t)
    sleep c t blockType timeout

def slThdBlock (c : Cpu P) (t : Nat) : Except Failure (Cpu P) := do
  let cnt := (c.thd t).wakeupCnt
  let c := c.set t { c.thd t with wakeupCnt := cosFaa cnt (-1) }
  check (cnt ≥ 1) .count
  if cnt = 1 then slThdBlockNoCs c t .blocked 0 else .ok c

/-- `sl_thd_block_timeout`, until the thread sleeps. -/
def slThdBlockTimeout (c : Cpu P) (t absTimeout : Nat) : Except Failure (Cpu P) :=
  if absTimeout = 0 then slThdBlock c t else slThdBlockNoCs c t .blockedTimeout absTimeout

/-- `sl_thd_block_periodic`, until the thread sleeps. -/
def slThdBlockPeriodic (c : Cpu P) (t : Nat) : Except Failure (Cpu P) := do
  check ((c.thd t).period ≠ 0) .thread
  slThdBlockNoCs c t .blockedTimeout 0

def slThdSchedWakeupNoCs (c : Cpu P) (t : Nat) : Except Failure (Cpu P) :=
  if ¬(c.thd t).rcvSuspended then .ok c
  else
    let c := c.set t { c.thd t with rcvSuspended := false }
    if slThdIsRunnable (c.thd t).state then .ok c
    else do
      check ((c.thd t).state = .blocked ∨ (c.thd t).state = .blockedTimeout) .thread
      let c ← leaveTimeout c t
      let c := c.set t { c.thd t with state := .runnable }
      c.policy (P.wakeup · t)

/-- `sl_thd_wakeup_no_cs`, called by the thread `curr`. -/
def slThdWakeupNoCs (c : Cpu P) (curr t : Nat) : Except Failure (Cpu P) := do
  check (curr ≠ t) .thread
  if (c.thd t).schedthd then .ok { c with notified := (t, true) :: c.notified }
  else if slThdIsRunnable (c.thd t).state then .ok (c.set t { c.thd t with state := .woken })
  else
    check ((c.thd t).state = .blocked ∨ (c.thd t).state = .blockedTimeout) .thread
    let c ← leaveTimeout c t
    slThdWakeupNoCsRm c t

/-- One turn of the loop of `sl_timeout_wakeup_expired`, for the first thread of the heap. -/
def expireFirst (c : Cpu P) (now tp : Nat) : Except Failure (Cpu P) := do
  let (th, timeouts) ← orFail .heap (heapHighest (slTimeoutCompareMin c.thd) c.timeouts)
  check (th = some tp) .thread
  let c := { c with timeouts := timeouts.u tp (-1) }
  check ((c.thd tp).wakeupCycs = 0) .thread
  let c := c.set tp { c.thd tp with wakeupCycs := now }
  slThdWakeupNoCsRm c tp

/-- The loop of `sl_timeout_wakeup_expired`. -/
def expireLoop (now : Nat) : Nat → Cpu P → Except Failure (Cpu P)
  | 0, c => .ok c
  | turns + 1, c =>
    match heapPeek c.timeouts with
    | none => .error .thread
    | some tp =>
      if (c.thd tp).timeoutCycs > now then .ok c
      else do
        let c ← expireFirst c now tp
        if heapSize c.timeouts ≠ 0 then expireLoop now turns c else .ok c

def slTimeoutWakeupExpired (c : Cpu P) (now : Nat) : Except Failure (Cpu P) :=
  if heapSize c.timeouts = 0 then .ok c else expireLoop now (heapSize c.timeouts) c

def slThdFreeNoCs (c : Cpu P) (t : Nat) : Except Failure (Cpu P) := do
  check ((c.thd t).state ≠ .free) .thread
  let c ← leaveTimeout c t
  let c ← c.policy (P.delete · t)
  .ok (c.set t { c.thd t with state := .free })

/-- `sl_xcpu_process_no_cs`, for one `SL_XCPU_THD_WAKEUP_WITH_DL`. -/
def slXcpuWakeupWithDl (c : Cpu P) (t sp : Nat) : Except Failure (Cpu P) := do
  let c ← c.policy (P.deadline · t (schedParamValue sp))
  slThdWakeupNoCsRm c t

/-- An event of the kernel, as `sl_sched_loop` treats it: a block counts only if the thread has
run, and `timeout` is there if the thread waits with one. -/
def slSchedEvent (c : Cpu P) (t : Nat) (blocked : Bool) (cycles : Nat) (timeout : Option Nat) :
    Except Failure (Cpu P) :=
  if (c.thd t).state = .free then .ok c
  else if blocked then
    if cycles ≠ 0 then
      match timeout with
      | some absTimeout => slThdSchedBlockNoCs c t .blockedTimeout absTimeout
      | none => slThdSchedBlockNoCs c t .blocked 0
    else .ok c
  else slThdSchedWakeupNoCs c t

inductive Event where
  | block (t : Nat)
  | blockTimeout (t absTimeout : Nat)
  | blockPeriodic (t : Nat)
  | wakeup (curr t : Nat)
  /-- `SL_XCPU_THD_WAKEUP`. -/
  | xcpuWakeup (t : Nat)
  /-- `SL_XCPU_THD_WAKEUP_WITH_DL`. -/
  | xcpuWakeupWithDl (t sp : Nat)
  | expire (now : Nat)
  | kernel (t : Nat) (blocked : Bool) (cycles : Nat) (timeout : Option Nat)
  | free (t : Nat)
  deriving DecidableEq, Repr

def step (c : Cpu P) : Event → Except Failure (Cpu P)
  | .block t => slThdBlock c t
  | .blockTimeout t absTimeout => slThdBlockTimeout c t absTimeout
  | .blockPeriodic t => slThdBlockPeriodic c t
  | .wakeup curr t => slThdWakeupNoCs c curr t
  | .xcpuWakeup t => slThdWakeupNoCsRm c t
  | .xcpuWakeupWithDl t sp => slXcpuWakeupWithDl c t sp
  | .expire now => slTimeoutWakeupExpired c now
  | .kernel t blocked cycles timeout => slSchedEvent c t blocked cycles timeout
  | .free t => slThdFreeNoCs c t

def next (c : Cpu P) (event : Event) : Option (Cpu P) := (step c event).toOption

/-- No thread waits with a timeout: `sl_timeout_init`, and `timeout_idx` of every thread. -/
structure Cpu.Initial (c : Cpu P) : Prop where
  empty : c.timeouts.e = 1
  capacity : c.timeouts.maxSz = slMaxNumThds + 1
  unplaced : ∀ t, c.timeouts.idx t = -1
  untimed : ∀ t, (c.thd t).state ≠ .blockedTimeout

end Composite.Sl
