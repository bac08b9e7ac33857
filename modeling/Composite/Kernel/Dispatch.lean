import Composite.Kernel.Tcap.Operations

/-!
# Scheduling on a core

The fast paths of `composite_syscall_handler`, the operations on tcaps of the slow
path, and the interrupts: dispatch of a thread, asynchronous sends, receives, hardware
notifications and the timer.  A system call finds its capabilities in tables that are
given with it.  Null pointers are followed as faults.
-/

namespace Composite

def arcvNotifDepth : Nat := 8

structure Core extends CpuState where
  tcaps : Tcaps
  ltbl : Ltbl
  tsc : Nat

abbrev CapLookup := Nat → Nat → Option CapBody

/-- The id under which `captbl_lkup` looks. -/
def lkupId (cap : Nat) : Nat := cap % captblMaxid

def CapLookup.lkup (caps : CapLookup) (captbl cap : Nat) : Option CapBody :=
  caps captbl (lkupId cap)

namespace PtRegs

def getop (regs : PtRegs) : Nat := regs.ax % 2 ^ 16

def get1 (regs : PtRegs) : Nat := regs.bx

def get2 (regs : PtRegs) : Nat := regs.si

def get3 (regs : PtRegs) : Nat := regs.di

def get4 (regs : PtRegs) : Nat := regs.dx

end PtRegs

/-- The arguments of `cap_thd_op`. -/
structure ThdOpArgs where
  arcv : Nat
  tc : Nat
  prio : Nat
  usrCounter : Nat
  timeout : Nat
deriving DecidableEq, Repr

def thdOpArgs (regs : PtRegs) : ThdOpArgs where
  arcv := sext16 regs.get1
  tc := sar16 regs.get1
  prio := regs.get3 / 2 ^ 16 * 2 ^ 32 + regs.get2
  usrCounter := regs.get3 % 2 ^ 16 + regs.getop * 2 ^ 16
  timeout := regs.get4

/-- The arguments of `cap_asnd_op`. -/
structure AsndOpArgs where
  srcv : Nat
  usrTok : Nat
  timeout : Nat
  yield : Nat
deriving DecidableEq, Repr

def asndOpArgs (regs : PtRegs) : AsndOpArgs where
  srcv := regs.get1
  usrTok := regs.get2
  timeout := regs.get3
  yield := regs.get4

def deref (pointer : Option Nat) : Except Fault Nat :=
  match pointer with
  | none => .error .dereference
  | some object => .ok object

/-! Threads and their event lists. -/

namespace Threads

/-- `thd_rcvcap_evt_enqueue`. -/
def evtEnqueue (threads : Threads) (head t : Nat) : Threads :=
  if (threads t).eventList = none ∧ head ≠ t then
    (threads.modify head fun h => { h with eventHead := h.eventHead ++ [t] }).modify t
      fun e => { e with eventList := some head }
  else threads

/-- `arcv_thd_notif`. -/
def arcvNotif (threads : Threads) (t : Nat) : Option Nat := (threads t).rcvcap.rcvcapThdNotif

/-- The loop of `notify_parent`, with the iterations that the assertion still allows. -/
def notifyLoop : Nat → Threads → Nat → Option Nat → Except Fault Threads
  | _, threads, _, none => .ok threads
  | 0, threads, prev, some curr => if curr = prev then .ok threads else .error .assertion
  | left + 1, threads, prev, some curr =>
    if curr = prev then .ok threads
    else
      let threads := threads.evtEnqueue curr prev
      if ¬(threads curr).state.rcving then .ok threads
      else notifyLoop left threads curr (threads.arcvNotif curr)

def notifyParent (threads : Threads) (rcvThd : Nat) : Except Fault Threads :=
  notifyLoop arcvNotifDepth threads rcvThd (threads.arcvNotif rcvThd)

/-- `thd_rcvcap_pending_inc`, on a 32-bit counter. -/
def pendingInc (threads : Threads) (t : Nat) : Threads :=
  threads.modify t fun th =>
    { th with rcvcap := { th.rcvcap with pending := (th.rcvcap.pending + 1) % 2 ^ 32 } }

/-- `thd_rcvcap_sched`. -/
def rcvcapSched (threads : Threads) (t : Nat) : Option Nat :=
  if (threads t).rcvcap.refcnt > 0 then some t else (threads t).rcvcap.rcvcapThdNotif

/-- `thd_scheduler_set`. -/
def schedulerSet (threads : Threads) (t sched : Nat) : Threads :=
  threads.modify t fun th => { th with schedulerThread := some sched }

/-- `thd_rcvcap_all_pending_set`. -/
def allPendingSet (threads : Threads) (t : Nat) (all : Bool) : Threads :=
  threads.modify t fun th => { th with rcvcap := { th.rcvcap with isAllPending := all } }

/-- The result of `thd_rcvcap_pending` as a signed number is positive. -/
def hasPending (threads : Threads) (t : Nat) : Prop :=
  0 < thdRcvcapPending threads t ∧ thdRcvcapPending threads t < 2 ^ 31

instance (threads : Threads) (t : Nat) : Decidable (threads.hasPending t) :=
  inferInstanceAs (Decidable (_ ∧ _))

end Threads

/-! Tcaps. -/

/-- The loop of `tcap_higher_prio`. -/
def higherPrioLoop (a c : Tcap) : Nat → Nat → Nat → Bool
  | 0, _, _ => true
  | entries + 1, i, j =>
    if i < a.ndelegs ∧ j < c.ndelegs then
      if (a.delegations i).tcapUid > (c.delegations j).tcapUid then
        higherPrioLoop a c entries i (j + 1)
      else if (a.delegations i).tcapUid < (c.delegations j).tcapUid then
        higherPrioLoop a c entries (i + 1) j
      else if (a.delegations i).prio > (c.delegations j).prio then false
      else higherPrioLoop a c entries (i + 1) (j + 1)
    else true

def tcapHigherPrio (tcaps : Tcaps) (a c : Nat) : Bool :=
  if (tcaps a).budget = 0 then false
  else if a = c then true
  else higherPrioLoop (tcaps a) (tcaps c) ((tcaps a).ndelegs + (tcaps c).ndelegs) 0 0

def tcapTime2cyc (time curr : Nat) : Nat := (time * 2 ^ 12) % 2 ^ 64 ||| curr / 2 ^ 44 * 2 ^ 44

def tcapCyc2time (cycles : Nat) : Nat :=
  if cycles / 2 ^ 12 % 2 ^ 32 = 0 then 1 else cycles / 2 ^ 12 % 2 ^ 32

def tcapTimerDiff : Nat := 2 ^ 9

/-- The time at which `tcap_timer_update` wants the next interrupt. -/
def tcapTimer (left timeout now : Nat) : Nat :=
  let timer := (now + left) % 2 ^ 64
  let timer :=
    if timeout ≠ 0 ∧ tcapTime2cyc timeout now < timer then
      if timeout < tcapCyc2time now then now else tcapTime2cyc timeout now
    else timer
  if cyclesSame now timer tcapTimerDiff then (now + tcapTimerDiff) % 2 ^ 64 else timer

def tcapTimerUpdate (cosInfo : CosCpuLocalInfo) (left timeout now : Nat) :
    Except Fault CosCpuLocalInfo :=
  let timer := tcapTimer left timeout now
  if timeout = 0 ∧ left = tcapResInf then .ok { cosInfo with nextTimer := 0 }
  else if cyclesSame cosInfo.nextTimer timer tcapTimerDiff ∧ cosInfo.nextTimer ≠ 0 then .ok cosInfo
  else if timer = 0 then .error .assertion
  else .ok { cosInfo with nextTimer := timer }

namespace Core

def tcapCore (s : Core) : TcapCore := ⟨s.tcaps, s.cosInfo⟩

def withTcaps (s : Core) (core : TcapCore) : Core :=
  { s with tcaps := core.tcaps, cosInfo := core.cosInfo }

def withThreads (s : Core) (threads : Threads) : Core := { s with threads := threads }

def withCpu (s : Core) (cpu : CpuState) : Core := { s with toCpuState := cpu }

def expended (s : Core) : Nat := (s.tsc + (2 ^ 64 - s.cosInfo.cycles % 2 ^ 64)) % 2 ^ 64

/-- What `tcap_budgets_update` does to the tcaps. -/
def charged (thresh : Nat) (s : Core) : TcapCore :=
  tcapConsume thresh ⟨s.tcaps, { s.cosInfo with cycles := s.tsc }⟩ s.cosInfo.currTcap
    (s.expended % 2 ^ 32)

/-- `tcap_budgets_update`, without its result. -/
def budgetsUpdate (thresh : Nat) (s : Core) (t : Nat) : Core :=
  (s.withTcaps (s.charged thresh)).withThreads
    (s.threads.modify t fun th => { th with exec := (th.exec + s.expended) % 2 ^ 32 })

def tcapCurrentSet (s : Core) (t : Nat) : Core :=
  let curr := s.cosInfo.currTcap
  let core :=
    if (s.tcaps curr).permPrio ≠ (s.tcaps curr).schedInfo.prio then
      s.tcapCore.modify curr fun tc => tc.setprio tc.permPrio
    else s.tcapCore
  s.withTcaps { core with cosInfo := { core.cosInfo with currTcap := t } }

/-- What `cap_update` decides: the thread and the tcap to go on with, the timeout, and
whether it switches away to the scheduler of another tcap. -/
structure Choice where
  thd : Nat
  tc : Nat
  timeout : Nat
  switchAway : Bool

def expendedTcap (s : Core) (thdNext tcNext : Nat) (timer : Bool) : Except Fault Nat :=
  if timer then deref (s.threads thdNext).rcvcap.rcvcapTcap else .ok tcNext

def chooseExpended (s : Core) (thdNext tcNext : Nat) (timer : Bool) : Except Fault Choice := do
  let tcNext ← s.expendedTcap thdNext tcNext timer
  if (s.tcaps tcNext).budget = 0 then
    match s.cosInfo.tcaps.head? with
    | none => .error .assertion
    | some tc =>
      if (s.tcaps tc).budget = 0 then .error .assertion
      else do
        let ep ← deref (s.tcaps tc).arcvEp
        let thd ← deref (s.threads.rcvcapSched ep)
        .ok ⟨thd, tc, 0, true⟩
  else .ok ⟨thdNext, tcNext, 0, false⟩

def timeoutThread (s : Core) (thdCurr : Nat) : Except Fault Nat :=
  if (s.threads thdCurr).rcvcap.isbound ∧ (s.threads thdCurr).rcvcap.refcnt > 0 then do
    let ep ← deref (s.tcaps s.cosInfo.currTcap).arcvEp
    deref (s.threads.rcvcapSched ep)
  else deref (s.threads thdCurr).schedulerThread

/-- The first part of `cap_update`, after the budgets were updated. -/
def choose (s : Core) (thdCurr thdNext tcNext timeout : Nat) (timer : Bool) :
    Except Fault Choice :=
  if (s.tcaps s.cosInfo.currTcap).budget = 0 then
    if s.tcapCore.isActive s.cosInfo.currTcap then .error .assertion
    else s.chooseExpended thdNext tcNext timer
  else if timer then do
    let thd ← s.timeoutThread thdCurr
    .ok ⟨thd, tcNext, timeout, false⟩
  else .ok ⟨thdNext, tcNext, timeout, false⟩

/-- `cap_thd_switch`. -/
def thdSwitch (s : Core) (curr next : Nat) (ci : CompInfo) (regs : PtRegs) : Except Fault Core := do
  let cpu ← capThdSwitch s.ltbl s.toCpuState curr next ci regs
  .ok (s.withCpu cpu)

/-- `curr->state |= THD_STATE_PREEMPTED`. -/
def markPreempted (s : Core) (t : Nat) : Core :=
  s.withThreads
    (s.threads.modify t fun th => { th with state := { th.state with preempted := true } })

def notifyAway (s : Core) (choice : Choice) : Except Fault Threads :=
  if choice.switchAway then s.threads.notifyParent choice.thd else .ok s.threads

/-- The second part of `cap_update`, up to the thread switch. -/
def settle (s : Core) (choice : Choice) : Except Fault Core := do
  let threads ← s.notifyAway choice
  let cosInfo ← tcapTimerUpdate s.cosInfo (s.tcaps choice.tc).budget choice.timeout s.tsc
  .ok ({ s with threads := threads, cosInfo := cosInfo }.tcapCurrentSet choice.tc)

/-- `cap_update`; the current tcap is that of the core. -/
def capUpdate (thresh : Nat) (s : Core) (thdCurr thdNext tcNext timeout : Nat) (ci : CompInfo)
    (regs : PtRegs) (timer : Bool) : Except Fault Core := do
  let s := s.budgetsUpdate thresh thdCurr
  let choice ← s.choose thdCurr thdNext tcNext timeout timer
  let s ← s.settle choice
  if timer then
    if choice.thd = thdCurr then .ok { s with regs := regs }
    else (s.markPreempted thdCurr).thdSwitch thdCurr choice.thd ci regs
  else s.thdSwitch thdCurr choice.thd ci regs

def capSwitch (thresh : Nat) (s : Core) (curr next nextTcap timeout : Nat) (ci : CompInfo)
    (regs : PtRegs) : Except Fault Core :=
  s.capUpdate thresh curr next nextTcap timeout ci regs false

def refuse (s : Core) (regs : PtRegs) (ret : Int) : Except Fault Core :=
  .ok { s with regs := regs.set ret regs.getsp regs.getip }

/-- `CAP_TYPECHK_CORE` for a receive end-point. -/
def coreArcv (s : Core) (caps : CapLookup) (captbl cap : Nat) : Option CapArcv :=
  ((caps.lkup captbl cap).bind CapBody.arcv?).filter fun arcv => arcv.cpuid = s.cosInfo.cpuid

/-- `CAP_TYPECHK_CORE` for a tcap. -/
def coreTcap (s : Core) (caps : CapLookup) (captbl cap : Nat) : Option CapTcap :=
  ((caps.lkup captbl cap).bind CapBody.tcap?).filter fun tcap => tcap.cpuid = s.cosInfo.cpuid

/-- `cap_sched_tok_validate`; `none` is `-EAGAIN`. -/
def schedTokValidate (threads : Threads) (rcvt tok : Nat) : Except Fault (Option Threads) :=
  if tok ≥ 2 ^ 32 - 1 then .error .assertion
  else if (threads rcvt).rcvcap.schedCount > tok then .ok none
  else .ok (some (threads.modify rcvt fun t =>
    { t with rcvcap := { t.rcvcap with schedCount := tok } }))

/-- The end of `cap_thd_op`, with the tcap to use. -/
def thdOpSwitch (thresh : Nat) (s : Core) (caps : CapLookup) (thd next tc timeout prio : Nat)
    (ci : CompInfo) (regs : PtRegs) : Except Fault Core :=
  if tc = 0 then s.capSwitch thresh thd next s.cosInfo.currTcap timeout ci regs
  else
    match s.coreTcap caps ci.captbl tc with
    | none => s.refuse regs (-Errno.einval)
    | some tcapCap =>
      if (s.tcaps tcapCap.tcap).arcvEp = none then s.refuse regs (-Errno.einval)
      else if ¬s.tcapCore.isActive tcapCap.tcap then s.refuse regs (-Errno.eperm)
      else do
        let s ← s.capSwitch thresh thd next tcapCap.tcap timeout ci regs
        if s.cosInfo.currTcap = tcapCap.tcap then
          .ok (s.withTcaps (s.tcapCore.modify tcapCap.tcap (·.setprio prio)))
        else .ok s

def capThdOp (thresh : Nat) (s : Core) (caps : CapLookup) (thdCap : CapThd) (thd : Nat)
    (ci : CompInfo) (regs : PtRegs) : Except Fault Core :=
  let args := thdOpArgs regs
  if thdCap.cpuid ≠ s.cosInfo.cpuid ∨ thdCap.cpuid ≠ (s.threads thdCap.t).cpuid then
    s.refuse regs (-Errno.einval)
  else if args.arcv = 0 then
    (s.withThreads (s.threads.schedulerSet thdCap.t thd)).thdOpSwitch thresh caps thd thdCap.t
      args.tc args.timeout args.prio ci regs
  else
    match s.coreArcv caps ci.captbl args.arcv with
    | none => s.refuse regs (-Errno.einval)
    | some arcvCap => do
        let validated ← schedTokValidate s.threads arcvCap.thd args.usrCounter
        match validated with
        | none => s.refuse regs (-Errno.eagain)
        | some threads =>
          if threads.hasPending arcvCap.thd then
            if thd = arcvCap.thd then (s.withThreads threads).refuse regs (-Errno.ebusy)
            else
              (s.withThreads threads).thdOpSwitch thresh caps thd arcvCap.thd 0 0 args.prio ci
                regs
          else
            (s.withThreads (threads.schedulerSet thdCap.t arcvCap.thd)).thdOpSwitch thresh caps
              thd thdCap.t args.tc args.timeout args.prio ci regs

/-- `__cap_asnd_to_arcv`. -/
def asndToArcv (s : Core) (caps : CapLookup) (asnd : CapAsnd) : Option CapArcv :=
  if ¬ltblIsalive s.ltbl asnd.compInfo.liveness then none
  else (caps.lkup asnd.compInfo.captbl asnd.arcvCapid).bind CapBody.arcv?

/-- `asnd_process`: the threads, and the thread and the tcap to go on with. -/
def asndProcess (s : Core) (rcvThd thd rcvTcap tcap : Nat) (yield : Bool) :
    Except Fault (Threads × Nat × Nat) := do
  let threads ← (s.threads.pendingInc rcvThd).notifyParent rcvThd
  if yield ∨ tcapHigherPrio s.tcaps rcvTcap tcap then .ok (threads, rcvThd, rcvTcap)
  else .ok (threads, thd, tcap)

/-- The end of `cap_asnd_op`. -/
def asndSwitch (thresh : Nat) (s : Core) (rcvThd rcvTcap thd : Nat) (yield : Bool) (timeout : Nat)
    (ci : CompInfo) (regs : PtRegs) : Except Fault Core := do
  let (threads, next, tcapNext) ← s.asndProcess rcvThd thd rcvTcap s.cosInfo.currTcap yield
  (s.withThreads threads).capSwitch thresh thd next tcapNext timeout ci regs

/-- `cap_asnd_op` by a scheduler, which receives at `srcv`. -/
def asndScheduled (thresh : Nat) (s : Core) (caps : CapLookup) (rcvThd rcvTcap thd : Nat)
    (args : AsndOpArgs) (ci : CompInfo) (regs : PtRegs) : Except Fault Core :=
  match s.coreArcv caps ci.captbl args.srcv with
  | none => s.refuse regs (-Errno.einval)
  | some srcvCap => do
      let validated ← schedTokValidate s.threads srcvCap.thd args.usrTok
      match validated with
      | none => s.refuse regs (-Errno.eagain)
      | some threads =>
        let s := s.withThreads threads
        if threads.hasPending srcvCap.thd then
          if thd = srcvCap.thd then s.refuse regs (-Errno.ebusy)
          else s.capSwitch thresh thd srcvCap.thd s.cosInfo.currTcap 0 ci regs
        else if (s.tcaps rcvTcap).budget = 0 then s.refuse regs (-Errno.eperm)
        else
          (s.withThreads (threads.schedulerSet rcvThd srcvCap.thd)).asndSwitch thresh rcvThd
            rcvTcap thd true args.timeout ci regs

/-- `cap_asnd_op` on the core of the receiver. -/
def asndLocal (thresh : Nat) (s : Core) (caps : CapLookup) (arcv : CapArcv) (thd : Nat)
    (ci : CompInfo) (regs : PtRegs) : Except Fault Core :=
  match (s.threads arcv.thd).rcvcap.rcvcapTcap with
  | none => .error .assertion
  | some rcvTcap =>
    let args := asndOpArgs regs
    if args.srcv = 0 then
      s.asndSwitch thresh arcv.thd rcvTcap thd (decide (args.yield ≠ 0)) args.timeout ci regs
    else s.asndScheduled thresh caps arcv.thd rcvTcap thd args ci regs

/-- `cap_asnd_op`.  A send to another core leaves this one alone. -/
def capAsndOp (thresh : Nat) (s : Core) (caps : CapLookup) (asnd : CapAsnd) (thd : Nat)
    (ci : CompInfo) (regs : PtRegs) : Except Fault Core :=
  if asnd.arcvCapid = 0 then .error .assertion
  else if asnd.arcvCpuid ≠ s.cosInfo.cpuid then
    if (asndOpArgs regs).srcv ≠ 0 then .error .assertion else .ok { s with regs := regs }
  else
    match s.asndToArcv caps asnd with
    | none => s.refuse regs (-Errno.einval)
    | some arcv => s.asndLocal thresh caps arcv thd ci regs

/-- `cap_hw_asnd` with a receiver on this core. -/
def hwAsndLocal (thresh : Nat) (s : Core) (arcv : CapArcv) (thd : Nat) (ci : CompInfo)
    (regs : PtRegs) : Except Fault Core :=
  match (s.threads arcv.thd).rcvcap.rcvcapTcap with
  | none => .error .assertion
  | some rcvTcap => do
      let (threads, next, tcapNext) ← s.asndProcess arcv.thd thd rcvTcap s.cosInfo.currTcap false
      let s := s.withThreads threads
      if next = thd then .ok { s with regs := regs }
      else (s.markPreempted thd).capSwitch thresh thd next tcapNext 0 ci regs

def capHwAsnd (thresh : Nat) (s : Core) (caps : CapLookup) (asnd : CapAsnd) (regs : PtRegs) :
    Except Fault Core :=
  if asnd.arcvCapid = 0 then .error .assertion
  else if asnd.arcvCpuid ≠ s.cosInfo.cpuid then .ok { s with regs := regs }
  else
    match s.asndToArcv caps asnd with
    | none => .ok { s with regs := regs }
    | some arcv => do
        let current ← thdInvstkCurrent s.toCpuState
        if (s.threads s.cosInfo.currThd).state.preempted then .error .marks
        else s.hwAsndLocal thresh arcv s.cosInfo.currThd current.compInfo regs

/-- The scheduler thread of the current tcap, as `expended_process` finds it. -/
def expendedNext (s : Core) : Except Fault Nat := do
  let ep ← deref (s.tcaps s.cosInfo.currTcap).arcvEp
  match s.threads.rcvcapSched ep with
  | none => .error .assertion
  | some thdNext =>
    if (s.threads thdNext).rcvcap.isbound ∧ (s.threads thdNext).rcvcap.refcnt > 0 then .ok thdNext
    else .error .assertion

def expendedProcess (thresh : Nat) (s : Core) (thdCurr : Nat) (ci : CompInfo) (regs : PtRegs)
    (timer : Bool) : Except Fault Core := do
  let thdNext ← s.expendedNext
  s.capUpdate thresh thdCurr thdNext s.cosInfo.currTcap 0 ci regs timer

def timerProcess (thresh : Nat) (s : Core) (regs : PtRegs) : Except Fault Core :=
  if (s.threads s.cosInfo.currThd).cpuid ≠ s.cosInfo.cpuid then .error .assertion
  else do
    let entry ← thdInvstkCurrent s.toCpuState
    s.expendedProcess thresh s.cosInfo.currThd entry.compInfo regs true

/-- The thread, the tcap and the timeout with which `cap_arcv_op` blocks, and the core
without the thread that was saved. -/
def arcvNext (s : Core) (thd : Nat) : Except Fault (Core × Nat × Nat × Nat) :=
  match s.cosInfo.nextTi.thd with
  | none => do
      let next ← deref (s.threads.arcvNotif thd)
      let tc ← deref (s.threads thd).rcvcap.rcvcapTcap
      .ok (s, next, tc, 0)
  | some next =>
    match s.cosInfo.nextTi.tc with
    | none => .error .assertion
    | some tc =>
      let core := s.tcapCore.modify tc (·.setprio s.cosInfo.nextTi.prio)
      let timeout :=
        if s.cosInfo.nextTi.budget ≠ 0 then
          tcapCyc2time ((s.tsc + s.cosInfo.nextTi.budget) % 2 ^ 64)
        else 0
      .ok (s.withTcaps { core with cosInfo := { core.cosInfo with nextTi := .clear } }, next, tc,
        timeout)

/-- The marks with which `cap_arcv_op` blocks the thread. -/
def markRcving (s : Core) (thd : Nat) (all : Bool) (timeout : Nat) : Core :=
  s.withThreads (s.threads.modify thd fun t =>
    { t with
      state := { t.state with rcving := true }
      rcvcap := { t.rcvcap with isAllPending := all }
      timeout := timeout })

/-- The end of `cap_arcv_op`: no notification is pending, and the thread blocks. -/
def arcvBlock (thresh : Nat) (s : Core) (thd : Nat) (all : Bool) (timeout : Nat) (ci : CompInfo)
    (regs : PtRegs) : Except Fault Core := do
  let regs := regs.setretvals 0 0 0 0
  let threads ← s.threads.notifyParent thd
  let (s, next, tc, swtimeout) ← (s.withThreads threads).arcvNext thd
  if thd = next then s.capSwitch thresh thd next tc swtimeout ci regs
  else if (s.threads thd).state.preempted then .error .marks
  else (s.markRcving thd all timeout).capSwitch thresh thd next tc swtimeout ci regs

/-- `RCV_NON_BLOCKING` and `RCV_ALL_PENDING`. -/
def rcvNonBlocking (rflags : Nat) : Bool := rflags.testBit 0

def rcvAllPending (rflags : Nat) : Bool := rflags.testBit 1

def capArcvOp (thresh : Nat) (s : Core) (arcv : CapArcv) (thd : Nat) (ci : CompInfo)
    (regs : PtRegs) : Except Fault Core :=
  let rflags := regs.get1
  if arcv.thd ≠ thd ∨ arcv.cpuid ≠ s.cosInfo.cpuid then s.refuse regs (-Errno.einval)
  else if thdRcvcapPending s.threads thd ≠ 0 then do
    let regs := regs.set 0 regs.getsp regs.getip
    let threads := s.threads.allPendingSet thd (rcvAllPending rflags)
    let (threads, regs) ← thdRcvcapPendingDeliver threads thd regs
    .ok { s with threads := threads, regs := regs }
  else if rcvNonBlocking rflags then
    .ok { s with
      regs := (regs.set 0 regs.getsp regs.getip).setretvals (-Errno.eagain) 0 0 0 }
  else s.arcvBlock thresh thd (rcvAllPending rflags) regs.get2 ci regs

def tcapWakeup (core : TcapCore) (tc prio budget thd : Nat) : Except Fault TcapCore :=
  let nti := core.cosInfo.nextTi
  let woken : TcapCore := { core with cosInfo :=
    { core.cosInfo with nextTi := ⟨some thd, some tc, prio, budget⟩ } }
  match nti.tc with
  | none => if nti.thd.isSome then .error .assertion else .ok woken
  | some other =>
    if tc = other ∧ prio ≥ nti.prio then .ok woken
    else
      let raised := core.modify tc (·.setprio prio)
      if tcapHigherPrio raised.tcaps tc other then .ok woken else .ok core

inductive TcapCall where
  | transfer (rcv res prio : Nat)
  | delegate (asnd res prio : Nat) (yield : Bool)
  | merge (rm : Nat)
  | wakeup (thd prio budget : Nat)
  deriving DecidableEq, Repr

def expendedSwitch (thresh : Nat) (s : Core) (thd : Nat) (ci : CompInfo) (regs : PtRegs) :
    Except Fault Core :=
  if (s.tcaps s.cosInfo.currTcap).budget = 0 then s.expendedProcess thresh thd ci regs false
  else s.refuse regs 0

/-- `CAPTBL_OP_TCAP_TRANSFER`. -/
def opTcapTransfer (thresh : Nat) (s : Core) (caps : CapLookup) (src rcv res prio thd : Nat)
    (ci : CompInfo) (regs : PtRegs) : Except Fault Core :=
  match s.coreArcv caps ci.captbl rcv with
  | none => s.refuse regs (-Errno.einval)
  | some arcv =>
    match (s.threads arcv.thd).rcvcap.rcvcapTcap with
    | none => .error .assertion
    | some tc => do
        let (ret, core) ← Composite.tcapDelegate s.tcapCore tc src (res % 2 ^ 32) prio
        let s := s.withTcaps core
        if ret ≠ 0 then s.refuse regs (-Errno.einval) else s.expendedSwitch thresh thd ci regs

/-- `CAPTBL_OP_TCAP_DELEGATE`. -/
def opTcapDelegate (thresh : Nat) (s : Core) (caps : CapLookup) (src asndCap res prio : Nat)
    (yield : Bool) (thd : Nat) (ci : CompInfo) (regs : PtRegs) : Except Fault Core :=
  match ((caps.lkup ci.captbl asndCap).bind CapBody.asnd?).bind (s.asndToArcv caps) with
  | none => s.refuse regs (-Errno.einval)
  | some arcv =>
    match (s.threads arcv.thd).rcvcap.rcvcapTcap with
    | none => .error .assertion
    | some tc => do
        let (ret, core) ← Composite.tcapDelegate s.tcapCore tc src (res % 2 ^ 32) prio
        let s := s.withTcaps core
        if ret ≠ 0 then s.refuse regs (-Errno.einval)
        else do
          let (threads, n, tcapNext) ← s.asndProcess arcv.thd thd tc s.cosInfo.currTcap yield
          let s := s.withThreads threads
          if n ≠ thd then s.capSwitch thresh thd n tcapNext 0 ci regs
          else s.expendedSwitch thresh thd ci regs

/-- The operations on the tcap `src` of the slow path. -/
def tcapCall (thresh : Nat) (s : Core) (caps : CapLookup) (src : Nat) (call : TcapCall) (thd : Nat)
    (ci : CompInfo) (regs : PtRegs) : Except Fault Core :=
  match call with
  | .transfer rcv res prio => s.opTcapTransfer thresh caps src rcv res prio thd ci regs
  | .delegate asnd res prio yield =>
    s.opTcapDelegate thresh caps src asnd res prio yield thd ci regs
  | .merge rm =>
    match s.coreTcap caps ci.captbl rm with
    | none => s.refuse regs (-Errno.einval)
    | some tcaprm => do
        let (ret, core) ← tcapMerge s.tcapCore src tcaprm.tcap
        (s.withTcaps core).refuse regs (if ret ≠ 0 then -Errno.enoent else 0)
  | .wakeup thdCap prio budget =>
    match ((caps.lkup ci.captbl thdCap).bind CapBody.thd?).filter (·.cpuid = s.cosInfo.cpuid) with
    | none => s.refuse regs (-Errno.einval)
    | some thdwkup => do
        let core ← tcapWakeup s.tcapCore src prio budget thdwkup.t
        (s.withTcaps core).refuse regs 0

end Core

/-- What enters the kernel on a core: a system call through the capability that was
found, with the other capabilities it may name, or an interrupt.  Between two entries
time passes and a component may be deactivated, on any core. -/
inductive CoreEvent where
  | sret (regs : PtRegs)
  | sinv (sinvc : CapSinv) (regs : PtRegs)
  | thd (caps : CapLookup) (thdc : CapThd) (regs : PtRegs)
  | asnd (caps : CapLookup) (asndc : CapAsnd) (regs : PtRegs)
  | arcv (arcvc : CapArcv) (regs : PtRegs)
  | tcap (caps : CapLookup) (tcapc : CapTcap) (call : Core.TcapCall) (regs : PtRegs)
  | hwAsnd (caps : CapLookup) (asndc : CapAsnd) (regs : PtRegs)
  | timer (regs : PtRegs)
  | compDeactivate (liveness : LivenessData)
  | wait (cycles : Nat)

namespace Core

def invoke (s : Core) (event : InvEvent) : Except Fault Core := do
  let cpu ← invEntry s.ltbl s.toCpuState event
  .ok (s.withCpu cpu)

/-- One kernel entry.  All system calls but the return read the component of the
current thread first. -/
def entry (thresh : Nat) (s : Core) : CoreEvent → Except Fault Core
  | .sret regs => s.invoke (.sret regs)
  | .sinv sinvc regs => s.invoke (.sinv sinvc regs)
  | .thd caps thdc regs => do
      let current ← thdInvstkCurrent s.toCpuState
      s.capThdOp thresh caps thdc s.cosInfo.currThd current.compInfo regs
  | .asnd caps asndc regs => do
      let current ← thdInvstkCurrent s.toCpuState
      s.capAsndOp thresh caps asndc s.cosInfo.currThd current.compInfo regs
  | .arcv arcvc regs => do
      let current ← thdInvstkCurrent s.toCpuState
      s.capArcvOp thresh arcvc s.cosInfo.currThd current.compInfo regs
  | .tcap caps tcapc call regs => do
      let current ← thdInvstkCurrent s.toCpuState
      s.tcapCall thresh caps tcapc.tcap call s.cosInfo.currThd current.compInfo regs
  | .hwAsnd caps asndc regs => s.capHwAsnd thresh caps asndc regs
  | .timer regs => s.timerProcess thresh regs
  | .compDeactivate liveness => .ok { s with ltbl := ltblExpire s.ltbl s.tsc liveness }
  | .wait cycles => .ok { s with tsc := s.tsc + cycles }

def next (thresh : Nat) (s : Core) (event : CoreEvent) : Option Core :=
  match s.entry thresh event with
  | .ok s' => some s'
  | .error _ => none

theorem next_eq_some {thresh : Nat} {s s' : Core} {event : CoreEvent} :
    s.next thresh event = some s' ↔ s.entry thresh event = .ok s' := by
  unfold next
  cases s.entry thresh event with
  | error fault => simp
  | ok after => simp

end Core

end Composite
