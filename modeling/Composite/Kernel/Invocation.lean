import Composite.Kernel.Thread

/-!
# Synchronous invocations and thread switches

The functions of `inv.h` and `capinv.c` that work on the invocation stacks.  The
index of the current thread's top entry is cached with the core and written back
on a switch.  An index outside of the stack is a fault.
-/

namespace Composite

structure CapSinv where
  compInfo : CompInfo
  entryAddr : Nat
  token : Nat
  deriving DecidableEq, Repr

/-- The threads, and the state of the core they run on: its local information,
the user registers, the page table and the thread-local storage in use. -/
structure CpuState where
  threads : Threads
  cosInfo : CosCpuLocalInfo
  regs : PtRegs
  pgtbl : Nat
  tls : Nat

def Thread.invstkAt (thd : Thread) (i : Nat) : Except Fault InvstkEntry :=
  if i < thdInvstkMaxsz then .ok (thd.invstk i) else .error .dereference

def Thread.setInvstk (thd : Thread) (i : Nat) (entry : InvstkEntry) : Except Fault Thread :=
  if i < thdInvstkMaxsz then .ok { thd with invstk := Function.update thd.invstk i entry }
  else .error .dereference

/-- `thd_invstk_current`, for the current thread. -/
def thdInvstkCurrent (s : CpuState) : Except Fault InvstkEntry :=
  (s.threads s.cosInfo.currThd).invstkAt s.cosInfo.invstkTop

/-- `thd_invstk_push`, for the current thread; `none` is the refusal. -/
def thdInvstkPush (s : CpuState) (ci : CompInfo) (ip sp : Nat) : Except Fault (Option CpuState) :=
  let curr := s.cosInfo.currThd
  let top := s.cosInfo.invstkTop
  if top ≥ thdInvstkMaxsz then .ok none
  else do
    let thd ← (s.threads curr).setInvstk top
      { (s.threads curr).invstk top with ip := ip, sp := sp }
    let thd ← thd.setInvstk (top + 1) ⟨ci, 0, 0⟩
    .ok (some
      { s with
        threads := Function.update s.threads curr thd
        cosInfo := { s.cosInfo with invstkTop := top + 1 } })

/-- `thd_invstk_pop`, for the current thread; `none` is the null pointer. -/
def thdInvstkPop (s : CpuState) : Except Fault (Option (InvstkEntry × CpuState)) :=
  if s.cosInfo.invstkTop = 0 then .ok none
  else do
    let s := { s with cosInfo := { s.cosInfo with invstkTop := s.cosInfo.invstkTop - 1 } }
    let entry ← thdInvstkCurrent s
    .ok (some (entry, s))

def sinvCall (ltbl : Ltbl) (s : CpuState) (sinvc : CapSinv) (regs : PtRegs) :
    Except Fault CpuState :=
  let ip := regs.getip
  let sp := regs.getsp
  if ¬ltblIsalive ltbl sinvc.compInfo.liveness then
    .ok { s with regs := regs.set (-Errno.efault) regs.getsp regs.getip }
  else do
    let pushed ← thdInvstkPush s sinvc.compInfo ip sp
    match pushed with
    | none => .ok { s with regs := regs.set (-1) sp ip }
    | some s =>
      let thdid := (s.threads s.cosInfo.currThd).tid ||| s.cosInfo.cpuid <<< 16
      .ok { s with
        pgtbl := sinvc.compInfo.pgtbl
        regs := regs.sinvupdate.set thdid sinvc.token sinvc.entryAddr }

def sretRet (ltbl : Ltbl) (s : CpuState) (regs : PtRegs) : Except Fault CpuState := do
  let popped ← thdInvstkPop s
  match popped with
  | none => .ok { s with regs := regs.set 0xDEADDEAD 0 0 }
  | some (entry, s) =>
    if ¬ltblIsalive ltbl entry.compInfo.liveness then
      .ok { s with regs := regs.set (-Errno.efault) regs.getsp regs.getip }
    else
      .ok { s with
        pgtbl := entry.compInfo.pgtbl
        regs := regs.set regs.getinvret entry.sp entry.ip }

def thdCurrentUpdate (s : CpuState) (next prev : Nat) : CpuState :=
  let threads := s.threads.modify prev fun t => { t with invstkTop := s.cosInfo.invstkTop }
  { s with
    threads := threads
    cosInfo := { s.cosInfo with invstkTop := (threads next).invstkTop, currThd := next } }

def savedRegs (thd : Thread) (regs : PtRegs) : PtRegs :=
  if thd.state.preempted then regs
  else
    let saved := regs.copyGp thd.regs
    saved.set 0 saved.getsp saved.getip

/-- The second half of `cap_thd_switch`: the core leaves `curr` and goes on with
`next`. -/
def switchTo (s : CpuState) (curr next : Nat) (ci nextCi : CompInfo) (regs : PtRegs) :
    Except Fault CpuState := do
  let saved := { s with
    threads := s.threads.modify curr fun t => { t with regs := savedRegs t regs } }
  let s := thdCurrentUpdate saved next curr
  let (threads, nextRegs, _) ← thdSwitchUpdate s.threads next (s.threads next).regs false
  let threads := threads.modify next fun t => { t with regs := nextRegs }
  let nextTi :=
    if s.cosInfo.nextTi.thd = some next then ⟨none, none, 0, 0⟩ else s.cosInfo.nextTi
  .ok {
    threads := threads
    cosInfo := { s.cosInfo with nextTi := nextTi }
    regs := nextRegs
    pgtbl := if ci.pgtbl ≠ nextCi.pgtbl then nextCi.pgtbl else s.pgtbl
    tls := if (threads next).tls ≠ (threads curr).tls then (threads next).tls else s.tls }

def capThdSwitch (ltbl : Ltbl) (s : CpuState) (curr next : Nat) (ci : CompInfo) (regs : PtRegs) :
    Except Fault CpuState :=
  if ¬((s.threads curr).cpuid = s.cosInfo.cpuid ∧ (s.threads next).cpuid = s.cosInfo.cpuid) then
    .error .assertion
  else if curr = next then do
    let (threads, regs, _) ← thdSwitchUpdate s.threads curr regs true
    .ok { s with threads := threads, regs := regs }
  else do
    let nextEntry ← (s.threads next).invstkAt (s.threads next).invstkTop
    if ¬ltblIsalive ltbl nextEntry.compInfo.liveness then
      if (s.threads curr).state.preempted then .error .marks
      else .ok { s with regs := regs.set (-Errno.efault) regs.getsp regs.getip }
    else switchTo s curr next ci nextEntry.compInfo regs

theorem capThdSwitch_cases {ltbl : Ltbl} {s s' : CpuState} {curr next : Nat} {ci : CompInfo}
    {regs : PtRegs} (switched : capThdSwitch ltbl s curr next ci regs = .ok s') :
    (curr = next ∧ ∃ threads after preempt,
        thdSwitchUpdate s.threads curr regs true = .ok (threads, after, preempt) ∧
          s' = { s with threads := threads, regs := after }) ∨
      curr ≠ next ∧ (s' = { s with regs := s'.regs } ∧
          ¬ltblIsalive ltbl
            ((s.threads next).invstk (s.threads next).invstkTop).compInfo.liveness ∨
        ltblIsalive ltbl ((s.threads next).invstk (s.threads next).invstkTop).compInfo.liveness ∧
          switchTo s curr next ci
            ((s.threads next).invstk (s.threads next).invstkTop).compInfo regs = .ok s') := by
  unfold capThdSwitch at switched
  split at switched
  · cases switched
  split at switched
  next same =>
    obtain ⟨⟨threads, after, preempt⟩, updated, rest⟩ := Checked.bind_eq_ok.mp switched
    cases rest
    exact .inl ⟨same, threads, after, preempt, updated, rfl⟩
  next different =>
    obtain ⟨entry, found, rest⟩ := Checked.bind_eq_ok.mp switched
    unfold Thread.invstkAt at found
    split_ifs at found
    cases found
    split_ifs at rest with alive
    · exact .inr ⟨different, .inr ⟨alive, rest⟩⟩
    · cases rest
      exact .inr ⟨different, .inl ⟨rfl, alive⟩⟩

/-- What enters the kernel on a core, with the user registers at that time.  A
switch comes from a system call or from the timer. -/
inductive InvEvent where
  | sinv (sinvc : CapSinv) (regs : PtRegs)
  | sret (regs : PtRegs)
  | switch (next : Nat) (timer : Bool) (regs : PtRegs)
  deriving DecidableEq, Repr

/-- The kernel entry up to the work on the stacks: all but the return read the
component of the current thread first. -/
def invEntry (ltbl : Ltbl) (s : CpuState) : InvEvent → Except Fault CpuState
  | .sinv sinvc regs => do
      let _ ← thdInvstkCurrent s
      sinvCall ltbl s sinvc regs
  | .sret regs => sretRet ltbl s regs
  | .switch next timer regs => do
      let entry ← thdInvstkCurrent s
      let curr := s.cosInfo.currThd
      if timer then
        if next = curr then .ok { s with regs := regs }
        else
          let threads := s.threads.modify curr fun t =>
            { t with state := { t.state with preempted := true } }
          capThdSwitch ltbl { s with threads := threads } curr next entry.compInfo regs
      else capThdSwitch ltbl s curr next entry.compInfo regs

/-- Threads of component `comp` on core 0, none of them inside an invocation, which thread 1
schedules. -/
def freshCpu (comp : CompInfo) : CpuState where
  threads := fun t =>
    { Thread.zero with
      tid := t, invstk := fun _ => ⟨comp, 0, 0⟩, refcnt := 1, schedulerThread := some 1
      rcvcap := ⟨true, 0, 1, false, 0, some 0, some 1⟩ }
  cosInfo := ⟨0, 1, 0, .clear, 0, [0], 1, 0, 0⟩
  regs := .zero
  pgtbl := comp.pgtbl
  tls := 0

end Composite
