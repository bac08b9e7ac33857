import Mathlib.Tactic.SplitIfs
import Composite.Lib.Checked
import Composite.Kernel.Liveness

/-!
# Threads

Threads are named by numbers, and the memory of all of them is a function from
these to their descriptors.  The registers are those that the kernel reads or
writes; the segment registers and the flags are only copied along.
-/

namespace Composite

open Checked

/-- `struct pt_regs`, 32-bit registers. -/
structure PtRegs where
  ax : Nat
  bx : Nat
  cx : Nat
  dx : Nat
  si : Nat
  di : Nat
  bp : Nat
  ip : Nat
  sp : Nat
  deriving DecidableEq, Repr

def toRegister (value : Int) : Nat := (value % 2 ^ 32).toNat

/-- `x >> 16` on a signed 32-bit value. -/
def sar16 (x : Nat) : Nat := if x < 2 ^ 31 then x / 2 ^ 16 else x / 2 ^ 16 + (2 ^ 16 - 1) * 2 ^ 16

/-- `(x << 16) >> 16` on a signed 32-bit value. -/
def sext16 (x : Nat) : Nat :=
  if x % 2 ^ 16 < 2 ^ 15 then x % 2 ^ 16 else x % 2 ^ 16 + (2 ^ 16 - 1) * 2 ^ 16

namespace PtRegs

def getsp (regs : PtRegs) : Nat := regs.bp

def getip (regs : PtRegs) : Nat := regs.cx

def getinvret (regs : PtRegs) : Nat := regs.cx

def set (regs : PtRegs) (ret : Int) (sp ip : Nat) : PtRegs :=
  { regs with ax := toRegister ret, sp := sp, cx := sp, ip := ip, dx := ip }

def setretvals (regs : PtRegs) (ret ret1 ret2 ret3 : Int) : PtRegs :=
  { regs with
    ax := toRegister ret, si := toRegister ret1, di := toRegister ret2, bx := toRegister ret3 }

def sinvupdate (regs : PtRegs) : PtRegs := { regs with bp := regs.dx }

/-- `copy_gp_regs`: the stack pointer and the instruction pointer stay. -/
def copyGp (source target : PtRegs) : PtRegs :=
  { source with ip := target.ip, sp := target.sp }

end PtRegs

/-- `struct comp_info`, with the addresses of the page table and of the
capability table. -/
structure CompInfo where
  liveness : LivenessData
  pgtbl : Nat
  captbl : Nat
  deriving DecidableEq, Repr

structure InvstkEntry where
  compInfo : CompInfo
  sp : Nat
  ip : Nat
  deriving DecidableEq, Repr

def thdInvstkMaxsz : Nat := 32

/-- `thd_state_t`, a set of flags. -/
structure ThdState where
  preempted : Bool
  rcving : Bool
  deriving DecidableEq, Repr

structure RcvcapInfo where
  isbound : Bool
  pending : Nat
  refcnt : Nat
  isAllPending : Bool
  schedCount : Nat
  rcvcapTcap : Option Nat
  rcvcapThdNotif : Option Nat
  deriving DecidableEq, Repr

/-- `struct thread`.  The event lists are kept as the list of waiting threads at
the head, and at the thread that waits as the head it waits at.  The field `lastReport`
is not in the source: whether the last event of the thread was delivered with the
blocked bit. -/
structure Thread where
  tid : Nat
  invstkTop : Nat
  regs : PtRegs
  invstk : Nat → InvstkEntry
  state : ThdState
  tls : Nat
  cpuid : Nat
  refcnt : Nat
  exec : Nat
  timeout : Nat
  schedulerThread : Option Nat
  rcvcap : RcvcapInfo
  eventHead : List Nat
  eventList : Option Nat
  lastReport : Option Bool

def PtRegs.zero : PtRegs := ⟨0, 0, 0, 0, 0, 0, 0, 0, 0⟩

def Thread.zero : Thread where
  tid := 0
  invstkTop := 0
  regs := .zero
  invstk := fun _ => ⟨⟨⟨0, 0⟩, 0, 0⟩, 0, 0⟩
  state := ⟨false, false⟩
  tls := 0
  cpuid := 0
  refcnt := 0
  exec := 0
  timeout := 0
  schedulerThread := none
  rcvcap := ⟨false, 0, 0, false, 0, none, none⟩
  eventHead := []
  eventList := none
  lastReport := none

abbrev Threads := Nat → Thread

/-- `struct next_thdinfo`: the thread that was preempted or woken up. -/
structure NextThdinfo where
  thd : Option Nat
  tc : Option Nat
  prio : Nat
  budget : Nat
  deriving DecidableEq, Repr

def NextThdinfo.clear : NextThdinfo := ⟨none, none, 0, 0⟩

/-- `struct cos_cpu_local_info`, with the active tcaps of the core as a list. -/
structure CosCpuLocalInfo where
  cpuid : Nat
  currThd : Nat
  invstkTop : Nat
  nextTi : NextThdinfo
  currTcap : Nat
  tcaps : List Nat
  tcapUid : Nat
  cycles : Nat
  nextTimer : Nat
  deriving DecidableEq, Repr

def Threads.modify (threads : Threads) (t : Nat) (change : Thread → Thread) : Threads :=
  Function.update threads t (change (threads t))

def thdRcvcapEvtDequeue (threads : Threads) (head : Nat) : Option Nat × Threads :=
  match (threads head).eventHead with
  | [] => (none, threads)
  | e :: rest =>
    (some e, (threads.modify head fun t => { t with eventHead := rest }).modify e
      fun t => { t with eventList := none })

def thdRcvcapPending (threads : Threads) (t : Nat) : Nat :=
  if (threads t).rcvcap.pending ≠ 0 then (threads t).rcvcap.pending
  else if (threads t).eventHead.isEmpty then 0 else 1

/-- `thd_state_evt_deliver`: the state word, the cycles and the timeout of the
thread whose event is delivered. -/
def thdStateEvtDeliver (threads : Threads) (t : Nat) :
    Except Fault (Threads × Option (Nat × Nat × Nat)) :=
  let (event, threads) := thdRcvcapEvtDequeue threads t
  if ¬(threads t).rcvcap.isbound then .error .assertion
  else
    match event with
    | none => .ok (threads, none)
    | some e =>
      let blocked := (threads e).state.rcving ∧ thdRcvcapPending threads e = 0
      let word := (threads e).tid ||| (if blocked then 2 ^ 31 else 0)
      .ok (threads.modify e fun t =>
          { t with exec := 0, timeout := 0, lastReport := some (decide blocked) },
        some (word, (threads e).exec, (threads e).timeout))

def thdRcvcapPendingDeliver (threads : Threads) (thd : Nat) (regs : PtRegs) :
    Except Fault (Threads × PtRegs) := do
  let allPending := (threads thd).rcvcap.isAllPending
  let (threads, delivered) ← thdStateEvtDeliver threads thd
  let (thdState, cycles, timeout) := delivered.getD (0, 0, 0)
  if allPending then
    let pending := (threads thd).rcvcap.pending
    let more := if (threads thd).eventHead.isEmpty then 0 else 1
    let threads := threads.modify thd fun t =>
      { t with rcvcap := { t.rcvcap with pending := 0, isAllPending := false } }
    .ok (threads, regs.setretvals (2 * pending + more : Nat) thdState cycles timeout)
  else
    let threads := threads.modify thd fun t =>
      { t with rcvcap := { t.rcvcap with pending := t.rcvcap.pending - 1 } }
    .ok (threads, regs.setretvals (thdRcvcapPending threads thd) thdState cycles timeout)

/-- `thd_switch_update`: the flag says whether the thread was preempted. -/
def thdSwitchUpdate (threads : Threads) (thd : Nat) (regs : PtRegs) (issame : Bool) :
    Except Fault (Threads × PtRegs × Bool) :=
  let state := (threads thd).state
  if state.preempted then
    if state.rcving then .error .marks
    else
      .ok (threads.modify thd fun t => { t with state := { t.state with preempted := false } },
        regs, true)
  else do
    let (threads, regs) ←
      if state.rcving then
        thdRcvcapPendingDeliver
          (threads.modify thd fun t => { t with state := { t.state with rcving := false } }) thd
            regs
      else .ok (threads, regs)
    .ok (threads, if issame then regs.set 0 regs.getsp regs.getip else regs, false)

section Parts

variable {Alpha : Type} {threads threads' threads'' : Threads} {thd : Nat}

/-- The threads agree on a part of each thread. -/
def SamePart (part : Thread → Alpha) (threads threads' : Threads) : Prop :=
  ∀ t, part (threads' t) = part (threads t)

variable {part : Thread → Alpha}

theorem SamePart.refl (threads : Threads) : SamePart part threads threads := fun _ => rfl

theorem SamePart.trans (first : SamePart part threads threads')
    (second : SamePart part threads' threads'') : SamePart part threads threads'' :=
  fun t => (second t).trans (first t)

theorem SamePart.map {Beta : Type} (f : Alpha → Beta) (same : SamePart part threads threads') :
    SamePart (fun t => f (part t)) threads threads' :=
  fun t => congrArg f (same t)

theorem samePart_modify {change : Thread → Thread}
    (kept : ∀ t, part (change t) = part t) :
    SamePart part threads (threads.modify thd change) := by
  intro t
  by_cases same : t = thd
  · subst same
    simpa [Threads.modify] using kept (threads t)
  · simp [Threads.modify, same]

theorem thdSwitchUpdate_cases {regs regs' : PtRegs} {issame preempt : Bool}
    (result : thdSwitchUpdate threads thd regs issame = .ok (threads', regs', preempt)) :
    ((threads thd).state = ⟨true, false⟩ ∧ threads' = threads.modify thd fun t =>
        { t with state := { t.state with preempted := false } }) ∨
      ((threads thd).state = ⟨false, true⟩ ∧ ∃ after, thdRcvcapPendingDeliver (threads.modify thd
        fun t => { t with state := { t.state with rcving := false } }) thd regs =
          .ok (threads', after)) ∨
      (threads thd).state = ⟨false, false⟩ ∧ threads' = threads := by
  unfold thdSwitchUpdate at result
  cases state : (threads thd).state with
  | mk preempted rcving =>
    simp only [state] at result
    cases preempted <;> cases rcving
    · cases result
      exact .inr (.inr ⟨rfl, rfl⟩)
    · obtain ⟨⟨middle, after⟩, delivery, rest⟩ := bind_eq_ok.mp result
      cases rest
      exact .inr (.inl ⟨rfl, after, delivery⟩)
    · cases result
      exact .inl ⟨rfl, rfl⟩
    · cases result

/-- The delivery of an event does not change this part of a thread. -/
def Undelivered (part : Thread → Alpha) : Prop :=
  ∀ (t : Thread) head list exec timeout report pending all,
    part { t with
      eventHead := head, eventList := list, exec := exec, timeout := timeout, lastReport := report
      rcvcap := { t.rcvcap with pending := pending, isAllPending := all } } = part t

variable (kept : Undelivered part)

include kept

theorem samePart_stateEvtDeliver {delivered : Option (Nat × Nat × Nat)}
    (result : thdStateEvtDeliver threads thd = .ok (threads', delivered)) :
    SamePart part threads threads' := by
  have dequeued : SamePart part threads (thdRcvcapEvtDequeue threads thd).2 := by
    unfold thdRcvcapEvtDequeue
    split
    · exact .refl _
    · refine SamePart.trans ?_ (samePart_modify fun t => kept t _ _ _ _ _ _ _)
      exact samePart_modify fun t => kept t _ _ _ _ _ _ _
  unfold thdStateEvtDeliver at result
  simp only at result
  split_ifs at result
  split at result
  · cases result
    exact dequeued
  · cases result
    exact dequeued.trans (samePart_modify fun t => kept t _ _ _ _ _ _ _)

theorem samePart_pendingDeliver {regs regs' : PtRegs}
    (result : thdRcvcapPendingDeliver threads thd regs = .ok (threads', regs')) :
    SamePart part threads threads' := by
  unfold thdRcvcapPendingDeliver at result
  obtain ⟨⟨middle, word⟩, delivery, rest⟩ := bind_eq_ok.mp result
  refine (samePart_stateEvtDeliver kept delivery).trans ?_
  simp only at rest
  split_ifs at rest
  all_goals
    cases rest
    exact samePart_modify fun t => kept t _ _ _ _ _ _ _

theorem samePart_switchUpdate
    (states : ∀ (t : Thread) state, part { t with state := state } = part t)
    {regs regs' : PtRegs} {issame preempt : Bool}
    (result : thdSwitchUpdate threads thd regs issame = .ok (threads', regs', preempt)) :
    SamePart part threads threads' := by
  rcases thdSwitchUpdate_cases result with ⟨-, rfl⟩ | ⟨-, after, delivery⟩ | ⟨-, rfl⟩
  · exact samePart_modify fun t => states t _
  · refine SamePart.trans ?_ (samePart_pendingDeliver kept delivery)
    exact samePart_modify fun t => states t _
  · exact .refl _

end Parts

abbrev Thread.stack (t : Thread) : (Nat → InvstkEntry) × Nat := (t.invstk, t.invstkTop)

theorem SamePart.invstk {threads threads' : Threads} (same : SamePart Thread.stack threads threads')
    (t : Nat) : (threads' t).invstk = (threads t).invstk := congrArg Prod.fst (same t)

theorem SamePart.invstkTop {threads threads' : Threads}
    (same : SamePart Thread.stack threads threads') (t : Nat) :
    (threads' t).invstkTop = (threads t).invstkTop := congrArg Prod.snd (same t)

theorem undelivered_stack : Undelivered Thread.stack := fun _ _ _ _ _ _ _ _ => rfl

section Errors

variable {threads : Threads} {thd : Nat} {regs : PtRegs} {fault : Fault}

theorem thdStateEvtDeliver_error (result : thdStateEvtDeliver threads thd = .error fault) :
    fault = .assertion := by
  unfold thdStateEvtDeliver at result
  simp only at result
  split_ifs at result
  · split at result <;> cases result
  · cases result
    rfl

theorem thdRcvcapPendingDeliver_error
    (result : thdRcvcapPendingDeliver threads thd regs = .error fault) : fault = .assertion := by
  unfold thdRcvcapPendingDeliver at result
  rcases bind_eq_error.mp result with failed | ⟨delivered, -, rest⟩
  · exact thdStateEvtDeliver_error failed
  · simp only at rest
    split_ifs at rest

theorem thdSwitchUpdate_error {issame : Bool}
    (result : thdSwitchUpdate threads thd regs issame = .error fault) : fault ≠ .dereference := by
  unfold thdSwitchUpdate at result
  cases state : (threads thd).state with
  | mk preempted rcving =>
    simp only [state] at result
    cases preempted <;> cases rcving
    · cases result
    · rcases bind_eq_error.mp result with failed | ⟨delivered, -, rest⟩
      · rw [thdRcvcapPendingDeliver_error failed]
        decide
      · cases rest
    · cases result
    · cases result
      decide

end Errors

end Composite
