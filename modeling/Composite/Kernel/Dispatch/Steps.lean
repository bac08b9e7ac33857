import Composite.Kernel.Dispatch

/-!
# What a kernel entry does to the threads

Every entry prepares the core and then returns to the current thread, delivers its
pending notifications or switches.  The preparation changes data that the switch does
not use, sends notifications, and may mark the current thread.
-/

namespace Composite

open Checked

theorem Threads.modify_apply (threads : Threads) (t other : Nat) (change : Thread → Thread) :
    threads.modify t change other = if other = t then change (threads t) else threads other := by
  unfold Threads.modify
  by_cases same : other = t
  · subst same
    simp
  · simp [same]

/-- A thread without what a preparation changes: accounting, the scheduler, the flag of a
receive. -/
def Thread.essence (t : Thread) : Thread :=
  { t with
    exec := 0
    schedulerThread := none
    rcvcap := { t.rcvcap with schedCount := 0, isAllPending := false } }

def Thread.unlisted (t : Thread) : Thread := { t with eventHead := [], eventList := none }

abbrev ListsOnly (threads threads' : Threads) : Prop := SamePart Thread.unlisted threads threads'

section Lists

variable {threads threads' : Threads}

theorem ListsOnly.rcvcap (only : ListsOnly threads threads') (t : Nat) :
    (threads' t).rcvcap = (threads t).rcvcap :=
  only.map Thread.rcvcap t

theorem ListsOnly.states (only : ListsOnly threads threads') :
    SamePart Thread.state threads threads' :=
  only.map Thread.state

theorem listsOnly_evtEnqueue (threads : Threads) (head t : Nat) :
    ListsOnly threads (threads.evtEnqueue head t) := by
  unfold Threads.evtEnqueue
  split_ifs
  · refine SamePart.trans ?_ (samePart_modify fun _ => rfl)
    exact samePart_modify fun _ => rfl
  · exact .refl _

theorem listsOnly_notifyLoop {left prev : Nat} {curr : Option Nat}
    (result : Threads.notifyLoop left threads prev curr = .ok threads') :
    ListsOnly threads threads' := by
  fun_induction Threads.notifyLoop left threads prev curr with
  | case1 | case2 | case4 =>
    cases result
    exact .refl _
  | case3 => cases result
  | case5 left threads prev curr different enqueued running =>
    rw [← Except.ok.inj result]
    exact listsOnly_evtEnqueue _ curr prev
  | case6 left threads prev curr different enqueued rcving ih =>
    exact (listsOnly_evtEnqueue _ curr prev).trans (ih result)

end Lists

structure SameCurrent (cosInfo cosInfo' : CosCpuLocalInfo) : Prop where
  cpuid : cosInfo'.cpuid = cosInfo.cpuid
  currThd : cosInfo'.currThd = cosInfo.currThd
  invstkTop : cosInfo'.invstkTop = cosInfo.invstkTop

theorem SameCurrent.refl (cosInfo : CosCpuLocalInfo) : SameCurrent cosInfo cosInfo :=
  ⟨rfl, rfl, rfl⟩

theorem SameCurrent.trans {first second third : CosCpuLocalInfo} (before : SameCurrent first second)
    (after : SameCurrent second third) : SameCurrent first third :=
  ⟨after.cpuid.trans before.cpuid, after.currThd.trans before.currThd,
    after.invstkTop.trans before.invstkTop⟩

/-- Operations on tcaps change nothing else of what the core knows. -/
def TcapsOnly (cosInfo cosInfo' : CosCpuLocalInfo) : Prop :=
  ∃ active next, cosInfo' = { cosInfo with tcaps := active, nextTi := next }

section Tcaps

variable {core core' : TcapCore} {ret : Int}

theorem TcapsOnly.refl (cosInfo : CosCpuLocalInfo) : TcapsOnly cosInfo cosInfo := ⟨_, _, rfl⟩

theorem TcapsOnly.trans {first second third : CosCpuLocalInfo} (before : TcapsOnly first second)
    (after : TcapsOnly second third) : TcapsOnly first third := by
  obtain ⟨_, _, rfl⟩ := before
  obtain ⟨_, _, rfl⟩ := after
  exact ⟨_, _, rfl⟩

theorem TcapsOnly.current {cosInfo cosInfo' : CosCpuLocalInfo} (only : TcapsOnly cosInfo cosInfo') :
    SameCurrent cosInfo cosInfo' := by
  obtain ⟨_, _, rfl⟩ := only
  exact ⟨rfl, rfl, rfl⟩

theorem TcapsOnly.currTcap {cosInfo cosInfo' : CosCpuLocalInfo}
    (only : TcapsOnly cosInfo cosInfo') :
    cosInfo'.currTcap = cosInfo.currTcap := by
  obtain ⟨_, _, rfl⟩ := only
  rfl

theorem tcapsOnly_consume (thresh : Nat) (core : TcapCore) (t cycles : Nat) :
    TcapsOnly core.cosInfo (tcapConsume thresh core t cycles).cosInfo := by
  unfold tcapConsume
  split_ifs <;> exact ⟨_, _, rfl⟩

theorem BudgetsOnly.tcapsOnly (only : BudgetsOnly core core') :
    TcapsOnly core.cosInfo core'.cosInfo :=
  ⟨_, _, only.cosInfo⟩

theorem tcapsOnly_delegate {dst src cycles prio : Nat}
    (outcome : DelegateOutcome core dst src cycles prio ret core') :
    TcapsOnly core.cosInfo core'.cosInfo := by
  cases outcome with
  | refused => exact .refl _
  | own => exact ⟨_, _, rfl⟩
  | noRoom => exact ⟨_, _, rfl⟩
  | noBudget _ _ _ _ transfer => exact (budgetsOnly_budgetXfer transfer).tcapsOnly
  | delegated _ _ transfer => exact (budgetsOnly_budgetXfer transfer).tcapsOnly

theorem tcapsOnly_merge {dst rm : Nat} (result : tcapMerge core dst rm = .ok (ret, core')) :
    TcapsOnly core.cosInfo core'.cosInfo := by
  rcases tcapMerge_cases result with ⟨-, rfl⟩ |
    ⟨-, -, other, core₁, outcome, ⟨-, -, rfl⟩ | ⟨-, -, rfl, -⟩⟩
  · exact .refl _
  · exact tcapsOnly_delegate outcome
  · refine (tcapsOnly_delegate outcome).trans ?_
    unfold tcapDelete
    simp only
    split_ifs <;> exact ⟨_, _, rfl⟩

end Tcaps

namespace Core

structure Similar (s s' : Core) : Prop where
  threads : SamePart Thread.essence s.threads s'.threads
  current : SameCurrent s.cosInfo s'.cosInfo
  pgtbl : s'.pgtbl = s.pgtbl
  ltbl : s'.ltbl = s.ltbl

variable {s s' s₁ s₂ : Core} {thresh : Nat}

theorem Similar.refl (s : Core) : s.Similar s := ⟨.refl _, .refl _, rfl, rfl⟩

theorem Similar.trans (first : s.Similar s₁) (second : s₁.Similar s₂) : s.Similar s₂ :=
  ⟨first.threads.trans second.threads, first.current.trans second.current,
    second.pgtbl.trans first.pgtbl, second.ltbl.trans first.ltbl⟩

theorem similar_regs (s : Core) (regs : PtRegs) : s.Similar { s with regs := regs } :=
  ⟨.refl _, .refl _, rfl, rfl⟩

theorem similar_withThreads {threads : Threads}
    (similar : SamePart Thread.essence s.threads threads) :
    s.Similar (s.withThreads threads) :=
  ⟨similar, .refl _, rfl, rfl⟩

theorem similar_withTcaps {core : TcapCore} (current : SameCurrent s.cosInfo core.cosInfo) :
    s.Similar (s.withTcaps core) :=
  ⟨.refl _, current, rfl, rfl⟩

theorem similar_budgetsUpdate (thresh : Nat) (s : Core) (t : Nat) :
    s.Similar (s.budgetsUpdate thresh t) := by
  refine Similar.trans (similar_withTcaps ?_) (similar_withThreads ?_)
  · refine SameCurrent.trans ?_ (tcapsOnly_consume thresh
      ⟨s.tcaps, { s.cosInfo with cycles := s.tsc }⟩ s.cosInfo.currTcap _).current
    exact ⟨rfl, rfl, rfl⟩
  · exact samePart_modify fun _ => rfl

theorem similar_tcapCurrentSet (s : Core) (t : Nat) : s.Similar (s.tcapCurrentSet t) := by
  unfold tcapCurrentSet
  simp only
  split_ifs <;> exact ⟨.refl _, ⟨rfl, rfl, rfl⟩, rfl, rfl⟩

theorem sameCurrent_timerUpdate {cosInfo cosInfo' : CosCpuLocalInfo} {left timeout now : Nat}
    (result : tcapTimerUpdate cosInfo left timeout now = .ok cosInfo') :
    SameCurrent cosInfo cosInfo' := by
  unfold tcapTimerUpdate at result
  simp only at result
  split_ifs at result <;> cases result <;> exact ⟨rfl, rfl, rfl⟩

theorem similar_arcvNext {thd : Nat} {result : Core × Nat × Nat × Nat}
    (chosen : s.arcvNext thd = .ok result) : s.Similar result.1 := by
  unfold arcvNext at chosen
  split at chosen
  · obtain ⟨next, -, rest⟩ := bind_eq_ok.mp chosen
    obtain ⟨tc, -, rest⟩ := bind_eq_ok.mp rest
    cases rest
    exact .refl s
  · split at chosen
    · cases chosen
    · cases chosen
      exact similar_withTcaps ⟨rfl, rfl, rfl⟩

theorem similar_schedTok {threads : Threads} {rcvt tok : Nat}
    (validated : schedTokValidate s.threads rcvt tok = .ok (some threads)) :
    s.Similar (s.withThreads threads) := by
  unfold schedTokValidate at validated
  split_ifs at validated <;> cases validated
  exact similar_withThreads (samePart_modify fun _ => rfl)

theorem similar_schedulerSet (s : Core) (t sched : Nat) :
    s.Similar (s.withThreads (s.threads.schedulerSet t sched)) :=
  similar_withThreads (samePart_modify fun _ => rfl)

end Core

inductive Mark where
  | preempted
  | rcving
  deriving DecidableEq, Repr

/-- How a kernel entry prepares the core before it returns or switches, with the mark
that the current thread has got. -/
inductive Prepared (s : Core) : Option Mark → Core → Prop where
  | start : Prepared s none s
  | similar {mark : Option Mark} {s₁ s₂ : Core} : Prepared s mark s₁ → s₁.Similar s₂ →
      Prepared s mark s₂
  | send {mark : Option Mark} {s₁ : Core} {threads : Threads} (t : Nat) : Prepared s mark s₁ →
      (s₁.threads.pendingInc t).notifyParent t = .ok threads →
      Prepared s mark (s₁.withThreads threads)
  | notify {mark : Option Mark} {s₁ : Core} {threads : Threads} (t : Nat) : Prepared s mark s₁ →
      s₁.threads.notifyParent t = .ok threads → Prepared s mark (s₁.withThreads threads)
  | preempt {s₁ : Core} : Prepared s none s₁ →
      Prepared s (some .preempted) (s₁.markPreempted s.cosInfo.currThd)
  | block {s₁ s₂ : Core} {threads : Threads} (all : Bool) (timeout : Nat) : Prepared s none s₁ →
      s₁.threads.notifyParent s.cosInfo.currThd = .ok threads →
      (s₁.withThreads threads).Similar s₂ →
      Prepared s (some .rcving) (s₂.markRcving s.cosInfo.currThd all timeout)

theorem Core.Similar.stacks {s s' : Core} (similar : s.Similar s') :
    SamePart Thread.stack s.threads s'.threads :=
  similar.threads.map Thread.stack

theorem Core.Similar.states {s s' : Core} (similar : s.Similar s') :
    SamePart Thread.state s.threads s'.threads :=
  similar.threads.map Thread.state

theorem Prepared.stacks_kept {s s₁ : Core} {mark : Option Mark} (prepared : Prepared s mark s₁) :
    SamePart Thread.stack s.threads s₁.threads ∧ SameCurrent s.cosInfo s₁.cosInfo ∧
      s₁.pgtbl = s.pgtbl ∧ s₁.ltbl = s.ltbl := by
  induction prepared with
  | start => exact ⟨.refl _, .refl _, rfl, rfl⟩
  | similar before similar kept =>
    obtain ⟨threads, current, pgtbl, ltbl⟩ := kept
    exact ⟨threads.trans similar.stacks, current.trans similar.current, similar.pgtbl.trans pgtbl,
      similar.ltbl.trans ltbl⟩
  | send t before sent kept =>
    refine ⟨kept.1.trans (SamePart.trans ?_ ((listsOnly_notifyLoop sent).map Thread.stack)), kept.2⟩
    exact samePart_modify fun _ => rfl
  | notify t before notified kept =>
    exact ⟨kept.1.trans ((listsOnly_notifyLoop notified).map Thread.stack), kept.2⟩
  | preempt before kept =>
    refine ⟨kept.1.trans ?_, kept.2⟩
    dsimp only [Core.markPreempted, Core.withThreads]
    exact samePart_modify fun _ => rfl
  | block all timeout before notified similar kept =>
    obtain ⟨threads, current, pgtbl, ltbl⟩ := kept
    have notified := (listsOnly_notifyLoop notified).map Thread.stack
    refine ⟨threads.trans (notified.trans (similar.stacks.trans ?_)), current.trans similar.current,
      similar.pgtbl.trans pgtbl, similar.ltbl.trans ltbl⟩
    dsimp only [Core.markRcving, Core.withThreads]
    exact samePart_modify fun _ => rfl

/-- How an entry ends: it returns to the current thread, delivers its pending
notifications or switches.  A switch after a mark goes to a thread with the property
`target`.  Apart from the switch, it can only fail an assertion about marks when the
current thread is preempted. -/
inductive Entered (s : Core) (target : Nat → Prop) : Except Fault Core → Prop where
  | back {s₁ : Core} : Prepared s none s₁ → Entered s target (.ok s₁)
  | deliver {s₁ : Core} {threads : Threads} {regs regs' : PtRegs} : Prepared s none s₁ →
      thdRcvcapPendingDeliver s₁.threads s.cosInfo.currThd regs = .ok (threads, regs') →
      Entered s target (.ok { s₁ with threads := threads, regs := regs' })
  | switch {mark : Option Mark} {s₁ : Core} {next : Nat} {regs : PtRegs} : Prepared s mark s₁ →
      (mark ≠ none → target next) →
      Entered s target (s₁.thdSwitch s.cosInfo.currThd next
        ((s.threads s.cosInfo.currThd).invstk s.cosInfo.invstkTop).compInfo regs)
  | after {s₁ s₂ : Core} : Entered s target (.ok s₁) → s₁.Similar s₂ → Entered s target (.ok s₂)
  | fault {fault : Fault} : fault ≠ .marks → Entered s target (.error fault)
  | preempted {s₁ : Core} : Prepared s none s₁ →
      (s₁.threads s.cosInfo.currThd).state.preempted = true → Entered s target (.error .marks)

def Core.currentComp (s : Core) : CompInfo :=
  ((s.threads s.cosInfo.currThd).invstk s.cosInfo.invstkTop).compInfo

def MarksFree {Alpha : Type} (computation : Except Fault Alpha) : Prop :=
  computation ≠ .error .marks

section MarksFree

variable {Alpha Beta : Type}

@[simp]
theorem marksFree_ok (value : Alpha) : MarksFree (.ok value) := nofun

@[simp]
theorem marksFree_error {fault : Fault} :
    MarksFree (.error fault : Except Fault Alpha) ↔ fault ≠ .marks := by
  simp [MarksFree]

theorem MarksFree.bind {first : Except Fault Alpha} {rest : Alpha → Except Fault Beta}
    (before : MarksFree first) (after : ∀ value, MarksFree (rest value)) :
    MarksFree (first >>= rest) := by
  intro failed
  rcases bind_eq_error.mp failed with failed | ⟨value, -, failed⟩
  · exact before failed
  · exact after value failed

theorem marksFree_deref (pointer : Option Nat) : MarksFree (deref pointer) := by
  cases pointer <;> simp [deref]

theorem marksFree_notifyLoop (left : Nat) (threads : Threads) (prev : Nat) (curr : Option Nat) :
    MarksFree (Threads.notifyLoop left threads prev curr) := by
  fun_induction Threads.notifyLoop left threads prev curr with
  | case6 left threads prev curr different enqueued rcving ih => exact ih
  | _ => simp

theorem marksFree_invstkCurrent (cpu : CpuState) : MarksFree (thdInvstkCurrent cpu) := by
  unfold thdInvstkCurrent Thread.invstkAt
  split_ifs <;> simp

theorem marksFree_pendingDeliver (threads : Threads) (thd : Nat) (regs : PtRegs) :
    MarksFree (thdRcvcapPendingDeliver threads thd regs) := by
  intro failed
  cases thdRcvcapPendingDeliver_error failed

theorem marksFree_budgetXfer (core : TcapCore) (d s cycles : Nat) :
    MarksFree (tcapBudgetXfer core d s cycles) := by
  unfold tcapBudgetXfer
  simp only
  generalize (if cycles = 0 then (core.tcaps s).budget else cycles) = amount
  split_ifs <;> simp

theorem marksFree_grant (core : TcapCore) (dst src cycles prio : Nat) (m : DelegMerge) :
    MarksFree (tcapGrant core dst src cycles prio m) := by
  refine (marksFree_budgetXfer core dst src cycles).bind fun ⟨ret, after⟩ => ?_
  simp only
  split_ifs
  · simp
  · simp
  · cases m.si <;> simp

theorem marksFree_delegate (core : TcapCore) (dst src cycles prio : Nat) :
    MarksFree (tcapDelegate core dst src cycles prio) := by
  unfold tcapDelegate
  simp only
  generalize (if prio = 0 then (core.tcaps src).schedInfo.prio else prio) = prio'
  split_ifs <;> simp [marksFree_grant]

theorem marksFree_merge (core : TcapCore) (dst rm : Nat) : MarksFree (tcapMerge core dst rm) := by
  unfold tcapMerge
  split_ifs
  · simp
  · simp
  · refine (marksFree_delegate core dst rm 0 _).bind fun result => ?_
    simp only
    split_ifs <;> simp

end MarksFree

namespace Core

section MarksFree

variable (s : Core)

theorem marksFree_chooseExpended (thdNext tcNext : Nat) (timer : Bool) :
    MarksFree (s.chooseExpended thdNext tcNext timer) := by
  have first : MarksFree (s.expendedTcap thdNext tcNext timer) := by
    unfold expendedTcap
    split_ifs <;> simp [marksFree_deref]
  refine first.bind fun tc => ?_
  split_ifs
  · cases s.cosInfo.tcaps.head? with
    | none => simp
    | some other =>
      simp only
      split_ifs
      · simp
      · exact (marksFree_deref _).bind fun _ => (marksFree_deref _).bind fun _ => marksFree_ok _
  · simp

theorem marksFree_choose (thdCurr thdNext tcNext timeout : Nat) (timer : Bool) :
    MarksFree (s.choose thdCurr thdNext tcNext timeout timer) := by
  unfold choose
  split_ifs
  · simp
  · exact s.marksFree_chooseExpended thdNext tcNext timer
  · refine MarksFree.bind ?_ fun _ => marksFree_ok _
    unfold timeoutThread
    split_ifs
    · exact (marksFree_deref _).bind fun _ => marksFree_deref _
    · exact marksFree_deref _
  · simp

theorem marksFree_settle (choice : Choice) : MarksFree (s.settle choice) := by
  have notified : MarksFree (s.notifyAway choice) := by
    unfold notifyAway
    split_ifs
    · exact marksFree_notifyLoop _ _ _ _
    · simp
  refine notified.bind fun threads => MarksFree.bind ?_ fun cosInfo => marksFree_ok _
  unfold tcapTimerUpdate
  simp only
  split_ifs <;> simp

theorem marksFree_schedTok (threads : Threads) (rcvt tok : Nat) :
    MarksFree (schedTokValidate threads rcvt tok) := by
  unfold schedTokValidate
  split_ifs <;> simp

theorem marksFree_asndProcess (rcvThd thd rcvTcap tcap : Nat) (yield : Bool) :
    MarksFree (s.asndProcess rcvThd thd rcvTcap tcap yield) := by
  refine (marksFree_notifyLoop _ _ _ _).bind fun threads => ?_
  split_ifs <;> simp

theorem marksFree_expendedNext : MarksFree s.expendedNext := by
  refine (marksFree_deref _).bind fun ep => ?_
  cases s.threads.rcvcapSched ep with
  | none => simp
  | some next =>
    simp only
    split_ifs <;> simp

theorem marksFree_arcvNext (thd : Nat) : MarksFree (s.arcvNext thd) := by
  unfold arcvNext
  split
  · exact (marksFree_deref _).bind fun _ => (marksFree_deref _).bind fun _ => marksFree_ok _
  · split <;> simp

theorem marksFree_wakeup (core : TcapCore) (tc prio budget thd : Nat) :
    MarksFree (tcapWakeup core tc prio budget thd) := by
  unfold tcapWakeup
  simp only
  split <;> split_ifs <;> simp

end MarksFree

end Core

section Invocations

def Thread.unstacked (t : Thread) : Thread := { t with invstk := fun _ => ⟨⟨⟨0, 0⟩, 0, 0⟩, 0, 0⟩ }

structure CpuState.StacksOnly (cpu cpu' : CpuState) : Prop where
  threads : SamePart Thread.unstacked cpu.threads cpu'.threads
  cosInfo : ∃ top, cpu'.cosInfo = { cpu.cosInfo with invstkTop := top }

variable {cpu cpu' : CpuState}

theorem CpuState.StacksOnly.current (only : cpu.StacksOnly cpu') :
    cpu'.cosInfo.currThd = cpu.cosInfo.currThd := by
  obtain ⟨top, same⟩ := only.cosInfo
  rw [same]

theorem stacksOnly_push {ci : CompInfo} {ip sp : Nat}
    (push : thdInvstkPush cpu ci ip sp = .ok (some cpu')) : cpu.StacksOnly cpu' := by
  unfold thdInvstkPush at push
  simp only at push
  by_cases full : cpu.cosInfo.invstkTop ≥ thdInvstkMaxsz
  · rw [if_pos full] at push
    cases push
  rw [if_neg full] at push
  obtain ⟨saved, first, remaining⟩ := bind_eq_ok.mp push
  obtain ⟨entered, second, last⟩ := bind_eq_ok.mp remaining
  unfold Thread.setInvstk at first second
  split_ifs at first second
  cases first
  cases second
  cases last
  refine ⟨fun t => ?_, _, rfl⟩
  by_cases same : t = cpu.cosInfo.currThd
  · subst same
    simp [Thread.unstacked]
  · simp [same]

theorem stacksOnly_sinv {ltbl : Ltbl} {sinvc : CapSinv} {regs : PtRegs}
    (result : sinvCall ltbl cpu sinvc regs = .ok cpu') : cpu.StacksOnly cpu' := by
  unfold sinvCall at result
  simp only at result
  split at result
  · cases result
    exact ⟨.refl _, _, rfl⟩
  · obtain ⟨pushed, push, rest⟩ := bind_eq_ok.mp result
    cases pushed with
    | none =>
      cases rest
      exact ⟨.refl _, _, rfl⟩
    | some after =>
      cases rest
      have only := stacksOnly_push push
      exact ⟨only.threads, only.cosInfo⟩

theorem stacksOnly_sret {ltbl : Ltbl} {regs : PtRegs}
    (result : sretRet ltbl cpu regs = .ok cpu') : cpu.StacksOnly cpu' := by
  unfold sretRet at result
  obtain ⟨popped, pop, rest⟩ := bind_eq_ok.mp result
  unfold thdInvstkPop at pop
  by_cases bottom : cpu.cosInfo.invstkTop = 0
  · rw [if_pos bottom] at pop
    cases pop
    cases rest
    exact ⟨.refl _, _, rfl⟩
  · rw [if_neg bottom] at pop
    obtain ⟨entry, -, found⟩ := bind_eq_ok.mp pop
    cases found
    simp only at rest
    split_ifs at rest
    all_goals
      cases rest
      exact ⟨.refl _, _, rfl⟩

theorem marksFree_setInvstk (thd : Thread) (index : Nat) (entry : InvstkEntry) :
    MarksFree (thd.setInvstk index entry) := by
  unfold Thread.setInvstk
  split_ifs <;> simp

theorem marksFree_sinv (ltbl : Ltbl) (cpu : CpuState) (sinvc : CapSinv) (regs : PtRegs) :
    MarksFree (sinvCall ltbl cpu sinvc regs) := by
  unfold sinvCall
  simp only
  split
  · simp
  · refine MarksFree.bind ?_ fun pushed => by cases pushed <;> simp
    unfold thdInvstkPush
    simp only
    split
    · simp
    · exact (marksFree_setInvstk _ _ _).bind fun _ => (marksFree_setInvstk _ _ _).bind fun _ =>
        marksFree_ok _

theorem marksFree_sret (ltbl : Ltbl) (cpu : CpuState) (regs : PtRegs) :
    MarksFree (sretRet ltbl cpu regs) := by
  refine MarksFree.bind ?_ fun popped => ?_
  · unfold thdInvstkPop
    split
    · simp
    · exact (marksFree_invstkCurrent _).bind fun _ => marksFree_ok _
  · cases popped with
    | none => simp
    | some popped =>
      simp only
      split_ifs <;> simp

end Invocations

namespace Core

/-- The cycles since the last entry use up the budget of the current tcap. -/
def Depleted (thresh : Nat) (s : Core) : Prop :=
  (s.tcaps s.cosInfo.currTcap).budget ≠ tcapResInf ∧
    (s.expended % 2 ^ 32 ≥ (s.tcaps s.cosInfo.currTcap).budget ∨
      cyclesSame (s.expended % 2 ^ 32) (s.tcaps s.cosInfo.currTcap).budget thresh)

instance (thresh : Nat) (s : Core) : Decidable (s.Depleted thresh) :=
  inferInstanceAs (Decidable (_ ∧ _))

/-- The thread that schedules for a tcap. -/
def schedulerOf (s : Core) (tc : Nat) : Option Nat :=
  (s.tcaps tc).arcvEp.bind s.threads.rcvcapSched

/-- The thread to go on with when `next` is to run with `tc`: where the budgets of the
current tcap and of `tc` are used up, the scheduler of the first other active tcap. -/
def goesOn (thresh : Nat) (s : Core) (next tc : Nat) : Option Nat :=
  if s.Depleted thresh ∧ (tc = s.cosInfo.currTcap ∨ (s.tcaps tc).budget = 0) then
    (s.cosInfo.tcaps.filter (· ≠ s.cosInfo.currTcap)).head?.bind s.schedulerOf
  else some next

/-- The thread that the timer goes on with. -/
def timerNext (thresh : Nat) (s : Core) : Option Nat :=
  if s.Depleted thresh then do
    let next ← s.schedulerOf s.cosInfo.currTcap
    s.goesOn thresh next (← (s.threads next).rcvcap.rcvcapTcap)
  else if (s.threads s.cosInfo.currThd).rcvcap.isbound ∧
      (s.threads s.cosInfo.currThd).rcvcap.refcnt > 0 then s.schedulerOf s.cosInfo.currTcap
  else (s.threads s.cosInfo.currThd).schedulerThread

/-- The thread and the tcap for which a thread blocks. -/
def blocksFor (s : Core) : Option (Nat × Nat) :=
  match s.cosInfo.nextTi.thd with
  | none => do
    let next ← s.threads.arcvNotif s.cosInfo.currThd
    let tc ← (s.threads s.cosInfo.currThd).rcvcap.rcvcapTcap
    some (next, tc)
  | some next => s.cosInfo.nextTi.tc.map fun tc => (next, tc)

/-- The thread that an entry switches to after it has marked the current thread; `none`
when it does not mark it. -/
def markTarget (thresh : Nat) (s : Core) : CoreEvent → Option Nat
  | .timer _ => (s.timerNext thresh).filter (· ≠ s.cosInfo.currThd)
  | .arcv arcvc regs =>
    if arcvc.thd = s.cosInfo.currThd ∧ arcvc.cpuid = s.cosInfo.cpuid ∧
        thdRcvcapPending s.threads s.cosInfo.currThd = 0 ∧ ¬rcvNonBlocking regs.get1 then do
      let (next, tc) ← s.blocksFor
      if next = s.cosInfo.currThd then none else s.goesOn thresh next tc
    else none
  | .hwAsnd caps asndc _ =>
    if asndc.arcvCapid ≠ 0 ∧ asndc.arcvCpuid = s.cosInfo.cpuid then do
      let arcv ← s.asndToArcv caps asndc
      let tc ← (s.threads arcv.thd).rcvcap.rcvcapTcap
      if arcv.thd ≠ s.cosInfo.currThd ∧ tcapHigherPrio s.tcaps tc s.cosInfo.currTcap then
        s.goesOn thresh arcv.thd tc
      else none
    else none
  | _ => none

variable {s s' s₁ s₂ : Core} {thresh : Nat} {target : Nat → Prop} {mark : Option Mark}
    {next tc timeout prio rcvThd rcvTcap src : Nat} {regs : PtRegs} {caps : CapLookup}
    {yield : Bool} {asnd : CapAsnd} {arcv : CapArcv}

/-- What the choice of a thread reads is the same. -/
structure SameAccounts (s s₁ : Core) : Prop where
  tcaps : ∀ t, (s₁.tcaps t).budget = (s.tcaps t).budget ∧ (s₁.tcaps t).arcvEp = (s.tcaps t).arcvEp
  cosInfo : ∃ nextTi, s₁.cosInfo = { s.cosInfo with nextTi }
  tsc : s₁.tsc = s.tsc
  sched : s₁.threads.rcvcapSched = s.threads.rcvcapSched

theorem SameAccounts.goesOn (same : SameAccounts s s₁) :
    s₁.goesOn thresh next tc = s.goesOn thresh next tc := by
  obtain ⟨nextTi, cosInfo⟩ := same.cosInfo
  have schedulers : s₁.schedulerOf = s.schedulerOf := by
    funext tc
    rw [schedulerOf, schedulerOf, (same.tcaps tc).2, same.sched]
  simp only [Core.goesOn, Depleted, expended, cosInfo, same.tsc, (same.tcaps _).1, schedulers]
  rfl

theorem deref_eq_ok {pointer : Option Nat} {object : Nat} :
    deref pointer = .ok object ↔ pointer = some object := by
  cases pointer <;> simp [deref]

/-- What `thd_rcvcap_sched` reads of a thread. -/
def schedPart (t : Thread) : Nat × Option Nat := (t.rcvcap.refcnt, t.rcvcap.rcvcapThdNotif)

theorem rcvcapSched_congr {threads threads' : Threads}
    (same : SamePart schedPart threads threads') :
    threads'.rcvcapSched = threads.rcvcapSched := by
  funext t
  have refcnt := congrArg Prod.fst (same t)
  have notif := congrArg Prod.snd (same t)
  dsimp only [schedPart] at refcnt notif
  rw [Threads.rcvcapSched, Threads.rcvcapSched, refcnt, notif]

theorem budgetsUpdate_part {Alpha : Type} {part : Thread → Alpha}
    (kept : ∀ (th : Thread) exec, part { th with exec } = part th) (thresh : Nat) (s : Core)
    (t : Nat) : SamePart part s.threads (s.budgetsUpdate thresh t).threads := by
  dsimp only [budgetsUpdate, withThreads]
  exact samePart_modify fun th => kept th _

theorem budgetsUpdate_schedulerOf (thresh : Nat) (s : Core) (t tc : Nat) :
    (s.budgetsUpdate thresh t).schedulerOf tc = s.schedulerOf tc := by
  have sched : (s.budgetsUpdate thresh t).threads.rcvcapSched = s.threads.rcvcapSched :=
    rcvcapSched_congr (budgetsUpdate_part (fun _ _ => rfl) thresh s t)
  have bound : ((s.budgetsUpdate thresh t).tcaps tc).arcvEp = (s.tcaps tc).arcvEp := by
    simp only [budgetsUpdate, withTcaps, withThreads, charged, tcapConsume]
    by_cases same : tc = s.cosInfo.currTcap
    · subst same
      split_ifs <;> simp [TcapCore.modify, TcapCore.activeRem, Tcap.declassify]
    · split_ifs <;> simp [TcapCore.modify, TcapCore.activeRem, same]
  rw [schedulerOf, schedulerOf, sched, bound]

theorem budgetsUpdate_depleted (depleted : s.Depleted thresh) (t : Nat) :
    (s.budgetsUpdate thresh t).cosInfo.tcaps =
        s.cosInfo.tcaps.filter (· ≠ s.cosInfo.currTcap) ∧
      ∀ tc, ((s.budgetsUpdate thresh t).tcaps tc).budget =
        if tc = s.cosInfo.currTcap then 0 else (s.tcaps tc).budget := by
  simp only [budgetsUpdate, withTcaps, withThreads, charged, tcapConsume, if_neg depleted.1,
    if_pos depleted.2]
  refine ⟨rfl, fun tc => ?_⟩
  by_cases same : tc = s.cosInfo.currTcap
  · subst same
    simp [TcapCore.modify, TcapCore.activeRem, Tcap.declassify]
  · simp [TcapCore.modify, TcapCore.activeRem, same]

theorem budgetsUpdate_left (left : ¬s.Depleted thresh) (t : Nat) :
    ((s.budgetsUpdate thresh t).tcaps s.cosInfo.currTcap).budget ≠ 0 := by
  simp only [budgetsUpdate, withTcaps, withThreads, charged, tcapConsume]
  split_ifs with infinite used
  · rw [infinite]
    decide
  · exact absurd ⟨infinite, used⟩ left
  · have less := not_le.mp (not_or.mp used).1
    simp only [TcapCore.modify, Function.update_self]
    omega

theorem budgetsUpdate_currTcap (thresh : Nat) (s : Core) (t : Nat) :
    (s.budgetsUpdate thresh t).cosInfo.currTcap = s.cosInfo.currTcap :=
  (tcapsOnly_consume thresh ⟨s.tcaps, { s.cosInfo with cycles := s.tsc }⟩ _ _).currTcap

theorem chooseExpended_goesOn {thd aim : Nat} {timer : Bool} {choice : Choice}
    (depleted : s.Depleted thresh)
    (aimed : (s.budgetsUpdate thresh thd).expendedTcap next tc timer = .ok aim)
    (chosen : (s.budgetsUpdate thresh thd).chooseExpended next tc timer = .ok choice) :
    s.goesOn thresh next aim = some choice.thd := by
  obtain ⟨list, budgets⟩ := budgetsUpdate_depleted depleted thd
  unfold chooseExpended at chosen
  rw [aimed, ok_bind, budgets, list] at chosen
  have empty : (if aim = s.cosInfo.currTcap then 0 else (s.tcaps aim).budget) = 0 ↔
      aim = s.cosInfo.currTcap ∨ (s.tcaps aim).budget = 0 := by
    split_ifs with same <;> simp [same]
  rw [Core.goesOn]
  by_cases none : (if aim = s.cosInfo.currTcap then 0 else (s.tcaps aim).budget) = 0
  · rw [if_pos ⟨depleted, empty.mp none⟩]
    rw [if_pos none] at chosen
    split at chosen
    · cases chosen
    · rename_i first found
      rw [found, Option.bind_some, ← budgetsUpdate_schedulerOf thresh s thd]
      split_ifs at chosen
      obtain ⟨ep, bound, rest⟩ := bind_eq_ok.mp chosen
      obtain ⟨target, scheduled, rest⟩ := bind_eq_ok.mp rest
      cases rest
      rw [schedulerOf, deref_eq_ok.mp bound]
      exact deref_eq_ok.mp scheduled
  · rw [if_neg fun both => none (empty.mpr both.2)]
    rw [if_neg none] at chosen
    cases chosen
    rfl

theorem choose_goesOn {thd : Nat} {choice : Choice}
    (chosen : (s.budgetsUpdate thresh thd).choose thd next tc timeout false = .ok choice) :
    s.goesOn thresh next tc = some choice.thd := by
  unfold choose at chosen
  rw [budgetsUpdate_currTcap] at chosen
  by_cases depleted : s.Depleted thresh
  · rw [(budgetsUpdate_depleted depleted thd).2, if_pos rfl, if_pos rfl] at chosen
    split_ifs at chosen
    exact chooseExpended_goesOn depleted rfl chosen
  · rw [if_neg (budgetsUpdate_left depleted thd)] at chosen
    cases chosen
    exact if_neg fun both => depleted both.1

theorem choose_timerNext {choice : Choice} (expended : s.expendedNext = .ok next)
    (chosen : (s.budgetsUpdate thresh s.cosInfo.currThd).choose s.cosInfo.currThd next
      s.cosInfo.currTcap 0 true = .ok choice) :
    s.timerNext thresh = some choice.thd := by
  have scheduler : s.schedulerOf s.cosInfo.currTcap = some next := by
    unfold expendedNext at expended
    obtain ⟨ep, bound, rest⟩ := bind_eq_ok.mp expended
    rw [schedulerOf, deref_eq_ok.mp bound, Option.bind_some]
    split at rest
    · cases rest
    · rename_i found
      split_ifs at rest
      cases rest
      exact found
  unfold choose at chosen
  rw [budgetsUpdate_currTcap] at chosen
  unfold timerNext
  by_cases depleted : s.Depleted thresh
  · rw [(budgetsUpdate_depleted depleted _).2, if_pos rfl, if_pos rfl] at chosen
    rw [if_pos depleted, scheduler]
    split_ifs at chosen
    have kept : ((s.budgetsUpdate thresh s.cosInfo.currThd).threads next).rcvcap =
        (s.threads next).rcvcap := budgetsUpdate_part (fun _ _ => rfl) thresh s _ next
    obtain ⟨tc, aimed, -⟩ := bind_eq_ok.mp chosen
    have bound : (s.threads next).rcvcap.rcvcapTcap = some tc := by
      rw [← kept]
      exact deref_eq_ok.mp aimed
    simp only [Option.bind_eq_bind, Option.bind_some, bound]
    exact chooseExpended_goesOn depleted aimed chosen
  · rw [if_neg (budgetsUpdate_left depleted _), if_pos rfl] at chosen
    rw [if_neg depleted]
    obtain ⟨target, found, rest⟩ := bind_eq_ok.mp chosen
    cases rest
    have rcvcap : ((s.budgetsUpdate thresh s.cosInfo.currThd).threads s.cosInfo.currThd).rcvcap =
        (s.threads s.cosInfo.currThd).rcvcap :=
      budgetsUpdate_part (fun _ _ => rfl) thresh s _ _
    have scheduler : ((s.budgetsUpdate thresh s.cosInfo.currThd).threads
        s.cosInfo.currThd).schedulerThread = (s.threads s.cosInfo.currThd).schedulerThread :=
      budgetsUpdate_part (fun _ _ => rfl) thresh s _ _
    unfold timeoutThread at found
    rw [rcvcap, scheduler, budgetsUpdate_currTcap] at found
    split_ifs at found ⊢
    · obtain ⟨ep, bound, found⟩ := bind_eq_ok.mp found
      rw [← budgetsUpdate_schedulerOf thresh s s.cosInfo.currThd, schedulerOf,
        deref_eq_ok.mp bound]
      exact deref_eq_ok.mp found
    · exact deref_eq_ok.mp found

theorem thdInvstkCurrent_eq {cpu : CpuState} {entry : InvstkEntry}
    (current : thdInvstkCurrent cpu = .ok entry) :
    entry = (cpu.threads cpu.cosInfo.currThd).invstk cpu.cosInfo.invstkTop := by
  unfold thdInvstkCurrent Thread.invstkAt at current
  split_ifs at current
  cases current
  rfl

theorem Prepared.settle {choice : Choice} (prepared : Prepared s mark s₁)
    (settled : s₁.settle choice = .ok s₂) : Prepared s mark s₂ := by
  unfold Core.settle at settled
  obtain ⟨threads, notified, rest⟩ := bind_eq_ok.mp settled
  obtain ⟨cosInfo, timed, rest⟩ := bind_eq_ok.mp rest
  cases rest
  have before : Prepared s mark (s₁.withThreads threads) := by
    unfold notifyAway at notified
    by_cases away : choice.switchAway = true
    · rw [if_pos away] at notified
      exact .notify choice.thd prepared notified
    · rw [if_neg away] at notified
      cases notified
      exact .similar prepared (.refl s₁)
  refine .similar before (Similar.trans ?_ (similar_tcapCurrentSet _ choice.tc))
  exact ⟨.refl _, sameCurrent_timerUpdate timed, rfl, rfl⟩

theorem Prepared.asndProcess {thd tcap : Nat} {result : Threads × Nat × Nat}
    (prepared : Prepared s mark s₁)
    (processed : s₁.asndProcess rcvThd thd rcvTcap tcap yield = .ok result) :
    Prepared s mark (s₁.withThreads result.1) := by
  unfold Core.asndProcess at processed
  obtain ⟨threads, notified, rest⟩ := bind_eq_ok.mp processed
  split_ifs at rest
  all_goals
    cases rest
    exact .send rcvThd prepared notified

theorem asndProcess_aims {thd tcap : Nat} {threads : Threads}
    (sent : s.asndProcess rcvThd thd rcvTcap tcap false = .ok (threads, next, tc))
    (other : next ≠ thd) :
    (next = rcvThd ∧ tc = rcvTcap ∧ tcapHigherPrio s.tcaps rcvTcap tcap) ∧
      SamePart schedPart s.threads threads := by
  unfold asndProcess at sent
  obtain ⟨after, notified, rest⟩ := bind_eq_ok.mp sent
  split at rest
  next higher =>
    cases rest
    refine ⟨⟨rfl, rfl, higher.resolve_left nofun⟩, ?_⟩
    refine SamePart.trans ?_ ((listsOnly_notifyLoop notified).map schedPart)
    exact samePart_modify fun _ => rfl
  next =>
    cases rest
    exact absurd rfl other

theorem arcvNext_accounts {threads : Threads} {s₁ : Core} (kept : ListsOnly s.threads threads)
    (chosen : (s.withThreads threads).arcvNext s.cosInfo.currThd = .ok (s₁, next, tc, timeout)) :
    s.blocksFor = some (next, tc) ∧ s.SameAccounts s₁ := by
  have sched : threads.rcvcapSched = s.threads.rcvcapSched := rcvcapSched_congr (kept.map schedPart)
  unfold arcvNext at chosen
  unfold blocksFor
  cases saved : s.cosInfo.nextTi.thd with
  | none =>
    simp only [withThreads, saved] at chosen
    obtain ⟨next, notif, rest⟩ := bind_eq_ok.mp chosen
    obtain ⟨tc, bound, rest⟩ := bind_eq_ok.mp rest
    cases rest
    refine ⟨?_, fun _ => ⟨rfl, rfl⟩, ⟨_, rfl⟩, rfl, sched⟩
    have notif := deref_eq_ok.mp notif
    have bound := deref_eq_ok.mp bound
    simp only [Threads.arcvNotif, kept.rcvcap] at notif bound ⊢
    simp [notif, bound]
  | some thd =>
    simp only [withThreads, saved] at chosen
    cases tcap : s.cosInfo.nextTi.tc with
    | none =>
      simp only [tcap] at chosen
      cases chosen
    | some tc =>
      simp only [tcap] at chosen
      cases chosen
      refine ⟨rfl, fun t => ?_, ⟨_, rfl⟩, rfl, sched⟩
      simp only [withTcaps, tcapCore, TcapCore.modify]
      by_cases same : t = tc
      · subst same
        simp [Tcap.setprio]
      · simp [same]

theorem sameCurrent_wakeup {core core' : TcapCore} {budget thd : Nat}
    (result : tcapWakeup core tc prio budget thd = .ok core') :
    SameCurrent core.cosInfo core'.cosInfo := by
  unfold tcapWakeup at result
  simp only at result
  split at result
  · split_ifs at result
    cases result
    exact ⟨rfl, rfl, rfl⟩
  · split_ifs at result <;> cases result <;> exact ⟨rfl, rfl, rfl⟩

end Core

/-- A core whose threads are in the component `comp`. -/
def freshCore (comp : CompInfo) : Core where
  toCpuState := freshCpu comp
  tcaps := (TcapWorld.boot 0 1).core.tcaps
  ltbl := ltblInit
  tsc := 0

end Composite
