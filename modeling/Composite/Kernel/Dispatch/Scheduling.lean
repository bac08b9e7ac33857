import Composite.Kernel.Dispatch.Steps

/-!
# What a kernel entry does to the tcaps

An entry either leaves tcaps and token counters alone, or it validates a token or works on
tcaps, and then returns or goes on with `cap_update`.  The tcap
that it goes on with is the current one, one that was found to have budget, or one that it
yields to without a check.
-/

namespace Composite

open Function Checked Option

abbrev SameCounts (threads threads' : Threads) : Prop :=
  SamePart (fun t => t.rcvcap.schedCount) threads threads'

section Counts

variable {threads threads' : Threads}

theorem ListsOnly.counts (only : ListsOnly threads threads') : SameCounts threads threads' :=
  only.map fun t => t.rcvcap.schedCount

theorem SameCounts.count (same : SameCounts threads threads') (t : Nat) :
    (threads' t).rcvcap.schedCount = (threads t).rcvcap.schedCount := same t

theorem sameCounts_schedulerSet (threads : Threads) (t sched : Nat) :
    SameCounts threads (threads.schedulerSet t sched) :=
  samePart_modify fun _ => rfl

theorem undelivered_count : Undelivered fun t : Thread => t.rcvcap.schedCount :=
  fun _ _ _ _ _ _ _ _ => rfl

end Counts

namespace Core

/-- The cores agree on the tcaps, on what the core knows about them, on the time and on the
token counters. -/
structure SameScheduling (s s' : Core) : Prop where
  tcaps : s'.tcaps = s.tcaps
  currTcap : s'.cosInfo.currTcap = s.cosInfo.currTcap
  active : s'.cosInfo.tcaps = s.cosInfo.tcaps
  cycles : s'.cosInfo.cycles = s.cosInfo.cycles
  tsc : s'.tsc = s.tsc
  counts : SameCounts s.threads s'.threads

variable {s s' s₁ s₂ : Core} {thresh : Nat} {next thd tc timeout prio rcvThd rcvTcap : Nat}
    {ci : CompInfo} {regs : PtRegs} {yield : Bool} {caps : CapLookup} {tcapc : CapTcap}

theorem SameScheduling.refl (s : Core) : s.SameScheduling s := ⟨rfl, rfl, rfl, rfl, rfl, .refl _⟩

theorem SameScheduling.trans (first : s.SameScheduling s₁) (second : s₁.SameScheduling s₂) :
    s.SameScheduling s₂ :=
  ⟨second.tcaps.trans first.tcaps, second.currTcap.trans first.currTcap,
    second.active.trans first.active, second.cycles.trans first.cycles,
    second.tsc.trans first.tsc, first.counts.trans second.counts⟩

theorem sameScheduling_regs (s : Core) (regs : PtRegs) : s.SameScheduling { s with regs := regs } :=
  ⟨rfl, rfl, rfl, rfl, rfl, .refl _⟩

theorem sameScheduling_threads {threads : Threads} (counts : SameCounts s.threads threads) :
    s.SameScheduling (s.withThreads threads) := ⟨rfl, rfl, rfl, rfl, rfl, counts⟩

theorem sameScheduling_thdSwitch (switched : s.thdSwitch thd next ci regs = .ok s') :
    s.SameScheduling s' := by
  obtain ⟨cpu, result, rest⟩ := bind_eq_ok.mp switched
  cases rest
  rcases capThdSwitch_cases result with
    ⟨-, threads, after, preempt, updated, rfl⟩ | ⟨-, ⟨unchanged, -⟩ | ⟨-, switched⟩⟩
  · exact ⟨rfl, rfl, rfl, rfl, rfl, samePart_switchUpdate undelivered_count
      (fun _ _ => rfl) updated⟩
  · rw [unchanged]
    exact ⟨rfl, rfl, rfl, rfl, rfl, .refl _⟩
  · obtain ⟨⟨threads, regs', preempted⟩, updated, last⟩ := bind_eq_ok.mp switched
    cases last
    refine ⟨rfl, rfl, rfl, rfl, rfl, ?_⟩
    dsimp only [withCpu]
    refine SamePart.trans ?_
      ((samePart_switchUpdate undelivered_count (fun _ _ => rfl) updated).trans
      (samePart_modify fun _ => rfl))
    dsimp only [thdCurrentUpdate]
    refine SamePart.trans ?_ (samePart_modify fun _ => rfl)
    exact samePart_modify fun _ => rfl

theorem sameScheduling_stacks {cpu : CpuState} (only : s.toCpuState.StacksOnly cpu) :
    s.SameScheduling (s.withCpu cpu) := by
  obtain ⟨top, cosInfo⟩ := only.cosInfo
  have counts : SameCounts s.threads cpu.threads := only.threads.map fun t => t.rcvcap.schedCount
  refine ⟨rfl, ?_, ?_, ?_, rfl, counts⟩ <;> rw [withCpu, cosInfo]

theorem charged_of_ne (thresh : Nat) {t : Nat} (other : t ≠ s.cosInfo.currTcap) :
    (s.charged thresh).tcaps t = s.tcaps t := by
  unfold charged tcapConsume
  split_ifs
  · rfl
  · exact update_of_ne other ..
  · exact update_of_ne other ..

theorem charged_budget (thresh : Nat) (currTcap : s₁.cosInfo.currTcap = s.cosInfo.currTcap)
    (cycles : s₁.cosInfo.cycles = s.cosInfo.cycles) (tsc : s₁.tsc = s.tsc)
    (budget : (s₁.tcaps s.cosInfo.currTcap).budget = (s.tcaps s.cosInfo.currTcap).budget) :
    ((s₁.charged thresh).tcaps s.cosInfo.currTcap).budget =
      ((s.charged thresh).tcaps s.cosInfo.currTcap).budget := by
  unfold charged tcapConsume expended
  simp only [currTcap, cycles, tsc, budget]
  split_ifs
  · exact budget
  · simp [TcapCore.modify, TcapCore.activeRem, Tcap.declassify]
  · simp [TcapCore.modify, budget]

def restored (t : Tcap) : Tcap :=
  if t.permPrio ≠ t.schedInfo.prio then t.setprio t.permPrio else t

/-- What `cap_update` does to the tcaps: it charges the current one, restores its
priority, and makes `tc` the current one. -/
structure Updated (thresh : Nat) (s : Core) (tc : Nat) (s' : Core) : Prop where
  currTcap : s'.cosInfo.currTcap = tc
  active : s'.cosInfo.tcaps = (s.charged thresh).cosInfo.tcaps
  tcaps : ∀ t, s'.tcaps t =
    if t = s.cosInfo.currTcap then restored ((s.charged thresh).tcaps t)
    else (s.charged thresh).tcaps t
  counts : SameCounts s.threads s'.threads

theorem sameCounts_notifyAway {choice : Choice} {threads : Threads}
    (notified : s.notifyAway choice = .ok threads) : SameCounts s.threads threads := by
  unfold notifyAway at notified
  split_ifs at notified
  · exact (listsOnly_notifyLoop notified).counts
  · cases notified
    exact .refl _

theorem tcapCurrentSet_tcaps (s : Core) (tc t : Nat) :
    (s.tcapCurrentSet tc).tcaps t =
      if t = s.cosInfo.currTcap then restored (s.tcaps t) else s.tcaps t := by
  unfold tcapCurrentSet restored
  simp only [withTcaps]
  by_cases here : t = s.cosInfo.currTcap
  · subst here
    by_cases differs : (s.tcaps s.cosInfo.currTcap).permPrio ≠
        (s.tcaps s.cosInfo.currTcap).schedInfo.prio
    · rw [if_pos differs, if_pos rfl, if_pos differs]
      exact update_self ..
    · rw [if_neg differs, if_pos rfl, if_neg differs]
      rfl
  · rw [if_neg here]
    split_ifs
    · exact update_of_ne here ..
    · rfl

theorem capUpdate_updated {timer : Bool}
    (updated : s.capUpdate thresh thd next tc timeout ci regs timer = .ok s') :
    ∃ choice, (s.budgetsUpdate thresh thd).choose thd next tc timeout timer = .ok choice ∧
      Updated thresh s choice.tc s' := by
  obtain ⟨choice, chosen, rest⟩ := bind_eq_ok.mp updated
  obtain ⟨s₁, settled, last⟩ := bind_eq_ok.mp rest
  refine ⟨choice, chosen, ?_⟩
  have settledTo : Updated thresh s choice.tc s₁ := by
    obtain ⟨threads, notified, after⟩ := bind_eq_ok.mp settled
    obtain ⟨cosInfo, timed, final⟩ := bind_eq_ok.mp after
    cases final
    have sameInfo : cosInfo.currTcap = s.cosInfo.currTcap ∧
        cosInfo.tcaps = (s.charged thresh).cosInfo.tcaps := by
      have current : (s.budgetsUpdate thresh thd).cosInfo.currTcap = s.cosInfo.currTcap :=
        (tcapsOnly_consume ..).currTcap
      unfold tcapTimerUpdate at timed
      simp only at timed
      split_ifs at timed
      all_goals
        cases timed
        exact ⟨current, rfl⟩
    refine ⟨?_, ?_, fun t => ?_, ?_⟩
    · unfold tcapCurrentSet
      rfl
    · unfold tcapCurrentSet
      simp only [withTcaps]
      split_ifs <;> exact sameInfo.2
    · rw [tcapCurrentSet_tcaps]
      simp only [sameInfo.1]
      rfl
    · refine SamePart.trans ?_ (sameCounts_notifyAway notified)
      exact budgetsUpdate_part (fun _ _ => rfl) thresh s thd
  have switchedTo (s₂ : Core) (same : s₁.SameScheduling s₂) : Updated thresh s choice.tc s₂ :=
    ⟨same.currTcap.trans settledTo.currTcap, same.active.trans settledTo.active,
      fun t => by rw [same.tcaps]; exact settledTo.tcaps t, settledTo.counts.trans same.counts⟩
  split_ifs at last
  · cases last
    exact switchedTo _ (sameScheduling_regs _ _)
  · refine switchedTo _ (SameScheduling.trans (sameScheduling_threads ?_)
      (sameScheduling_thdSwitch last))
    exact samePart_modify fun _ => rfl
  · exact switchedTo _ (sameScheduling_thdSwitch last)

theorem choose_tcap {timer : Bool} {choice : Choice}
    (chosen : (s.budgetsUpdate thresh thd).choose thd next tc timeout timer = .ok choice) :
    (choice.tc = tc ∧ ((s.charged thresh).tcaps s.cosInfo.currTcap).budget ≠ 0) ∨
      (((s.charged thresh).tcaps s.cosInfo.currTcap).budget = 0 ∧
        ((s.charged thresh).tcaps choice.tc).budget ≠ 0 ∧
        (timer = false → ((s.charged thresh).tcaps tc).budget ≠ 0 → choice.tc = tc)) := by
  have current : (s.budgetsUpdate thresh thd).cosInfo.currTcap = s.cosInfo.currTcap :=
    (tcapsOnly_consume ..).currTcap
  have tcaps : (s.budgetsUpdate thresh thd).tcaps = (s.charged thresh).tcaps := rfl
  unfold choose at chosen
  rw [current, tcaps] at chosen
  split_ifs at chosen with expended active isTimer
  · obtain ⟨aimed, located, rest⟩ := bind_eq_ok.mp chosen
    have asked : timer = false → aimed = tc := by
      rintro rfl
      simp only [expendedTcap, Bool.false_eq_true, if_false, Except.ok.injEq] at located
      exact located.symm
    rw [tcaps] at rest
    split_ifs at rest with empty
    · split at rest
      · cases rest
      · split_ifs at rest with headEmpty
        obtain ⟨ep, -, rest⟩ := bind_eq_ok.mp rest
        obtain ⟨thd', -, rest⟩ := bind_eq_ok.mp rest
        cases rest
        refine .inr ⟨expended, headEmpty, fun off funded => ?_⟩
        rw [asked off] at empty
        exact absurd empty funded
    · cases rest
      exact .inr ⟨expended, empty, fun off _ => asked off⟩
  · obtain ⟨thd', -, rest⟩ := bind_eq_ok.mp chosen
    cases rest
    exact .inl ⟨rfl, expended⟩
  · cases chosen
    exact .inl ⟨rfl, expended⟩

/-- The arguments of `tcap_delegate`. -/
structure Delegation where
  dst : Nat
  src : Nat
  cycles : Nat
  prio : Nat

def Delegation.run (d : Delegation) (core : TcapCore) : Except Fault (Int × TcapCore) :=
  Composite.tcapDelegate core d.dst d.src d.cycles d.prio

def delegation (s : Core) : CoreEvent → Option Delegation
  | .tcap caps tcapc (.transfer rcv res prio) _ =>
    (s.coreArcv caps s.currentComp.captbl rcv).bind fun arcv =>
      (s.threads arcv.thd).rcvcap.rcvcapTcap.map fun dst => ⟨dst, tcapc.tcap, res % 2 ^ 32, prio⟩
  | .tcap caps tcapc (.delegate asnd res prio _) _ =>
    (((caps.lkup s.currentComp.captbl asnd).bind CapBody.asnd?).bind (s.asndToArcv caps)).bind
      fun arcv => (s.threads arcv.thd).rcvcap.rcvcapTcap.map fun dst =>
        ⟨dst, tcapc.tcap, res % 2 ^ 32, prio⟩
  | _ => none

def merging (s : Core) : CoreEvent → Option (Nat × Nat)
  | .tcap caps tcapc (.merge rm) _ =>
    (s.coreTcap caps s.currentComp.captbl rm).map fun tcaprm => (tcapc.tcap, tcaprm.tcap)
  | _ => none

def tokenUse (s : Core) : CoreEvent → Option (Nat × Nat)
  | .thd caps thdc regs =>
    let args := thdOpArgs regs
    if thdc.cpuid ≠ s.cosInfo.cpuid ∨ thdc.cpuid ≠ (s.threads thdc.t).cpuid ∨ args.arcv = 0 then
      none
    else
      (s.coreArcv caps s.currentComp.captbl args.arcv).map fun arcv => (arcv.thd, args.usrCounter)
  | .asnd caps asndc regs =>
    let args := asndOpArgs regs
    if asndc.arcvCapid = 0 ∨ asndc.arcvCpuid ≠ s.cosInfo.cpuid ∨ args.srcv = 0 then none
    else
      (s.asndToArcv caps asndc).bind fun arcv =>
        (s.threads arcv.thd).rcvcap.rcvcapTcap.bind fun _ =>
          (s.coreArcv caps s.currentComp.captbl args.srcv).map fun srcv => (srcv.thd, args.usrTok)
  | _ => none

def blocks (s : Core) (arcvc : CapArcv) (regs : PtRegs) : Prop :=
  arcvc.thd = s.cosInfo.currThd ∧ arcvc.cpuid = s.cosInfo.cpuid ∧
    thdRcvcapPending s.threads s.cosInfo.currThd = 0 ∧ rcvNonBlocking regs.get1 = false

instance (s : Core) (arcvc : CapArcv) (regs : PtRegs) : Decidable (s.blocks arcvc regs) :=
  inferInstanceAs (Decidable (_ ∧ _))

/-- The tcap that an entry goes on with whether or not it has budget: that of the receiver
of a send with yield, and the one saved by a wakeup or its own for a receive that blocks. -/
def yieldsTo (s : Core) : CoreEvent → Option Nat
  | .asnd caps asndc regs =>
    if (asndOpArgs regs).srcv = 0 ∧ (asndOpArgs regs).yield ≠ 0 then
      (s.asndToArcv caps asndc).bind fun arcv => (s.threads arcv.thd).rcvcap.rcvcapTcap
    else none
  | .arcv arcvc regs =>
    if s.blocks arcvc regs then
      match s.cosInfo.nextTi.thd with
      | none => (s.threads s.cosInfo.currThd).rcvcap.rcvcapTcap
      | some _ => s.cosInfo.nextTi.tc
    else none
  | _ => none

def resumes (s : Core) : CoreEvent → Option (Nat × Nat)
  | .arcv arcvc regs =>
    if s.blocks arcvc regs ∧ s.cosInfo.nextTi.thd.isSome then
      s.cosInfo.nextTi.tc.map fun tc => (tc, s.cosInfo.nextTi.prio)
    else none
  | _ => none

inductive Readied (s : Core) (event : CoreEvent) : Core → Prop where
  | same {s₁ : Core} : s.SameScheduling s₁ → Readied s event s₁
  | token {s₁ : Core} {rcvt tok : Nat} {threads : Threads} : s.tokenUse event = some (rcvt, tok) →
      schedTokValidate s.threads rcvt tok = .ok (some threads) →
      (s.withThreads threads).SameScheduling s₁ → Readied s event s₁
  | delegate {s₁ : Core} {d : Delegation} {ret : Int} {core : TcapCore} :
      s.delegation event = some d → d.run s.tcapCore = .ok (ret, core) →
      (s.withTcaps core).SameScheduling s₁ → Readied s event s₁
  | merge {s₁ : Core} {dst rm : Nat} {ret : Int} {core : TcapCore} :
      s.merging event = some (dst, rm) → tcapMerge s.tcapCore dst rm = .ok (ret, core) →
      (s.withTcaps core).SameScheduling s₁ → Readied s event s₁

theorem Readied.trans {event : CoreEvent} (readied : Readied s event s₁)
    (same : s₁.SameScheduling s₂) : Readied s event s₂ := by
  cases readied with
  | same before => exact .same (before.trans same)
  | token used validated before => exact .token used validated (before.trans same)
  | delegate named ran before => exact .delegate named ran (before.trans same)
  | merge named ran before => exact .merge named ran (before.trans same)

inductive Aim (s : Core) (event : CoreEvent) (s₁ : Core) : Nat → Prop where
  | current : Aim s event s₁ s₁.cosInfo.currTcap
  | active {tc : Nat} : s₁.tcapCore.isActive tc → Aim s event s₁ tc
  | funded {tc : Nat} : (s₁.tcaps tc).budget ≠ 0 → Aim s event s₁ tc
  | delegated {d : Delegation} {core : TcapCore} : s.delegation event = some d →
      d.run s.tcapCore = .ok (0, core) → (s.withTcaps core).SameScheduling s₁ → Aim s event s₁ d.dst
  | yields {tc : Nat} : s.yieldsTo event = some tc → Aim s event s₁ tc

/-- How a kernel entry ends, for the tcaps and the token counters.  After a delegation it
returns only with budget left. -/
inductive Scheduled (thresh : Nat) (s : Core) (event : CoreEvent) (s' : Core) : Prop where
  | back : Readied s event s' →
      (∀ d core, s.delegation event = some d → d.run s.tcapCore = .ok (0, core) →
        (s'.tcaps s'.cosInfo.currTcap).budget ≠ 0) →
      Scheduled thresh s event s'
  | update {s₁ : Core} {thd next tc timeout : Nat} {ci : CompInfo} {regs : PtRegs} {timer : Bool} :
      Readied s event s₁ → Aim s event s₁ tc →
      s₁.capUpdate thresh thd next tc timeout ci regs timer = .ok s' → Scheduled thresh s event s'
  | carry {s₁ s₂ : Core} {thd next tc timeout prio : Nat} {ci : CompInfo} {regs : PtRegs} :
      Readied s event s₁ → s₁.tcapCore.isActive tc →
      s₁.capUpdate thresh thd next tc timeout ci regs false = .ok s₂ → s₂.cosInfo.currTcap = tc →
      s' = s₂.withTcaps (s₂.tcapCore.modify tc (·.setprio prio)) → Scheduled thresh s event s'
  | resume {s₁ : Core} {thd next tc timeout prio : Nat} {ci : CompInfo} {regs : PtRegs} :
      s.resumes event = some (tc, prio) →
      (s.withTcaps (s.tcapCore.modify tc (·.setprio prio))).SameScheduling s₁ →
      s₁.capUpdate thresh thd next tc timeout ci regs false = .ok s' → Scheduled thresh s event s'
  | wait (cycles : Nat) : s' = { s with tsc := s.tsc + cycles } → Scheduled thresh s event s'

/-- A core that an entry has prepared. -/
structure Ready (s : Core) (event : CoreEvent) (mark : Option Mark) (s₁ : Core) : Prop where
  prepared : Prepared s mark s₁
  readied : Readied s event s₁

/-- After a delegation, the current tcap has budget left. -/
def KeepsBudget (s : Core) (event : CoreEvent) (s₁ : Core) : Prop :=
  ∀ d core, s.delegation event = some d → d.run s.tcapCore = .ok (0, core) →
    (s₁.tcaps s₁.cosInfo.currTcap).budget ≠ 0

inductive Headed (s : Core) (event : CoreEvent) (s₁ : Core) (tc : Nat) : Bool → Prop where
  | aim {timer : Bool} : Readied s event s₁ → Aim s event s₁ tc → Headed s event s₁ tc timer
  | resume {prio : Nat} : s.resumes event = some (tc, prio) →
      (s.withTcaps (s.tcapCore.modify tc (·.setprio prio))).SameScheduling s₁ →
      Headed s event s₁ tc false

/-- The ways of an entry of the scheduler, up to `cap_update`. -/
inductive Course (thresh : Nat) (s : Core) (event : CoreEvent) : Except Fault Core → Prop where
  | back {s₁ : Core} : Ready s event none s₁ → KeepsBudget s event s₁ →
    Course thresh s event (.ok s₁)
  | deliver {s₁ : Core} {threads : Threads} {regs regs' : PtRegs} : Ready s event none s₁ →
      KeepsBudget s event s₁ →
      thdRcvcapPendingDeliver s₁.threads s.cosInfo.currThd regs = .ok (threads, regs') →
      Course thresh s event (.ok { s₁ with threads := threads, regs := regs' })
  | update {mark : Option Mark} {s₁ : Core} {next tc timeout : Nat} {regs : PtRegs} {timer : Bool} :
      Prepared s mark s₁ → Headed s event s₁ tc timer → (timer = true → mark = none) →
      (∀ choice, (s₁.budgetsUpdate thresh s.cosInfo.currThd).choose s.cosInfo.currThd next tc
        timeout timer = .ok choice → mark ≠ none ∨ timer = true ∧ choice.thd ≠ s.cosInfo.currThd →
        s.markTarget thresh event = some choice.thd) →
      Course thresh s event (s₁.capUpdate thresh s.cosInfo.currThd next tc timeout s.currentComp
        regs timer)
  | carry {s₁ : Core} {next tc timeout prio : Nat} {regs : PtRegs} : Ready s event none s₁ →
      s₁.tcapCore.isActive tc →
      Course thresh s event (do
        let s₂ ← s₁.capSwitch thresh s.cosInfo.currThd next tc timeout s.currentComp regs
        if s₂.cosInfo.currTcap = tc then
          .ok (s₂.withTcaps (s₂.tcapCore.modify tc (·.setprio prio)))
        else .ok s₂)
  | fault {fault : Fault} : fault ≠ .marks → Course thresh s event (.error fault)
  | preempted {s₁ : Core} : Prepared s none s₁ →
      (s₁.threads s.cosInfo.currThd).state.preempted = true → Course thresh s event (.error .marks)

variable {event : CoreEvent} {mark : Option Mark} {target : Nat → Prop}
    {result : Except Fault Core}

theorem Ready.start : Ready s event none s := ⟨.start, .same (.refl s)⟩

theorem Ready.trans (ready : Ready s event mark s₁) (similar : s₁.Similar s₂)
    (same : s₁.SameScheduling s₂) : Ready s event mark s₂ :=
  ⟨.similar ready.prepared similar, ready.readied.trans same⟩

theorem Ready.schedulerSet (ready : Ready s event mark s₁) (t sched : Nat) :
    Ready s event mark (s₁.withThreads (s₁.threads.schedulerSet t sched)) :=
  ready.trans (similar_schedulerSet s₁ t sched)
    (sameScheduling_threads (sameCounts_schedulerSet _ t sched))

theorem Ready.token {rcvt tok : Nat} {threads : Threads}
    (used : s.tokenUse event = some (rcvt, tok))
    (validated : schedTokValidate s.threads rcvt tok = .ok (some threads)) :
    Ready s event none (s.withThreads threads) :=
  ⟨.similar .start (similar_schedTok validated), .token used validated (.refl _)⟩

theorem sameScheduling_asndProcess {tcap : Nat} {result : Threads × Nat × Nat}
    (processed : s.asndProcess rcvThd thd rcvTcap tcap yield = .ok result) :
    s.SameScheduling (s.withThreads result.1) := by
  obtain ⟨threads, notified, rest⟩ := bind_eq_ok.mp processed
  have counts : SameCounts s.threads threads := by
    refine SamePart.trans ?_ (listsOnly_notifyLoop notified).counts
    exact samePart_modify fun _ => rfl
  split_ifs at rest
  all_goals
    cases rest
    exact sameScheduling_threads counts

theorem Ready.asndProcess {tcap : Nat} {result : Threads × Nat × Nat}
    (ready : Ready s event mark s₁)
    (processed : s₁.asndProcess rcvThd thd rcvTcap tcap yield = .ok result) :
    Ready s event mark (s₁.withThreads result.1) :=
  ⟨Prepared.asndProcess ready.prepared processed,
    ready.readied.trans (sameScheduling_asndProcess processed)⟩

theorem keepsBudget_of_none (noDelegation : s.delegation event = none) :
    KeepsBudget s event s₁ := by
  intro d core named
  rw [noDelegation] at named
  cases named

theorem Course.bind {Alpha : Type} {first : Except Fault Alpha} {rest : Alpha → Except Fault Core}
    (marksFree : MarksFree first)
    (course : ∀ value, first = .ok value → Course thresh s event (rest value)) :
    Course thresh s event (first >>= rest) := by
  cases result : first with
  | error fault => exact .fault fun same => marksFree (by rw [result, same])
  | ok value => exact course value result

theorem Course.returns (ready : Ready s event none s₁) (funded : KeepsBudget s event s₁)
    (regs : PtRegs) :
    Course thresh s event (.ok { s₁ with regs := regs }) :=
  .back (ready.trans (similar_regs _ _) (sameScheduling_regs _ _)) funded

theorem Course.refuse {ret : Int} (ready : Ready s event none s₁)
    (noDelegation : s.delegation event = none) : Course thresh s event (s₁.refuse regs ret) :=
  .returns ready (keepsBudget_of_none noDelegation) _

theorem Course.capSwitch (ready : Ready s event none s₁) (aim : Aim s event s₁ tc) :
    Course thresh s event (s₁.capSwitch thresh s.cosInfo.currThd next tc timeout s.currentComp
      regs) := by
  refine .update ready.prepared (.aim ready.readied aim) (fun _ => rfl) fun choice _ marked => ?_
  rcases marked with marked | ⟨timer, -⟩
  · exact absurd rfl marked
  · cases timer

theorem Course.thdOpSwitch (ready : Ready s event none s₁)
    (noDelegation : s.delegation event = none) :
    Course thresh s event (s₁.thdOpSwitch thresh caps s.cosInfo.currThd next tc timeout prio
      s.currentComp regs) := by
  unfold Core.thdOpSwitch
  split_ifs
  · exact .capSwitch ready .current
  · split
    · exact .refuse ready noDelegation
    · split_ifs with ep active
      · exact .refuse ready noDelegation
      · exact .carry ready active
      · exact .refuse ready noDelegation

theorem Course.thdOp {thdc : CapThd} :
    Course thresh s (.thd caps thdc regs)
      (s.capThdOp thresh caps thdc s.cosInfo.currThd s.currentComp regs) := by
  unfold Core.capThdOp
  simp only
  split_ifs with wrongCpu noArcv
  · exact .refuse .start rfl
  · exact .thdOpSwitch (Ready.start.schedulerSet _ _) rfl
  · split
    · exact .refuse .start rfl
    next arcvCap found =>
    refine .bind (marksFree_schedTok _ _ _) fun validated checked => ?_
    split
    · exact .refuse .start rfl
    next threads =>
    have used : s.tokenUse (.thd caps thdc regs) =
        some (arcvCap.thd, (thdOpArgs regs).usrCounter) := by
      rw [not_or] at wrongCpu
      simp only [tokenUse, if_neg (not_or.mpr ⟨wrongCpu.1, not_or.mpr ⟨wrongCpu.2, noArcv⟩⟩),
        found, map_some]
    have ready := Ready.token used checked
    split_ifs
    · exact .refuse ready rfl
    · exact .thdOpSwitch ready rfl
    · exact .thdOpSwitch (ready.schedulerSet _ _) rfl

theorem asndProcess_tcap {tcap : Nat} {result : Threads × Nat × Nat}
    (processed : s.asndProcess rcvThd thd rcvTcap tcap yield = .ok result) :
    result.2.2 = tcap ∨ result.2.2 = rcvTcap ∧ (yield = true ∨ (s.tcaps rcvTcap).budget ≠ 0) := by
  obtain ⟨threads, -, rest⟩ := bind_eq_ok.mp processed
  split_ifs at rest with goes
  · cases rest
    refine .inr ⟨rfl, goes.imp id fun higher empty => ?_⟩
    simp [tcapHigherPrio, empty] at higher
  · cases rest
    exact .inl rfl

theorem Course.asndSwitch (ready : Ready s event none s₁)
    (aimed : yield = true → (s₁.tcaps rcvTcap).budget ≠ 0 ∨ s.yieldsTo event = some rcvTcap) :
    Course thresh s event (s₁.asndSwitch thresh rcvThd rcvTcap s.cosInfo.currThd yield timeout
      s.currentComp regs) := by
  refine .bind (marksFree_asndProcess _ _ _ _ _ _) fun ⟨threads, next, tc⟩ processed => ?_
  refine .capSwitch (ready.asndProcess processed) ?_
  rcases asndProcess_tcap processed with rfl | ⟨rfl, yields | funded⟩
  · exact .current
  · exact (aimed yields).elim (fun funded => .funded funded) .yields
  · exact .funded funded

theorem Course.asndScheduled {args : AsndOpArgs} (noDelegation : s.delegation event = none)
    (used : ∀ srcvCap, s.coreArcv caps s.currentComp.captbl args.srcv = some srcvCap →
      s.tokenUse event = some (srcvCap.thd, args.usrTok)) :
    Course thresh s event (s.asndScheduled thresh caps rcvThd rcvTcap s.cosInfo.currThd args
      s.currentComp regs) := by
  unfold Core.asndScheduled
  split
  · exact .refuse .start noDelegation
  next srcvCap found =>
  refine .bind (marksFree_schedTok _ _ _) fun validated checked => ?_
  split
  · exact .refuse .start noDelegation
  next threads =>
  have ready := Ready.token (used srcvCap found) checked
  simp only
  split_ifs with pending own expended
  · exact .refuse ready noDelegation
  · exact .capSwitch ready .current
  · exact .refuse ready noDelegation
  · exact .asndSwitch (ready.schedulerSet _ _) fun _ => .inl expended

theorem Course.asndOp {asndc : CapAsnd} :
    Course thresh s (.asnd caps asndc regs)
      (s.capAsndOp thresh caps asndc s.cosInfo.currThd s.currentComp regs) := by
  unfold Core.capAsndOp
  split_ifs with noCap remote
  · exact .fault (by decide)
  · exact .fault (by decide)
  · exact .returns .start (keepsBudget_of_none rfl) _
  split
  · exact .refuse .start rfl
  next arcv found =>
  unfold Core.asndLocal
  split
  · exact .fault (by decide)
  next rcvTcap bound =>
  simp only
  split_ifs with plain
  · refine .asndSwitch .start fun yields => .inr ?_
    have flagged : (asndOpArgs regs).yield ≠ 0 := of_decide_eq_true yields
    simp only [yieldsTo, if_pos (And.intro plain flagged), found, bind_some, bound]
  · refine .asndScheduled rfl fun srcvCap located => ?_
    simp only [tokenUse, if_neg (not_or.mpr ⟨noCap, not_or.mpr ⟨remote, plain⟩⟩), found,
      bind_some, bound, located, map_some]

theorem Course.hwAsndLocal {asndc : CapAsnd} {arcv : CapArcv}
    (named : asndc.arcvCapid ≠ 0 ∧ asndc.arcvCpuid = s.cosInfo.cpuid)
    (found : s.asndToArcv caps asndc = some arcv) :
    Course thresh s (.hwAsnd caps asndc regs)
      (s.hwAsndLocal thresh arcv s.cosInfo.currThd s.currentComp regs) := by
  unfold Core.hwAsndLocal
  cases bound : (s.threads arcv.thd).rcvcap.rcvcapTcap with
  | none => exact .fault (by decide)
  | some rcvTcap =>
    refine .bind (marksFree_asndProcess _ _ _ _ _ _) fun ⟨threads, next, tc⟩ sent => ?_
    have ready : Ready s (.hwAsnd caps asndc regs) none (s.withThreads threads) :=
      Ready.start.asndProcess sent
    simp only
    split_ifs with same
    · exact .returns ready (keepsBudget_of_none rfl) _
    obtain ⟨⟨rfl, rfl, higher⟩, notified⟩ := asndProcess_aims sent same
    have marked : SamePart schedPart threads
        ((s.withThreads threads).markPreempted s.cosInfo.currThd).threads := by
      dsimp only [markPreempted, withThreads]
      exact samePart_modify fun _ => rfl
    refine .update (.preempt ready.prepared) (.aim (ready.readied.trans (sameScheduling_threads ?_))
      (.funded ?_)) nofun fun choice chosen _ => ?_
    · exact samePart_modify fun _ => rfl
    · intro empty
      simp [tcapHigherPrio, show (s.tcaps tc).budget = 0 from empty] at higher
    · have accounts : s.SameAccounts ((s.withThreads threads).markPreempted s.cosInfo.currThd) :=
        ⟨fun _ => ⟨rfl, rfl⟩, ⟨_, rfl⟩, rfl, rcvcapSched_congr (notified.trans marked)⟩
      have goes := choose_goesOn chosen
      rw [accounts.goesOn] at goes
      simp only [markTarget, if_pos named, found, bound, Option.bind_eq_bind, Option.bind_some,
        if_pos (And.intro same higher), goes]

theorem Course.hwAsnd {asndc : CapAsnd} :
    Course thresh s (.hwAsnd caps asndc regs) (s.capHwAsnd thresh caps asndc regs) := by
  unfold Core.capHwAsnd
  split
  · exact .fault (by decide)
  next named =>
  split
  · exact .returns .start (keepsBudget_of_none rfl) _
  next here =>
  split
  · exact .returns .start (keepsBudget_of_none rfl) _
  next arcv found =>
  refine .bind (marksFree_invstkCurrent _) fun entry current => ?_
  split_ifs with preempted
  · exact .preempted .start preempted
  · rw [thdInvstkCurrent_eq current]
    exact .hwAsndLocal ⟨named, not_not.mp here⟩ found

theorem Course.timer : Course thresh s (.timer regs) (s.timerProcess thresh regs) := by
  unfold Core.timerProcess
  split
  · exact .fault (by decide)
  refine .bind (marksFree_invstkCurrent _) fun entry current => ?_
  refine .bind s.marksFree_expendedNext fun next found => ?_
  rw [thdInvstkCurrent_eq current]
  refine .update .start (.aim (.same (.refl s)) .current) (fun _ => rfl) fun choice chosen marked =>
    ?_
  have away : choice.thd ≠ s.cosInfo.currThd := by
    rcases marked with marked | ⟨-, away⟩
    · exact absurd rfl marked
    · exact away
  rw [markTarget, choose_timerNext found chosen, Option.filter_some, if_pos (decide_eq_true away)]

theorem arcvNext_headed {arcvc : CapArcv} {threads : Threads} (blocking : s.blocks arcvc regs)
    (only : ListsOnly s.threads threads)
    (chosen : (s.withThreads threads).arcvNext s.cosInfo.currThd = .ok (s₁, next, tc, timeout))
    (same : s₁.SameScheduling s₂) : Headed s (.arcv arcvc regs) s₂ tc false := by
  unfold arcvNext at chosen
  split at chosen
  · next unsaved =>
    obtain ⟨next, -, rest⟩ := bind_eq_ok.mp chosen
    obtain ⟨tc, bound, last⟩ := bind_eq_ok.mp rest
    cases last
    refine .aim (.same ((sameScheduling_threads only.counts).trans same)) (.yields ?_)
    have bound : (s.threads s.cosInfo.currThd).rcvcap.rcvcapTcap = some tc := by
      rw [← only.rcvcap]
      exact deref_eq_ok.mp bound
    have unsaved : s.cosInfo.nextTi.thd = none := unsaved
    simp only [yieldsTo, if_pos blocking, unsaved, bound]
  · next next saved =>
    split at chosen
    · cases chosen
    next tc located =>
    cases chosen
    have saved : s.cosInfo.nextTi.thd = some next := saved
    have located : s.cosInfo.nextTi.tc = some tc := located
    have resumed : s.resumes (.arcv arcvc regs) = some (tc, s.cosInfo.nextTi.prio) := by
      simp only [resumes, saved, Option.isSome_some, and_true, if_pos blocking, located, map_some]
    exact .resume resumed ⟨same.tcaps, same.currTcap, same.active, same.cycles, same.tsc,
      only.counts.trans same.counts⟩

theorem Course.arcvBlock {arcvc : CapArcv} (blocking : s.blocks arcvc regs) :
    Course thresh s (.arcv arcvc regs) (s.arcvBlock thresh s.cosInfo.currThd
      (rcvAllPending regs.get1) regs.get2 s.currentComp regs) := by
  refine .bind (marksFree_notifyLoop _ _ _ _) fun threads notified => ?_
  refine .bind (marksFree_arcvNext _ _) fun ⟨s₁, next, tc, timeout⟩ chosen => ?_
  have similar := similar_arcvNext chosen
  have only := listsOnly_notifyLoop notified
  simp only
  split_ifs with same preempted
  · refine .update (.similar (.notify _ .start notified) similar)
      (arcvNext_headed blocking only chosen (.refl _)) (fun _ => rfl) fun choice _ marked => ?_
    rcases marked with marked | ⟨timer, -⟩
    · exact absurd rfl marked
    · cases timer
  · exact .preempted (.similar (.notify _ .start notified) similar) preempted
  · refine .update (.block _ _ .start notified similar) (arcvNext_headed blocking only chosen
      (sameScheduling_threads (samePart_modify fun _ => rfl))) nofun fun choice decided _ => ?_
    obtain ⟨blocks, accounts⟩ := arcvNext_accounts only chosen
    have marked : SamePart schedPart s₁.threads
        (s₁.markRcving s.cosInfo.currThd (rcvAllPending regs.get1) regs.get2).threads := by
      dsimp only [markRcving, withThreads]
      exact samePart_modify fun _ => rfl
    have marked : s.SameAccounts
        (s₁.markRcving s.cosInfo.currThd (rcvAllPending regs.get1) regs.get2) :=
      ⟨accounts.tcaps, accounts.cosInfo, accounts.tsc, accounts.sched ▸ rcvcapSched_congr marked⟩
    have goes := choose_goesOn decided
    rw [marked.goesOn] at goes
    obtain ⟨own, here, idle, blocking⟩ := blocking
    simp only [markTarget, own, here, idle, blocking, and_self, not_false_eq_true, if_true, blocks,
      Bool.false_eq_true, Option.bind_eq_bind, Option.bind_some, if_neg (Ne.symm same), goes]

theorem Course.arcvOp {arcvc : CapArcv} :
    Course thresh s (.arcv arcvc regs)
      (s.capArcvOp thresh arcvc s.cosInfo.currThd s.currentComp regs) := by
  unfold Core.capArcvOp
  simp only
  split_ifs with other pending nonBlocking
  · exact .refuse .start rfl
  · refine .bind (marksFree_pendingDeliver _ _ _) fun ⟨threads, regs'⟩ delivered => ?_
    have ready : Ready s (.arcv arcvc regs) none (s.withThreads
        (s.threads.allPendingSet s.cosInfo.currThd (rcvAllPending regs.get1))) :=
      Ready.start.trans (similar_withThreads (samePart_modify fun _ => rfl))
        (sameScheduling_threads (samePart_modify fun _ => rfl))
    have course : Course thresh s (.arcv arcvc regs) _ :=
      .deliver ready (keepsBudget_of_none rfl) delivered
    exact course
  · exact .returns .start (keepsBudget_of_none rfl) _
  · rw [not_or, not_not, not_not] at other
    exact .arcvBlock ⟨other.1, other.2, not_not.mp pending, by simpa using nonBlocking⟩

theorem Course.expendedSwitch (ready : Ready s event none s₁) :
    Course thresh s event (s₁.expendedSwitch thresh s.cosInfo.currThd s.currentComp regs) := by
  unfold Core.expendedSwitch
  split_ifs with expended
  · exact .bind s₁.marksFree_expendedNext fun next _ => .capSwitch ready .current
  · exact .returns ready (fun _ _ _ _ => expended) _

section Delegations

variable {d : Delegation} {ret : Int} {core : TcapCore} (named : s.delegation event = some d)
    (ran : d.run s.tcapCore = .ok (ret, core))

include named ran

theorem Ready.delegate : Ready s event none (s.withTcaps core) :=
  ⟨.similar .start (similar_withTcaps (tcapsOnly_delegate (tcapDelegate_outcome ran)).current),
    .delegate named ran (.refl _)⟩

theorem Course.delegationRefused {err : Int} (failed : ret ≠ 0) :
    Course thresh s event ((s.withTcaps core).refuse regs err) := by
  refine .returns (.delegate named ran) (fun d' core' named' ran' => ?_) _
  cases named.symm.trans named'
  cases ran.symm.trans ran'
  exact absurd rfl failed

end Delegations

theorem Course.tcapTransfer {rcv res : Nat} :
    Course thresh s (.tcap caps tcapc (.transfer rcv res prio) regs) (s.opTcapTransfer thresh caps
      tcapc.tcap rcv res prio s.cosInfo.currThd s.currentComp regs) := by
  unfold Core.opTcapTransfer
  split
  · next absent => exact .refuse .start (by simp [delegation, absent])
  next arcv found =>
  split
  · exact .fault (by decide)
  next dst bound =>
  have named : s.delegation (.tcap caps tcapc (.transfer rcv res prio) regs) =
      some ⟨dst, tcapc.tcap, res % 2 ^ 32, prio⟩ := by simp [delegation, found, bound]
  refine .bind (marksFree_delegate _ _ _ _ _) fun ⟨ret, core⟩ ran => ?_
  simp only
  split_ifs with failed
  · exact .delegationRefused named ran failed
  · exact .expendedSwitch (.delegate named ran)

theorem Course.tcapDelegate {asnd res : Nat} :
    Course thresh s (.tcap caps tcapc (.delegate asnd res prio yield) regs) (s.opTcapDelegate thresh
      caps tcapc.tcap asnd res prio yield s.cosInfo.currThd s.currentComp regs) := by
  unfold Core.opTcapDelegate
  split
  · next absent => exact .refuse .start (by simp only [delegation, absent, bind_none])
  next arcv found =>
  split
  · exact .fault (by decide)
  next dst bound =>
  have named : s.delegation (.tcap caps tcapc (.delegate asnd res prio yield) regs) =
      some ⟨dst, tcapc.tcap, res % 2 ^ 32, prio⟩ := by
    simp only [delegation, found, bind_some, bound, map_some]
  refine .bind (marksFree_delegate _ _ _ _ _) fun ⟨ret, core⟩ ran => ?_
  simp only
  split_ifs with failed
  · exact .delegationRefused named ran failed
  obtain rfl : ret = 0 := not_not.mp failed
  refine .bind (marksFree_asndProcess _ _ _ _ _ _) fun ⟨threads, next, tc⟩ processed => ?_
  have ready := (Ready.delegate named ran).asndProcess processed
  simp only
  split_ifs with switches
  · refine .capSwitch ready ?_
    rcases asndProcess_tcap processed with rfl | ⟨rfl, -⟩
    · exact .current
    · exact .delegated named ran (sameScheduling_asndProcess processed)
  · exact .expendedSwitch ready

theorem sameScheduling_wakeup {budget : Nat} {core : TcapCore}
    (woken : tcapWakeup s.tcapCore tc prio budget thd = .ok core) :
    s.SameScheduling (s.withTcaps core) := by
  unfold tcapWakeup at woken
  simp only at woken
  split at woken
  · split_ifs at woken
    cases woken
    exact ⟨rfl, rfl, rfl, rfl, rfl, .refl _⟩
  · split_ifs at woken
    all_goals
      cases woken
      exact ⟨rfl, rfl, rfl, rfl, rfl, .refl _⟩

theorem Course.tcapCall {call : TcapCall} :
    Course thresh s (.tcap caps tcapc call regs)
      (s.tcapCall thresh caps tcapc.tcap call s.cosInfo.currThd s.currentComp regs) := by
  cases call with
  | transfer rcv res prio => exact .tcapTransfer
  | delegate asnd res prio yield => exact .tcapDelegate
  | merge rm =>
    unfold Core.tcapCall
    simp only
    split
    · exact .refuse .start rfl
    next tcaprm found =>
    have named : s.merging (.tcap caps tcapc (.merge rm) regs) =
        some (tcapc.tcap, tcaprm.tcap) := by simp [merging, found]
    refine .bind (marksFree_merge _ _ _) fun ⟨ret, core⟩ merged => ?_
    exact .refuse ⟨.similar .start (similar_withTcaps (tcapsOnly_merge merged).current),
      .merge named merged (.refl _)⟩ rfl
  | wakeup thdCap prio budget =>
    unfold Core.tcapCall
    simp only
    split
    · exact .refuse .start rfl
    refine .bind (marksFree_wakeup _ _ _ _ _) fun core woken => ?_
    exact .refuse (Ready.start.trans (similar_withTcaps (sameCurrent_wakeup woken))
      (sameScheduling_wakeup woken)) rfl

def Schedules : CoreEvent → Prop
  | .thd .. | .asnd .. | .arcv .. | .tcap .. | .hwAsnd .. | .timer .. => True
  | _ => False

theorem course_of_schedules (schedules : Schedules event) :
    Course thresh s event (s.entry thresh event) := by
  have inComp {rest : InvstkEntry → Except Fault Core}
      (course : Course thresh s event
        (rest ((s.threads s.cosInfo.currThd).invstk s.cosInfo.invstkTop))) :
      Course thresh s event (thdInvstkCurrent s.toCpuState >>= rest) :=
    .bind (marksFree_invstkCurrent _) fun entry current => thdInvstkCurrent_eq current ▸ course
  cases event with
  | thd caps thdc regs => exact inComp .thdOp
  | asnd caps asndc regs => exact inComp .asndOp
  | arcv arcvc regs => exact inComp .arcvOp
  | tcap caps tcapc call regs => exact inComp .tcapCall
  | hwAsnd caps asndc regs => exact .hwAsnd
  | timer regs => exact .timer
  | sret | sinv | compDeactivate | wait => exact schedules.elim

theorem Entered.bind {Alpha : Type} {first : Except Fault Alpha} {rest : Alpha → Except Fault Core}
    (marksFree : MarksFree first)
    (entered : ∀ value, first = .ok value → Entered s target (rest value)) :
    Entered s target (first >>= rest) := by
  cases result : first with
  | error fault => exact .fault fun same => marksFree (by rw [result, same])
  | ok value => exact entered value result

theorem Entered.capUpdate (timer : Bool) (prepared : Prepared s mark s₁)
    (unmarked : timer = true → mark = none)
    (aimed : ∀ choice, (s₁.budgetsUpdate thresh s.cosInfo.currThd).choose s.cosInfo.currThd next tc
      timeout timer = .ok choice → mark ≠ none ∨ timer = true ∧ choice.thd ≠ s.cosInfo.currThd →
      target choice.thd) :
    Entered s target (s₁.capUpdate thresh s.cosInfo.currThd next tc timeout
      s.currentComp regs timer) := by
  refine Entered.bind (marksFree_choose _ _ _ _ _ _) fun choice chosen => ?_
  refine Entered.bind (marksFree_settle _ choice) fun s₂ settled => ?_
  have ready : Prepared s mark s₂ :=
    Prepared.settle (.similar prepared (similar_budgetsUpdate thresh s₁ _)) settled
  have aim := aimed choice chosen
  split_ifs with isTimer same
  · cases unmarked isTimer
    exact .back (.similar ready (similar_regs _ _))
  · cases unmarked isTimer
    exact .switch (.preempt ready) fun _ => aim (.inr ⟨isTimer, same⟩)
  · exact .switch ready fun marked => aim (.inl marked)

theorem Course.entered (course : Course thresh s event result) :
    Entered s (fun next => s.markTarget thresh event = some next) result := by
  cases course with
  | back ready funded => exact .back ready.prepared
  | deliver ready funded delivered => exact .deliver ready.prepared delivered
  | update prepared headed unmarked aimed => exact Entered.capUpdate _ prepared unmarked aimed
  | @carry s₁ next tc timeout prio regs ready active =>
    have entered : Entered s (fun next => s.markTarget thresh event = some next)
        (s₁.capUpdate thresh s.cosInfo.currThd next tc timeout s.currentComp regs false) := by
      refine Entered.capUpdate false ready.prepared (fun _ => rfl) fun choice _ marked => ?_
      rcases marked with marked | ⟨timer, -⟩
      · exact absurd rfl marked
      · cases timer
    unfold Core.capSwitch
    cases switched : s₁.capUpdate thresh s.cosInfo.currThd next tc timeout s.currentComp regs
        false with
    | error fault =>
      rw [switched] at entered
      exact entered
    | ok s₂ =>
      rw [switched] at entered
      simp only [ok_bind]
      split_ifs
      · exact .after entered (similar_withTcaps ⟨rfl, rfl, rfl⟩)
      · exact entered
  | fault other => exact .fault other
  | preempted prepared marked => exact .preempted prepared marked

theorem Course.scheduled (course : Course thresh s event result) (done : result = .ok s') :
    Scheduled thresh s event s' := by
  cases course with
  | back ready funded =>
    cases done
    exact .back ready.readied funded
  | deliver ready funded delivered =>
    cases done
    refine .back (ready.readied.trans ⟨rfl, rfl, rfl, rfl, rfl, ?_⟩) funded
    exact samePart_pendingDeliver undelivered_count delivered
  | update prepared headed unmarked aimed =>
    cases headed with
    | aim readied aim => exact .update readied aim done
    | resume resumed same => exact .resume resumed same done
  | carry ready active =>
    obtain ⟨s₂, updated, rest⟩ := bind_eq_ok.mp done
    split_ifs at rest with current
    · cases rest
      exact .carry ready.readied active updated current rfl
    · cases rest
      exact .update ready.readied (.active active) updated
  | fault | preempted => cases done

theorem entered_of_schedules (schedules : Schedules event) :
    Entered s (fun next => s.markTarget thresh event = some next) (s.entry thresh event) :=
  (course_of_schedules schedules).entered

theorem Scheduled.of_same (same : s.SameScheduling s')
    (noDelegation : s.delegation event = none) : Scheduled thresh s event s' :=
  .back (.same same) (keepsBudget_of_none noDelegation)

theorem scheduled_of_next (stepped : s.next thresh event = some s') :
    Scheduled thresh s event s' := by
  rw [next_eq_some] at stepped
  cases event with
  | sret regs =>
    obtain ⟨cpu, returned, rest⟩ := bind_eq_ok.mp stepped
    cases rest
    exact .of_same (sameScheduling_stacks (stacksOnly_sret returned)) rfl
  | sinv sinvc regs =>
    obtain ⟨cpu, result, rest⟩ := bind_eq_ok.mp stepped
    cases rest
    obtain ⟨entry, -, called⟩ := bind_eq_ok.mp result
    exact .of_same (sameScheduling_stacks (stacksOnly_sinv called)) rfl
  | compDeactivate liveness =>
    cases stepped
    exact .of_same ⟨rfl, rfl, rfl, rfl, rfl, .refl _⟩ rfl
  | wait cycles =>
    cases stepped
    exact .wait cycles rfl
  | thd | asnd | arcv | tcap | hwAsnd | timer =>
    refine (course_of_schedules ?_).scheduled stepped
    trivial

end Core

/-- A core on which thread 1 executes with tcap 0.  Tcap 1 has a budget and the priority 3,
and tcap 2 is that of the end-point of thread 2. -/
def threeTcaps : Core :=
  let fresh := freshCore ⟨⟨0, 2⟩, 6, 7⟩
  { fresh with
    threads := fresh.threads.modify 2 fun t =>
      { t with rcvcap := { t.rcvcap with rcvcapTcap := some 2 } }
    cosInfo := { fresh.cosInfo with tcaps := [0, 1] }
    tcaps := fun
      | 0 => ⟨some 1, 2, tcapResInf, 1, 0, 0, 0, fun _ => ⟨0, 0⟩⟩
      | 1 => ⟨some 1, 1, 1000, 1, 0, 0, 3, fun _ => ⟨1, 3⟩⟩
      | 2 => ⟨some 2, 2, 0, 1, 0, 0, 0, fun _ => ⟨2, 0⟩⟩
      | _ => Tcap.zero }

/-- The component of `threeTcaps` can receive for thread 2, send to it, and name tcap 1. -/
def endpointCaps : CapLookup
  | 7, 4 => some (.arcv ⟨⟨⟨0, 2⟩, 6, 7⟩, 0, 0, 2, 0⟩)
  | 7, 5 => some (.asnd ⟨0, 0, 4, 0, ⟨⟨0, 2⟩, 6, 7⟩, 0, 0, 0⟩)
  | 7, 6 => some (.tcap ⟨1, 0⟩)
  | _, _ => none

end Composite
