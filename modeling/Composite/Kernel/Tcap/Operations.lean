import Composite.Lib.Transition
import Composite.Kernel.Capability

/-!
# Temporal capabilities

The functions of `tcap.h` and `tcap.c` on the tcaps of one core.  Every core
keeps a list of its tcaps that have a budget; a budget is a 32-bit number of
cycles, and the largest number stands for an infinite budget.
-/

namespace Composite

def tcapResInf : Nat := 2 ^ 32 - 1

def tcapResMax : Nat := tcapResInf - 1

def tcapMaxDelegations : Nat := 16

abbrev Tcaps := Nat → Tcap

namespace Tcap

def zero : Tcap := ⟨none, 0, 0, 0, 0, 0, 0, fun _ => ⟨0, 0⟩⟩

/-- `tcap_sched_info`. -/
def schedInfo (t : Tcap) : TcapSchedInfo := t.delegations t.currSchedOff

/-- `tcap_setprio`. -/
def setprio (t : Tcap) (prio : Nat) : Tcap :=
  { t with
    delegations := Function.update t.delegations t.currSchedOff { t.schedInfo with prio := prio } }

/-- `__tcap_init`, with the next unused id of the core. -/
def init (t : Tcap) (cpu uid : Nat) : Tcap where
  arcvEp := none
  refcnt := 1
  budget := 0
  ndelegs := 1
  currSchedOff := 0
  cpuid := cpu
  permPrio := 0
  delegations := Function.update t.delegations 0 ⟨uid, 0⟩

/-- What `__arcv_setup` does to the tcap: `tcap_ref_take` and `tcap_promote`. -/
def bind (t : Tcap) (thd : Nat) : Tcap :=
  { t with
    refcnt := t.refcnt + 1
    arcvEp := if t.arcvEp.isSome then t.arcvEp else some thd }

/-- What `__arcv_teardown` does to the tcap. -/
def unbind (t : Tcap) : Tcap := { t with refcnt := t.refcnt - 1, arcvEp := none }

end Tcap

structure TcapCore where
  tcaps : Tcaps
  cosInfo : CosCpuLocalInfo

namespace TcapCore

def modify (core : TcapCore) (t : Nat) (change : Tcap → Tcap) : TcapCore :=
  { core with tcaps := Function.update core.tcaps t (change (core.tcaps t)) }

/-- `tcap_is_active`. -/
def isActive (core : TcapCore) (t : Nat) : Prop := t ∈ core.cosInfo.tcaps

instance (core : TcapCore) (t : Nat) : Decidable (core.isActive t) :=
  inferInstanceAs (Decidable (t ∈ _))

/-- `tcap_active_add_before`. -/
def activeAddBefore (core : TcapCore) (existing t : Nat) : TcapCore :=
  { core with cosInfo := { core.cosInfo with
      tcaps := core.cosInfo.tcaps.flatMap fun other =>
        if other = existing then [t, other] else [other] } }

/-- `tcap_active_rem`. -/
def activeRem (core : TcapCore) (t : Nat) : TcapCore :=
  { core with cosInfo := { core.cosInfo with tcaps := core.cosInfo.tcaps.filter (· ≠ t) } }

end TcapCore

def cyclesSame (a b thresh : Nat) : Bool := decide ((if b < a then a - b else b - a) ≤ thresh)

def Tcap.declassify (t : Tcap) : Tcap :=
  { t with
    budget := 0
    ndelegs := 1
    delegations := if t.currSchedOff ≠ 0 then Function.update t.delegations 0 t.schedInfo
      else t.delegations
    currSchedOff := 0 }

/-- `tcap_consume`; `thresh` is `chal_cyc_thresh`. -/
def tcapConsume (thresh : Nat) (core : TcapCore) (t cycles : Nat) : TcapCore :=
  if (core.tcaps t).budget = tcapResInf then core
  else if cycles ≥ (core.tcaps t).budget ∨ cyclesSame cycles (core.tcaps t).budget thresh then
    (core.modify t Tcap.declassify).activeRem t
  else core.modify t fun tc => { tc with budget := tc.budget - cycles }

/-- The addition of `__tcap_budget_xfer`, which wraps around and is then cut. -/
def budgetAdd (budget cycles : Nat) : Nat :=
  let sum := (budget + cycles) % 2 ^ 32
  if sum < budget ∨ sum = tcapResInf then tcapResMax else sum

def Tcap.gain (t : Tcap) (cycles : Nat) : Tcap :=
  if t.budget ≠ tcapResInf then { t with budget := budgetAdd t.budget cycles } else t

def Tcap.spend (t : Tcap) (cycles : Nat) : Tcap :=
  if t.budget ≠ tcapResInf then { t with budget := t.budget - cycles } else t

/-- The end of `__tcap_budget_xfer`. -/
def tcapXferDone (core : TcapCore) (d s : Nat) : TcapCore :=
  let core := if core.isActive d then core else core.activeAddBefore s d
  if (core.tcaps s).budget = 0 then core.activeRem s else core

def tcapBudgetXfer (core : TcapCore) (d s cycles : Nat) : Except Fault (Int × TcapCore) :=
  let bs := (core.tcaps s).budget
  if ¬core.isActive s then .error .assertion
  else if (core.tcaps s).cpuid ≠ core.cosInfo.cpuid ∨
      (core.tcaps d).cpuid ≠ (core.tcaps s).cpuid then .ok (-1, core)
  else
    let cycles := if cycles = 0 then bs else cycles
    if cycles = tcapResInf then
      if bs ≠ tcapResInf then .ok (-1, core)
      else .ok (0, tcapXferDone (core.modify d fun t => { t with budget := tcapResInf }) d s)
    else
      let cycles := if cycles > bs then bs else cycles
      .ok (0, tcapXferDone ((core.modify d (·.gain cycles)).modify s (·.spend cycles)) d s)

theorem modify_tcaps (core : TcapCore) (t other : Nat) (change : Tcap → Tcap) :
    (core.modify t change).tcaps other =
      if other = t then change (core.tcaps t) else core.tcaps other := by
  unfold TcapCore.modify
  by_cases same : other = t
  · subst same
    simp
  · simp [same]

/-- A transfer changes budgets and the list of the tcaps that have one. -/
structure BudgetsOnly (core core' : TcapCore) : Prop where
  tcaps : ∀ t, core'.tcaps t = { core.tcaps t with budget := (core'.tcaps t).budget }
  cosInfo : core'.cosInfo = { core.cosInfo with tcaps := core'.cosInfo.tcaps }

section Transfer

variable {core core' core'' : TcapCore}

theorem BudgetsOnly.refl (core : TcapCore) : BudgetsOnly core core := ⟨fun _ => rfl, rfl⟩

theorem BudgetsOnly.trans (first : BudgetsOnly core core') (second : BudgetsOnly core' core'') :
    BudgetsOnly core core'' :=
  ⟨fun t => (second.tcaps t).trans (by rw [first.tcaps t]),
    second.cosInfo.trans (by rw [first.cosInfo])⟩

theorem budgetsOnly_modify (core : TcapCore) (t : Nat) {change : Tcap → Tcap}
    (only : ∀ tc, change tc = { tc with budget := (change tc).budget }) :
    BudgetsOnly core (core.modify t change) := by
  refine ⟨fun other => ?_, rfl⟩
  rw [modify_tcaps]
  split_ifs with here
  · rw [here]
    exact only _
  · rfl

theorem budgetsOnly_xferDone (core : TcapCore) (d s : Nat) :
    BudgetsOnly core (tcapXferDone core d s) := by
  unfold tcapXferDone TcapCore.activeRem TcapCore.activeAddBefore
  simp only
  split_ifs <;> exact ⟨fun _ => rfl, rfl⟩

theorem budgetsOnly_budgetXfer {d s cycles : Nat} {ret : Int}
    (result : tcapBudgetXfer core d s cycles = .ok (ret, core')) : BudgetsOnly core core' := by
  have gain (amount : Nat) (tc : Tcap) :
      tc.gain amount = { tc with budget := (tc.gain amount).budget } := by
    unfold Tcap.gain
    split_ifs <;> rfl
  have spend (amount : Nat) (tc : Tcap) :
      tc.spend amount = { tc with budget := (tc.spend amount).budget } := by
    unfold Tcap.spend
    split_ifs <;> rfl
  unfold tcapBudgetXfer at result
  simp only at result
  generalize (if cycles = 0 then (core.tcaps s).budget else cycles) = asked at result
  generalize (if asked > (core.tcaps s).budget then (core.tcaps s).budget else asked) = moved
    at result
  split_ifs at result
  any_goals
    cases result
    exact .refl core
  · cases result
    exact (budgetsOnly_modify core d fun _ => rfl).trans (budgetsOnly_xferDone _ d s)
  · cases result
    exact ((budgetsOnly_modify core d (gain moved)).trans
      (budgetsOnly_modify _ s (spend moved))).trans
      (budgetsOnly_xferDone _ d s)

end Transfer

/-- The variables of the loop of `tcap_delegate`: the two tcaps, how far their
delegations were read, the entries of `deleg_tmp`, and where the entry of the
destination is among them. -/
structure DelegMerge where
  dst : Tcap
  src : Tcap
  i : Nat
  j : Nat
  tmp : List TcapSchedInfo
  si : Option Nat

def TcapSchedInfo.grant (n : TcapSchedInfo) (s prio : Nat) : TcapSchedInfo :=
  if n.tcapUid = s then { n with prio := prio } else n

namespace DelegMerge

def takeSrc (m : DelegMerge) (s prio : Nat) : TcapSchedInfo × DelegMerge :=
  let n := (m.src.delegations m.j).grant s prio
  (n, { m with
    src := { m.src with delegations := Function.update m.src.delegations m.j n }
    j := m.j + 1 })

def takeDst (m : DelegMerge) (s prio : Nat) : TcapSchedInfo × DelegMerge :=
  let n := (m.dst.delegations m.i).grant s prio
  (n, { m with
    dst := { m.dst with delegations := Function.update m.dst.delegations m.i n }
    i := m.i + 1 })

def takeBoth (m : DelegMerge) (s prio : Nat) : TcapSchedInfo × DelegMerge :=
  let t := m.src.delegations m.j
  let own := (m.dst.delegations m.i).prio
  let n := (if own > t.prio then { t with prio := own } else t).grant s prio
  (n, { m with i := m.i + 1, j := m.j + 1 })

def take (m : DelegMerge) (s prio : Nat) : TcapSchedInfo × DelegMerge :=
  let dstUid := (m.dst.delegations m.i).tcapUid
  let srcUid := (m.src.delegations m.j).tcapUid
  if m.i = m.dst.ndelegs then m.takeSrc s prio
  else if m.j = m.src.ndelegs ∨ dstUid < srcUid then m.takeDst s prio
  else if dstUid > srcUid then m.takeSrc s prio
  else m.takeBoth s prio

/-- The loop of `tcap_delegate`.  Every iteration reads an entry, so that the
number of entries bounds the number of iterations. -/
def loop (d s prio : Nat) : Nat → DelegMerge → Int × DelegMerge
  | 0, m => (0, m)
  | entries + 1, m =>
    if m.i < m.dst.ndelegs ∨ m.j < m.src.ndelegs then
      let (n, m) := m.take s prio
      if m.tmp.length = tcapMaxDelegations then (-Errno.enomem, m)
      else
        loop d s prio entries
          { m with
            tmp := m.tmp ++ [n]
            si := if d = n.tcapUid then some m.tmp.length else m.si }
    else (0, m)

def run (dst src : Tcap) (prio : Nat) : Int × DelegMerge :=
  loop dst.schedInfo.tcapUid src.schedInfo.tcapUid prio (dst.ndelegs + src.ndelegs)
    ⟨dst, src, 0, 0, [], none⟩

end DelegMerge

def Tcap.setDelegations (t : Tcap) (tmp : List TcapSchedInfo) (si prio : Nat) : Tcap :=
  setprio
    { t with
      delegations := fun k => (tmp[k]?).getD (t.delegations k)
      ndelegs := tmp.length
      currSchedOff := si
      permPrio := prio } prio

def TcapCore.merging (core : TcapCore) (dst src : Nat) (m : DelegMerge) : TcapCore :=
  (core.modify dst fun _ => m.dst).modify src fun _ => m.src

/-- The end of `tcap_delegate`, after the loop. -/
def tcapGrant (core : TcapCore) (dst src cycles prio : Nat) (m : DelegMerge) :
    Except Fault (Int × TcapCore) := do
  let (ret, core) ← tcapBudgetXfer core dst src cycles
  if ret ≠ 0 then .ok (-Errno.einval, core)
  else if m.tmp.length < 2 then .error .assertion
  else
    match m.si with
    | none => .error .assertion
    | some si => .ok (0, core.modify dst fun t => t.setDelegations m.tmp si prio)

def tcapDelegate (core : TcapCore) (dst src cycles prio : Nat) : Except Fault (Int × TcapCore) :=
  let dstTcap := core.tcaps dst
  let srcTcap := core.tcaps src
  if dstTcap.arcvEp = none then .error .assertion
  else if dstTcap.ndelegs > tcapMaxDelegations then .ok (-Errno.enomem, core)
  else if srcTcap.cpuid ≠ core.cosInfo.cpuid ∨ dstTcap.cpuid ≠ srcTcap.cpuid then
    .ok (-Errno.einval, core)
  else if ¬core.isActive src then .ok (-Errno.eperm, core)
  else if dst = src then
    .ok (0, core.modify dst fun t => { t.setprio prio with permPrio := prio })
  else
    let prio := if prio = 0 then srcTcap.schedInfo.prio else prio
    let (ret, m) := DelegMerge.run dstTcap srcTcap prio
    if ret ≠ 0 then .ok (ret, core.merging dst src m)
    else tcapGrant (core.merging dst src m) dst src cycles prio m

/-- The priority that `tcap_delegate` grants. -/
def TcapCore.requested (core : TcapCore) (src prio : Nat) : Nat :=
  if prio = 0 then (core.tcaps src).schedInfo.prio else prio

/-- How `tcap_delegate` returns. -/
inductive DelegateOutcome (core : TcapCore) (dst src cycles prio : Nat) :
    Int → TcapCore → Prop where
  | refused {ret : Int} : ret ≠ 0 → DelegateOutcome core dst src cycles prio ret core
  | own : dst = src →
      DelegateOutcome core dst src cycles prio 0
        (core.modify dst fun t => { t.setprio prio with permPrio := prio })
  | noRoom {ret : Int} {m : DelegMerge} : dst ≠ src → ret ≠ 0 →
      DelegMerge.run (core.tcaps dst) (core.tcaps src) (core.requested src prio) = (ret, m) →
      DelegateOutcome core dst src cycles prio ret (core.merging dst src m)
  | noBudget {ret failed : Int} {m : DelegMerge} {core' : TcapCore} : dst ≠ src →
      (core.tcaps src).cpuid = core.cosInfo.cpuid →
      (core.tcaps dst).cpuid = (core.tcaps src).cpuid →
      DelegMerge.run (core.tcaps dst) (core.tcaps src) (core.requested src prio) = (0, m) →
      tcapBudgetXfer (core.merging dst src m) dst src cycles = .ok (failed, core') →
      failed ≠ 0 → ret ≠ 0 → DelegateOutcome core dst src cycles prio ret core'
  | delegated {m : DelegMerge} {core' : TcapCore} {si : Nat} : dst ≠ src →
      DelegMerge.run (core.tcaps dst) (core.tcaps src) (core.requested src prio) = (0, m) →
      tcapBudgetXfer (core.merging dst src m) dst src cycles = .ok (0, core') → m.si = some si →
      DelegateOutcome core dst src cycles prio 0
        (core'.modify dst fun t => t.setDelegations m.tmp si (core.requested src prio))

theorem tcapDelegate_outcome {core core' : TcapCore} {dst src cycles prio : Nat} {ret : Int}
    (result : tcapDelegate core dst src cycles prio = .ok (ret, core')) :
    DelegateOutcome core dst src cycles prio ret core' := by
  unfold tcapDelegate at result
  simp only at result
  generalize chosen : (if prio = 0 then (core.tcaps src).schedInfo.prio else prio) = prio' at result
  obtain rfl : core.requested src prio = prio' := chosen
  rcases ran : DelegMerge.run (core.tcaps dst) (core.tcaps src) (core.requested src prio) with
    ⟨merged, m⟩
  rw [ran] at result
  split_ifs at result with isactive many cpuid active same failed
  any_goals
    cases result
    exact .refused (by decide)
  · cases result
    exact .own same
  · cases result
    exact .noRoom same failed ran
  · obtain ⟨onCore, together⟩ := not_or.mp cpuid
    obtain ⟨⟨moved, core₂⟩, transfer, rest⟩ := Checked.bind_eq_ok.mp result
    obtain rfl : merged = 0 := not_not.mp failed
    simp only at rest
    by_cases refused : moved = 0
    · subst refused
      simp only [ne_eq, not_true_eq_false, if_false] at rest
      split_ifs at rest
      cases located : m.si with
      | none => simp [located] at rest
      | some si =>
        simp only [located] at rest
        cases rest
        exact .delegated same ran transfer located
    · rw [if_pos refused] at rest
      cases rest
      exact .noBudget same (not_not.mp onCore) (not_not.mp together) ran transfer refused
        (by decide)

/-- The stores of `tcap_delete`. -/
def Tcap.clear (t : Tcap) : Tcap :=
  { t with
    budget := 0
    ndelegs := 0
    currSchedOff := 0
    cpuid := 0
    permPrio := 0
    delegations := fun _ => ⟨0, 0⟩ }

/-- `tcap_delete`, which leaves the list of active tcaps alone. -/
def tcapDelete (core : TcapCore) (tcap : Nat) : Int × TcapCore :=
  if (core.tcaps tcap).refcnt ≠ 1 then (-1, core)
  else
    let core := core.modify tcap Tcap.clear
    if core.cosInfo.nextTi.tc = some tcap then
      (0, { core with cosInfo := { core.cosInfo with nextTi := .clear } })
    else (0, core)

def tcapMerge (core : TcapCore) (dst rm : Nat) : Except Fault (Int × TcapCore) :=
  if dst = rm then .ok (-1, core)
  else if (core.tcaps rm).refcnt > 1 then .ok (-1, core)
  else do
    let (ret, core) ← tcapDelegate core dst rm 0 (core.tcaps dst).schedInfo.prio
    if ret ≠ 0 then .ok (-1, core)
    else
      let (ret, core) := tcapDelete core rm
      if ret ≠ 0 then .error .assertion else .ok (0, core)

theorem tcapMerge_cases {core core' : TcapCore} {dst rm : Nat} {ret : Int}
    (result : tcapMerge core dst rm = .ok (ret, core')) :
    (ret ≠ 0 ∧ core' = core) ∨ dst ≠ rm ∧ (core.tcaps rm).refcnt ≤ 1 ∧ ∃ failed core₁,
      DelegateOutcome core dst rm 0 (core.tcaps dst).schedInfo.prio failed core₁ ∧
        ((ret ≠ 0 ∧ failed ≠ 0 ∧ core' = core₁) ∨
          (ret = 0 ∧ failed = 0 ∧ core' = (tcapDelete core₁ rm).2 ∧
            (tcapDelete core₁ rm).1 = 0)) := by
  unfold tcapMerge at result
  split_ifs at result with same referenced
  any_goals
    cases result
    exact .inl ⟨by decide, rfl⟩
  obtain ⟨⟨delegated, core₁⟩, delegation, rest⟩ := Checked.bind_eq_ok.mp result
  refine .inr ⟨same, not_lt.mp referenced, delegated, core₁, tcapDelegate_outcome delegation, ?_⟩
  simp only at rest
  split_ifs at rest with failed kept
  · cases rest
    exact .inl ⟨by decide, failed, rfl⟩
  · cases rest
    exact .inr ⟨rfl, not_not.mp failed, rfl, not_not.mp kept⟩

inductive TcapOp where
  | activate (t : Nat)
  | bind (t thd : Nat)
  | unbind (t thd : Nat)
  | delegate (dst src cycles prio : Nat)
  | merge (dst rm : Nat)
  | consume (t cycles : Nat)

/-- A core with the tcaps it has created.  A page that holds a tcap is never given
back. -/
structure TcapWorld where
  core : TcapCore
  created : Finset Nat

namespace TcapWorld

def named : TcapOp → List Nat
  | .activate _ => []
  | .bind t _ | .unbind t _ | .consume t _ => [t]
  | .delegate dst src .. => [dst, src]
  | .merge dst rm => [dst, rm]

def perform (thresh : Nat) (core : TcapCore) : TcapOp → Except Fault (Int × TcapCore)
  | .activate t =>
    let core' := core.modify t fun tc => tc.init core.cosInfo.cpuid core.cosInfo.tcapUid
    .ok (0, { core' with cosInfo :=
      { core'.cosInfo with tcapUid := (core.cosInfo.tcapUid + 1) % 2 ^ 64 } })
  | .bind t thd => .ok (0, core.modify t (·.bind thd))
  | .unbind t thd =>
    if (core.tcaps t).refcnt > 1 ∧ (core.tcaps t).arcvEp = some thd then .ok (-1, core)
    else .ok (0, core.modify t Tcap.unbind)
  | .delegate dst src cycles prio => tcapDelegate core dst src (cycles % 2 ^ 32) prio
  | .merge dst rm => tcapMerge core dst rm
  | .consume t cycles => .ok (0, tcapConsume thresh core t (cycles % 2 ^ 32))

/-- A tcap is created in a page that holds none yet, and only created tcaps are
named.  A failed assertion ends the run. -/
def next (thresh : Nat) (w : TcapWorld) (op : TcapOp) : Option TcapWorld :=
  if ∀ t ∈ named op, t ∈ w.created then
    match perform thresh w.core op with
    | .error _ => none
    | .ok (_, core) =>
      match op with
      | .activate t => if t ∈ w.created then none else some ⟨core, insert t w.created⟩
      | _ => some ⟨core, w.created⟩
  else none

theorem next_perform {thresh : Nat} {w w' : TcapWorld} {op : TcapOp}
    (stepped : next thresh w op = some w') :
    (∀ t ∈ named op, t ∈ w.created) ∧
      ∃ ret, perform thresh w.core op = .ok (ret, w'.core) ∧
        ((∃ t, op = .activate t ∧ t ∉ w.created ∧ w'.created = insert t w.created) ∨
          (∀ t, op ≠ .activate t) ∧ w'.created = w.created) := by
  unfold next at stepped
  split_ifs at stepped with names
  refine ⟨names, ?_⟩
  cases performed : perform thresh w.core op with
  | error fault => simp [performed] at stepped
  | ok result =>
    obtain ⟨ret, core⟩ := result
    rw [performed] at stepped
    cases op with
    | activate t =>
      simp only at stepped
      split_ifs at stepped with exists_
      cases stepped
      exact ⟨ret, rfl, .inl ⟨t, rfl, exists_, rfl⟩⟩
    | _ =>
      cases stepped
      exact ⟨ret, rfl, .inr ⟨nofun, rfl⟩⟩

end TcapWorld

/-- A core at boot time: one tcap, which has an infinite budget and belongs to the
thread `thd`. -/
def TcapWorld.boot (tcap thd : Nat) : TcapWorld where
  core :=
    { tcaps := Function.update (fun _ => Tcap.zero) tcap
        { Tcap.zero with arcvEp := some thd, refcnt := 2, budget := tcapResInf, ndelegs := 1 }
      cosInfo := ⟨0, thd, 0, .clear, tcap, [tcap], 1, 0, 0⟩ }
  created := {tcap}

end Composite
