import Composite.Kernel.Config

/-!
# The deadlines of the memory-copy agent

The agent keeps one table with a deadline for every flow that the network card delivers and for
every thread of a network function.  A slot of the table is a number, and the agent tells a flow
from a thread by comparing it with the number of chains.  A failed assertion is `none`.
-/

namespace Composite.Eos

open Function Option

def nfMinCore : Nat := 4

def eosMaxChainNumPerCore : Nat := 1

def eosMaxNfChainTypeNum : Nat := 3

def eosMaxChainNum : Nat := eosMaxChainNumPerCore * (numCpu - nfMinCore) + eosMaxNfChainTypeNum

def eosMaxFlowNum : Nat := 2048

def mcaConnMaxNum : Nat := 2048

def eosMaxDeadline : Nat := 2 ^ 64 - 1

def flowStartPort : Int := 11211

/-- `struct mca_info`, without the ring of deadlines that nothing reads. -/
structure McaInfo where
  deadline : Nat
  infoIdx : Nat
  used : Bool
  emptyFlag : Bool
  deriving DecidableEq, Repr

/-- `global_info`. -/
abbrev InfoTable := Nat → McaInfo

def InfoTable.setDeadline (table : InfoTable) (slot deadline : Nat) : InfoTable :=
  Function.update table slot { table slot with deadline := deadline }

/-- The flow of a packet from its source port, as `ninf_get_nf_ring` accepts it. -/
def flowOfPort (port : UInt16) : Option Nat :=
  let cid : Int := port.toNat - flowStartPort
  if 0 ≤ cid ∧ cid < eosMaxFlowNum then some cid.toNat else none

inductive Source where
  | flow (cid : Nat)
  | thread (tid : Nat)
  deriving DecidableEq, Repr

/-- The slot that `ninf_setup_new_chain`, `fwp_chain_activate` and `mca_xcpu_process` compute. -/
def Source.slot : Source → Nat
  | .flow cid => cid
  | .thread tid => tid + eosMaxChainNum

def isNicSlot (slot : Nat) : Bool := slot < eosMaxChainNum

/-- The two slots of `struct mca_conn`. -/
structure McaConn where
  srcInfo : Nat
  dstInfo : Nat
  deriving DecidableEq, Repr

/-- A `struct mca_op`: a thread, and the packet counter of its output ring when the op is read. -/
structure McaOp where
  tid : Nat
  outputCnt : Int
  deriving DecidableEq, Repr

/-- `mca_xcpu_process` for one op. -/
def mcaXcpuOp (table : InfoTable) (op : McaOp) : Option InfoTable :=
  if ¬op.tid < mcaConnMaxNum then none
  else
    let idx := (Source.thread op.tid).slot
    if op.outputCnt > 0 then
      some (Function.update table idx { table idx with emptyFlag := true })
    else some (table.setDeadline idx eosMaxDeadline)

def mcaXcpuProcess (table : InfoTable) (ops : List McaOp) : Option InfoTable :=
  ops.foldlM mcaXcpuOp table

def maxAhead : Nat := 500 * 1000 * 2100

/-- `OFFSET_US` in cycles. -/
def offsetCycles : Nat := 1000 * 2100

def resetEmpty (table : InfoTable) (dst : Nat) (outputCnt inputCnt : Int) : InfoTable :=
  if (table dst).emptyFlag ∧ outputCnt = 0 ∧ inputCnt = 0 then
    Function.update table dst { table dst with deadline := eosMaxDeadline, emptyFlag := false }
  else table

/-- What `deadline` of the source is when the agent asserts that it is set. -/
def McaInfo.stored (info : McaInfo) (deadline : Nat) : Nat :=
  if isNicSlot info.infoIdx then deadline else info.deadline

def McaInfo.chosen (info : McaInfo) (deadline : Nat) : Nat :=
  if info.stored deadline = eosMaxDeadline then deadline else info.stored deadline

def sourceDeadline (table : InfoTable) (src deadline curr : Nat) : Option InfoTable :=
  if isNicSlot (table src).infoIdx ∧ ¬(deadline < eosMaxDeadline ∧ deadline ≤ maxAhead + curr) then
    none
  else if (table src).stored deadline = 0 then none
  else if (table src).chosen deadline < eosMaxDeadline then
    some (table.setDeadline src ((table src).chosen deadline))
  else none

/-- The transfer has to wait: its deadline is later than what the destination works on, or the
round is not one of the first two. -/
def deferred (table : InfoTable) (src dst round : Nat) : Bool :=
  (¬isNicSlot (table src).infoIdx ∧ (table src).deadline > (table dst).deadline) ∨
    ((table src).deadline + (2 ^ 64 - offsetCycles)) % 2 ^ 64 > (table dst).deadline ∨ round > 1

/-- The part of `mca_process` on deadlines before a transfer, after the ops. -/
def mcaAdmit (table : InfoTable) (conn : McaConn) (outputCnt inputCnt : Int)
    (deadline curr round : Nat) : Option (Bool × InfoTable) := do
  let table := resetEmpty table conn.dstInfo outputCnt inputCnt
  let table ← sourceDeadline table conn.srcInfo deadline curr
  some (!deferred table conn.srcInfo conn.dstInfo round, table)

/-- The part of `mca_process` on deadlines after a transfer, with the deadline of the wakeup;
`sent` says that `eos_thd_wakeup_with_dl` returned zero. -/
def mcaWake (table : InfoTable) (conn : McaConn) (curr : Nat) (sent : Bool) :
    Option (InfoTable × Nat) :=
  let src := (table conn.srcInfo).deadline
  let dst := (table conn.dstInfo).deadline
  if dst > src then
    if src < eosMaxDeadline ∧ dst = eosMaxDeadline ∧ src ≠ 0 ∧ src ≤ curr + maxAhead ∧ sent then
      some (table.setDeadline conn.dstInfo src, src)
    else none
  else if src ≠ eosMaxDeadline ∧ dst ≠ eosMaxDeadline ∧ dst ≤ curr + maxAhead ∧ sent then
    some (table, dst)
  else none

/-- All of `mca_process` on deadlines in one round, with the deadline of the wakeup if there is
a transfer. -/
def deadlineRound (table : InfoTable) (conn : McaConn) (outputCnt inputCnt : Int)
    (deadline curr round later : Nat) (sent : Bool) : Option (InfoTable × Option Nat) := do
  let (admitted, table) ← mcaAdmit table conn outputCnt inputCnt deadline curr round
  if admitted then
    let (table, wake) ← mcaWake table conn later sent
    some (table, some wake)
  else some (table, none)

/-! Which slots a round for a flow reads and writes. -/

def SameBut (slot : Nat) (table other : InfoTable) : Prop :=
  ∀ i, i ≠ slot → table i = other i

variable {slot deadline curr : Nat} {table after other : InfoTable} {conn : McaConn}

theorem resetEmpty_other (table : InfoTable) {dst : Nat} (outputCnt inputCnt : Int)
    (other : slot ≠ dst) : resetEmpty table dst outputCnt inputCnt slot = table slot := by
  unfold resetEmpty
  split
  · exact update_of_ne other ..
  · rfl

theorem setDeadline_other {i : Nat} (other : i ≠ slot) (deadline : Nat) :
    table.setDeadline slot deadline i = table i := update_of_ne other ..

theorem sourceDeadline_other {src : Nat} (other : slot ≠ src)
    (passed : sourceDeadline table src deadline curr = some after) : after slot = table slot := by
  unfold sourceDeadline at passed
  split at passed
  · cases passed
  · split at passed
    · cases passed
    · split at passed
      · exact some.inj passed ▸ setDeadline_other other _
      · cases passed

theorem mcaAdmit_other {outputCnt inputCnt : Int} {round : Nat} {admitted : Bool}
    (not_src : slot ≠ conn.srcInfo) (not_dst : slot ≠ conn.dstInfo)
    (passed : mcaAdmit table conn outputCnt inputCnt deadline curr round = some (admitted, after)) :
    after slot = table slot := by
  obtain ⟨middle, sourced, result⟩ := bind_eq_some_iff.mp passed
  cases result
  rw [sourceDeadline_other not_src sourced, resetEmpty_other table outputCnt inputCnt not_dst]

theorem mcaWake_other {wake : Nat} {sent : Bool} (not_dst : slot ≠ conn.dstInfo)
    (passed : mcaWake table conn curr sent = some (after, wake)) : after slot = table slot := by
  unfold mcaWake at passed
  simp only at passed
  split at passed
  · split at passed
    · cases passed
      exact setDeadline_other not_dst _
    · cases passed
  · split at passed
    · cases passed
      rfl
    · cases passed

theorem deadlineRound_other {outputCnt inputCnt : Int} {round later : Nat} {sent : Bool}
    {wake : Option Nat} (not_src : slot ≠ conn.srcInfo) (not_dst : slot ≠ conn.dstInfo)
    (passed : deadlineRound table conn outputCnt inputCnt deadline curr round later sent =
      some (after, wake)) : after slot = table slot := by
  obtain ⟨⟨admitted, middle⟩, first, rest⟩ := bind_eq_some_iff.mp passed
  have kept := mcaAdmit_other not_src not_dst first
  simp only at rest
  split at rest
  · obtain ⟨⟨last, deadline⟩, second, result⟩ := bind_eq_some_iff.mp rest
    cases result
    exact (mcaWake_other not_dst second).trans kept
  · cases rest
    exact kept

theorem SameBut.update (same : SameBut slot table other) (i : Nat) (info : McaInfo) :
    SameBut slot (update table i info) (update other i info) := by
  intro j apart
  by_cases at_i : j = i
  · subst at_i
    rw [update_self, update_self]
  · rw [update_of_ne at_i, update_of_ne at_i]
    exact same j apart

theorem SameBut.resetEmpty {dst : Nat} (same : SameBut slot table other) (not_dst : dst ≠ slot)
    (outputCnt inputCnt : Int) :
    SameBut slot (resetEmpty table dst outputCnt inputCnt)
      (Eos.resetEmpty other dst outputCnt inputCnt) := by
  unfold Eos.resetEmpty
  rw [same dst not_dst]
  split
  · exact same.update dst _
  · exact same

def AlikeBut {α : Type} (slot : Nat) : Option (InfoTable × α) → Option (InfoTable × α) → Prop
  | some (table, result), some (table', result') => SameBut slot table table' ∧ result = result'
  | none, none => True
  | _, _ => False

theorem SameBut.sourceDeadline {src : Nat} (same : SameBut slot table other)
    (not_src : src ≠ slot) (deadline curr : Nat) :
    (∃ after after', sourceDeadline table src deadline curr = some after ∧
      Eos.sourceDeadline other src deadline curr = some after' ∧ SameBut slot after after') ∨
    sourceDeadline table src deadline curr = none ∧
      Eos.sourceDeadline other src deadline curr = none := by
  unfold Eos.sourceDeadline InfoTable.setDeadline
  rw [same src not_src]
  split
  · exact .inr ⟨rfl, rfl⟩
  · split
    · exact .inr ⟨rfl, rfl⟩
    · split
      · exact .inl ⟨_, _, rfl, rfl, same.update src _⟩
      · exact .inr ⟨rfl, rfl⟩

theorem SameBut.mcaWake (same : SameBut slot table other) (not_src : conn.srcInfo ≠ slot)
    (not_dst : conn.dstInfo ≠ slot) (curr : Nat) (sent : Bool) :
    AlikeBut slot (mcaWake table conn curr sent) (Eos.mcaWake other conn curr sent) := by
  unfold Eos.mcaWake InfoTable.setDeadline
  rw [same _ not_src, same _ not_dst]
  simp only
  split
  · split
    · exact ⟨same.update _ _, rfl⟩
    · trivial
  · split
    · exact ⟨same, rfl⟩
    · trivial

theorem SameBut.deadlineRound (same : SameBut slot table other) (not_src : conn.srcInfo ≠ slot)
    (not_dst : conn.dstInfo ≠ slot) (outputCnt inputCnt : Int) (deadline curr round later : Nat)
    (sent : Bool) :
    AlikeBut slot (deadlineRound table conn outputCnt inputCnt deadline curr round later sent)
      (Eos.deadlineRound other conn outputCnt inputCnt deadline curr round later sent) := by
  unfold Eos.deadlineRound mcaAdmit
  have reset := same.resetEmpty not_dst outputCnt inputCnt
  rcases reset.sourceDeadline not_src deadline curr with
    ⟨after, after', first, second, alike⟩ | ⟨first, second⟩
  · have tested : deferred after conn.srcInfo conn.dstInfo round =
        deferred after' conn.srcInfo conn.dstInfo round := by
      unfold deferred
      rw [alike _ not_src, alike _ not_dst]
    simp only [first, second, bind_eq_bind, bind_some, tested]
    split
    · have woken := alike.mcaWake not_src not_dst later sent
      revert woken
      cases Eos.mcaWake after conn later sent <;> cases Eos.mcaWake after' conn later sent
      · exact fun _ => trivial
      · exact False.elim
      · exact False.elim
      · rintro ⟨tables, wakes⟩
        exact ⟨tables, congrArg some wakes⟩
    · exact ⟨alike, rfl⟩
  · simp only [first, second, bind_eq_bind, bind_none]
    trivial

/-! Flows and threads. -/

/-- The agent keeps a flow apart from the threads: the slots differ, the test for the network card
is right for both, and a round for the flow towards one function neither writes nor reads the
deadline of another. -/
structure FlowApart (cid : Nat) : Prop where
  disjoint : ∀ tid, (Source.flow cid).slot ≠ (Source.thread tid).slot
  fromNic : isNicSlot (Source.flow cid).slot = true
  fromFunction : ∀ tid, isNicSlot (Source.thread tid).slot = false
  unwritten : ∀ table tid other outputCnt inputCnt deadline curr round later sent after wake,
    other ≠ tid →
    deadlineRound table ⟨(Source.flow cid).slot, (Source.thread tid).slot⟩ outputCnt inputCnt
      deadline curr round later sent = some (after, wake) →
    after (Source.thread other).slot = table (Source.thread other).slot
  unread : ∀ table table' tid other outputCnt inputCnt deadline curr round later sent,
    other ≠ tid → SameBut (Source.thread other).slot table table' →
    AlikeBut (Source.thread other).slot
      (deadlineRound table ⟨(Source.flow cid).slot, (Source.thread tid).slot⟩ outputCnt inputCnt
        deadline curr round later sent)
      (deadlineRound table' ⟨(Source.flow cid).slot, (Source.thread tid).slot⟩ outputCnt inputCnt
        deadline curr round later sent)

theorem thread_slot_ne {tid other : Nat} (apart : other ≠ tid) :
    (Source.thread other).slot ≠ (Source.thread tid).slot :=
  fun same => apart (Nat.add_right_cancel same)

/-- A flow that the receive path accepts is kept apart from the threads exactly if its number is
below the number of chains. -/
theorem flow_apart_iff (port : UInt16) (cid : Nat) (_accepted : flowOfPort port = some cid) :
    FlowApart cid ↔ cid < eosMaxChainNum := by
  constructor
  · intro apart
    exact of_decide_eq_true apart.fromNic
  · intro below
    have disjoint : ∀ tid, (Source.flow cid).slot ≠ (Source.thread tid).slot := by
      intro tid same
      have sum : cid = tid + eosMaxChainNum := same
      omega
    refine ⟨disjoint, decide_eq_true below, fun tid => ?_, ?_, ?_⟩
    · exact decide_eq_false (Nat.not_lt.mpr (Nat.le_add_left ..))
    · intro table tid other _ _ _ _ _ _ _ after wake apart passed
      exact deadlineRound_other (fun same => disjoint other same.symm) (thread_slot_ne apart) passed
    · intro table table' tid other outputCnt inputCnt deadline curr round later sent apart same
      exact same.deadlineRound (disjoint other) (fun eq => thread_slot_ne apart eq.symm) ..

theorem flow_apart_first : flowOfPort 11211 = some 0 ∧ FlowApart 0 :=
  ⟨by decide, (flow_apart_iff 11211 0 (by decide)).mpr (by decide)⟩

/-- Flow 16 has the slot of thread 1. -/
theorem flow_apart_shared :
    flowOfPort 11227 = some 16 ∧ (Source.flow 16).slot = (Source.thread 1).slot ∧
      isNicSlot (Source.flow 16).slot = false ∧ ¬FlowApart 16 := by
  refine ⟨by decide, by decide, by decide, fun apart => ?_⟩
  exact apart.disjoint 1 (by decide)

end Composite.Eos
