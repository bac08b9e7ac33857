import Composite.Eos.DeadlineTable
import Composite.Eos.Ring

/-!
# A round of the memory-copy agent

The agent checks the node at its head and the node it is to fill, copies both, decides by
the deadlines whether the packets may go now, moves them and wakes the next function.  The
two nodes lie in memory that functions write, so that the copies need not be what was
checked.
-/

namespace Composite.Eos

open Function Option

/-- What a round of `mca_process` works on: the rings, the copies of the two nodes, the packet
counter of the output ring of the destination, the deadlines, the clock before and after the
transfer, and whether the wakeup could be sent. -/
structure AgentInput where
  src : Ring
  dst : Ring
  scache : Node
  rcache : Node
  outputCnt : Int
  table : InfoTable
  ops : List McaOp
  conn : McaConn
  round : Nat
  curr : Nat
  later : Nat
  sent : Bool

inductive AgentOutcome where
  /-- There is no node that is ready. -/
  | idle
  /-- The destination has no free node. -/
  | full
  /-- The deadlines do not let the node pass now. -/
  | deferred
  | passed
  deriving DecidableEq, Repr

namespace AgentInput

def sn (a : AgentInput) : Node := a.src.node a.src.mcaHead

def rn (a : AgentInput) : Node := a.dst.node a.dst.freeHead

def sentSrc (a : AgentInput) : Ring :=
  { a.src.setNode a.src.mcaHead { a.scache with state := .sentDone } with
    mcaHead := a.src.mcaHead + 1
    pktCnt := a.src.pktCnt - a.scache.cnt }

def filledDst (a : AgentInput) (rcache : Node) : Ring :=
  { a.dst.setNode a.dst.freeHead rcache with
    freeHead := a.dst.freeHead + 1
    pktCnt := a.dst.pktCnt + a.scache.cnt }

/-- The ops of the threads, and the part on deadlines before the transfer. -/
def deadlinesMet (a : AgentInput) : Option (Bool × InfoTable) := do
  let table ← mcaXcpuProcess a.table a.ops
  mcaAdmit table a.conn a.outputCnt a.dst.pktCnt a.scache.deadline a.curr a.round

/-- The rest of a round of `mca_process`, once both nodes are found to be in order, with what
it touches. -/
def transferRound (a : AgentInput) :
    List Access × Option (AgentOutcome × Ring × Ring × InfoTable) :=
  match a.deadlinesMet with
  | none => ([], none)
  | some (false, table) => ([], some (.deferred, a.src, a.dst, table))
  | some (true, table) =>
    let (accesses, copied) := mcaTransfer a.scache a.rcache
    (accesses, do
      let rcache ← copied
      let (table, _) ← mcaWake table a.conn a.later a.sent
      some (.passed, a.sentSrc, a.filledDst rcache, table))

/-- One round of the loop of `mca_process`. -/
def mcaProcess (a : AgentInput) : List Access × Option (AgentOutcome × Ring × Ring × InfoTable) :=
  if a.sn.state ≠ .sentReady then ([], some (.idle, a.src, a.dst, a.table))
  else if a.rn.state ≠ .free then ([], some (.full, a.src, a.dst, a.table))
  else if a.sn.cnt = 0 ∨ a.rn.cnt ≠ 0 then ([], none)
  else a.transferRound

/-- A first round for a ring, with no deadline in the table. -/
def first (src : Ring) : AgentInput where
  src := src
  dst := .inputInit
  scache := src.node src.mcaHead
  rcache := Ring.inputInit.node 0
  outputCnt := 0
  table slot := ⟨eosMaxDeadline, slot, true, false⟩
  ops := []
  conn := ⟨(Source.thread 1).slot, (Source.thread 2).slot⟩
  round := 0
  curr := 0
  later := 0
  sent := true

end AgentInput

/-! The deadlines that the agent compares. -/

section Ops

variable {table after : InfoTable} {op : McaOp} {ops : List McaOp} {slot : Nat}

/-- The thread of the slot tells the agent that it has sent all it had. -/
def Emptied (ops : List McaOp) (slot : Nat) : Prop :=
  ∃ op ∈ ops, (Source.thread op.tid).slot = slot ∧ op.outputCnt ≤ 0

/-- The thread of the slot tells the agent so, but its output ring still holds packets. -/
def Flagged (ops : List McaOp) (slot : Nat) : Prop :=
  ∃ op ∈ ops, (Source.thread op.tid).slot = slot ∧ ¬op.outputCnt ≤ 0

instance (ops : List McaOp) (slot : Nat) : Decidable (Emptied ops slot) :=
  inferInstanceAs (Decidable (∃ _ ∈ _, _))

instance (ops : List McaOp) (slot : Nat) : Decidable (Flagged ops slot) :=
  inferInstanceAs (Decidable (∃ _ ∈ _, _))

def InfoTable.afterOps (table : InfoTable) (ops : List McaOp) : InfoTable := fun slot =>
  { table slot with
    deadline := if Emptied ops slot then eosMaxDeadline else (table slot).deadline
    emptyFlag := (table slot).emptyFlag || decide (Flagged ops slot) }

theorem mcaXcpuOp_eq (table : InfoTable) (op : McaOp) :
    mcaXcpuOp table op =
      if op.tid < mcaConnMaxNum then some (table.afterOps [op]) else none := by
  unfold mcaXcpuOp
  by_cases bounded : op.tid < mcaConnMaxNum
  · rw [if_neg (not_not.mpr bounded), if_pos bounded]
    simp only
    split_ifs with filled
    all_goals
      refine congrArg some (funext fun slot => ?_)
      by_cases here : slot = (Source.thread op.tid).slot
      · subst here
        simp [InfoTable.afterOps, InfoTable.setDeadline, Emptied, Flagged, not_lt.mp, filled]
      · simp [InfoTable.afterOps, InfoTable.setDeadline, Emptied, Flagged, update_of_ne here,
          Ne.symm here]
  · rw [if_pos bounded, if_neg bounded]

theorem afterOps_cons (table : InfoTable) (op : McaOp) (ops : List McaOp) :
    (table.afterOps [op]).afterOps ops = table.afterOps (op :: ops) := by
  funext slot
  by_cases here : (Source.thread op.tid).slot = slot <;> by_cases sent : op.outputCnt ≤ 0 <;>
    simp [InfoTable.afterOps, Emptied, Flagged, here, sent, Bool.or_assoc]

theorem mcaXcpuProcess_eq_some_iff :
    mcaXcpuProcess table ops = some after ↔
      (∀ op ∈ ops, op.tid < mcaConnMaxNum) ∧ after = table.afterOps ops := by
  induction ops generalizing table with
  | nil =>
    have unchanged : table.afterOps [] = table := by
      funext slot
      simp [InfoTable.afterOps, Emptied, Flagged]
    simp [mcaXcpuProcess, unchanged, eq_comm]
  | cons op ops ih =>
    unfold mcaXcpuProcess at ih ⊢
    rw [List.foldlM_cons, mcaXcpuOp_eq, List.forall_mem_cons]
    split_ifs with bounded
    · rw [bind_eq_bind, bind_some, ih, afterOps_cons, and_assoc]
      exact (and_iff_right bounded).symm
    · simp [bounded]

end Ops

namespace AgentInput

/-- The deadline that the agent holds for a slot when it comes to compare deadlines. -/
def held (a : AgentInput) (slot : Nat) : Nat :=
  if Emptied a.ops slot ∨ slot = a.conn.dstInfo ∧
      ((a.table slot).emptyFlag ∨ Flagged a.ops slot) ∧ a.outputCnt = 0 ∧ a.dst.pktCnt = 0 then
    eosMaxDeadline
  else (a.table slot).deadline

def source (a : AgentInput) : McaInfo :=
  { a.table a.conn.srcInfo with deadline := a.held a.conn.srcInfo }

def srcDeadline (a : AgentInput) : Nat := a.source.chosen a.scache.deadline

def dstDeadline (a : AgentInput) : Nat :=
  if a.conn.dstInfo = a.conn.srcInfo then a.srcDeadline else a.held a.conn.dstInfo

/-- The deadline of a node from the network card is near, the source has a deadline, and the
destination has none that is earlier. -/
structure Admitted (a : AgentInput) : Prop where
  ops : ∀ op ∈ a.ops, op.tid < mcaConnMaxNum
  near : isNicSlot a.source.infoIdx →
    a.scache.deadline < eosMaxDeadline ∧ a.scache.deadline ≤ maxAhead + a.curr
  timed : a.source.stored a.scache.deadline ≠ 0
  finite : a.srcDeadline < eosMaxDeadline
  ordered : ¬isNicSlot a.source.infoIdx → a.srcDeadline ≤ a.dstDeadline
  inTime : (a.srcDeadline + (2 ^ 64 - offsetCycles)) % 2 ^ 64 ≤ a.dstDeadline
  early : a.round ≤ 1

/-- The destination has no deadline and gets that of the source, or it keeps its own, which is
not later; the one it has then is near, and the wakeup can be sent. -/
def Wakes (a : AgentInput) : Prop :=
  a.sent ∧
    if a.srcDeadline < a.dstDeadline then
      a.dstDeadline = eosMaxDeadline ∧ a.srcDeadline ≠ 0 ∧ a.srcDeadline ≤ a.later + maxAhead
    else a.dstDeadline ≠ eosMaxDeadline ∧ a.dstDeadline ≤ a.later + maxAhead

/-- The round comes to the transfer. -/
structure Transfers (a : AgentInput) : Prop where
  ready : a.sn.state = .sentReady
  free : a.rn.state = .free
  counted : a.sn.cnt ≠ 0
  unused : a.rn.cnt = 0
  admitted : a.Admitted

variable {a : AgentInput} {table : InfoTable}

/-- The table after the ops and the reset of the destination. -/
def settled (a : AgentInput) : InfoTable :=
  resetEmpty (a.table.afterOps a.ops) a.conn.dstInfo a.outputCnt a.dst.pktCnt

theorem settled_deadline (a : AgentInput) (slot : Nat) :
    (a.settled slot).deadline = a.held slot := by
  unfold settled resetEmpty held
  by_cases isDst : slot = a.conn.dstInfo
  · subst isDst
    by_cases emptied : Emptied a.ops a.conn.dstInfo <;> split_ifs <;>
      simp_all [InfoTable.afterOps]
  · split_ifs <;> simp_all [InfoTable.afterOps]

theorem settled_infoIdx (a : AgentInput) (slot : Nat) :
    (a.settled slot).infoIdx = (a.table slot).infoIdx := by
  unfold settled resetEmpty
  split_ifs
  · by_cases isDst : slot = a.conn.dstInfo
    · subst isDst
      rw [update_self]
      rfl
    · rw [update_of_ne isDst]
      rfl
  · rfl

theorem settled_stored (a : AgentInput) (deadline : Nat) :
    (a.settled a.conn.srcInfo).stored deadline = a.source.stored deadline := by
  unfold McaInfo.stored
  rw [settled_deadline, settled_infoIdx]
  rfl

theorem settled_chosen (a : AgentInput) :
    (a.settled a.conn.srcInfo).chosen a.scache.deadline = a.srcDeadline := by
  unfold srcDeadline McaInfo.chosen
  rw [settled_stored]

theorem deadlinesMet_eq (ops : ∀ op ∈ a.ops, op.tid < mcaConnMaxNum) :
    a.deadlinesMet = (sourceDeadline a.settled a.conn.srcInfo a.scache.deadline a.curr).map
      fun table => (!deferred table a.conn.srcInfo a.conn.dstInfo a.round, table) := by
  unfold deadlinesMet
  rw [mcaXcpuProcess_eq_some_iff.mpr ⟨ops, rfl⟩, map_eq_bind]
  rfl

/-- The table after the part on deadlines that precedes a transfer. -/
def updated (a : AgentInput) : InfoTable := a.settled.setDeadline a.conn.srcInfo a.srcDeadline

theorem updated_src (a : AgentInput) : (a.updated a.conn.srcInfo).deadline = a.srcDeadline := by
  simp [updated, InfoTable.setDeadline]

theorem updated_dst (a : AgentInput) : (a.updated a.conn.dstInfo).deadline = a.dstDeadline := by
  unfold updated InfoTable.setDeadline dstDeadline
  split_ifs with same
  · rw [same, update_self]
  · rw [update_of_ne same, settled_deadline]

theorem updated_infoIdx (a : AgentInput) :
    (a.updated a.conn.srcInfo).infoIdx = a.source.infoIdx := by
  simp [updated, InfoTable.setDeadline, settled_infoIdx, source]

theorem sourceDeadline_settled (a : AgentInput) :
    sourceDeadline a.settled a.conn.srcInfo a.scache.deadline a.curr = some table ↔
      (isNicSlot a.source.infoIdx →
        a.scache.deadline < eosMaxDeadline ∧ a.scache.deadline ≤ maxAhead + a.curr) ∧
      a.source.stored a.scache.deadline ≠ 0 ∧ a.srcDeadline < eosMaxDeadline ∧
      table = a.updated := by
  unfold sourceDeadline
  have infoIdx : (a.settled a.conn.srcInfo).infoIdx = a.source.infoIdx := settled_infoIdx a _
  rw [settled_stored, settled_chosen, infoIdx]
  split_ifs with late unset finite
  · refine iff_of_false (by simp) fun admitted => late.2 (admitted.1 late.1)
  · exact iff_of_false (by simp) fun admitted => admitted.2.1 unset
  · have near := fun nic => not_not.mp (not_and.mp late nic)
    exact ⟨fun set => ⟨near, unset, finite, (some.inj set).symm⟩,
      fun admitted => congrArg some admitted.2.2.2.symm⟩
  · exact iff_of_false (by simp) fun admitted => finite admitted.2.2.1

theorem deferred_updated (a : AgentInput) :
    deferred a.updated a.conn.srcInfo a.conn.dstInfo a.round = false ↔
      (¬isNicSlot a.source.infoIdx → a.srcDeadline ≤ a.dstDeadline) ∧
      (a.srcDeadline + (2 ^ 64 - offsetCycles)) % 2 ^ 64 ≤ a.dstDeadline ∧ a.round ≤ 1 := by
  unfold deferred
  rw [updated_src, updated_dst, updated_infoIdx, decide_eq_false_iff_not]
  simp only [not_or, not_and, gt_iff_lt, not_lt]

/-- The round is let through exactly under these comparisons of deadlines. -/
theorem deadlinesMet_eq_true_iff (a : AgentInput) :
    a.deadlinesMet = some (true, table) ↔ a.Admitted ∧ table = a.updated := by
  by_cases ops : ∀ op ∈ a.ops, op.tid < mcaConnMaxNum
  · rw [deadlinesMet_eq ops, map_eq_some_iff]
    constructor
    · rintro ⟨_, sourced, result⟩
      obtain ⟨near, timed, finite, rfl⟩ := a.sourceDeadline_settled.mp sourced
      obtain ⟨passes, rfl⟩ := Prod.mk.inj result
      obtain ⟨ordered, inTime, early⟩ := a.deferred_updated.mp (by simpa using passes)
      exact ⟨⟨ops, near, timed, finite, ordered, inTime, early⟩, rfl⟩
    · rintro ⟨admitted, rfl⟩
      refine ⟨a.updated, a.sourceDeadline_settled.mpr
        ⟨admitted.near, admitted.timed, admitted.finite, rfl⟩, ?_⟩
      rw [a.deferred_updated.mpr ⟨admitted.ordered, admitted.inTime, admitted.early⟩]
      rfl
  · refine iff_of_false (fun admitted => ?_) fun admitted => ops admitted.1.ops
    obtain ⟨first, processed, -⟩ := bind_eq_some_iff.mp admitted
    exact ops (mcaXcpuProcess_eq_some_iff.mp processed).1

theorem mcaWake_updated (finite : a.srcDeadline < eosMaxDeadline) :
    mcaWake a.updated a.conn a.later a.sent ≠ none ↔ a.Wakes := by
  unfold mcaWake Wakes
  simp only [updated_src, updated_dst]
  split_ifs with later first second
  all_goals
    simp only [ne_eq, reduceCtorEq, not_false_eq_true, not_true_eq_false, true_iff, false_iff]
  · exact ⟨first.2.2.2.2, first.2.1, first.2.2.1, first.2.2.2.1⟩
  · exact fun wakes => first ⟨finite, wakes.2.1, wakes.2.2.1, wakes.2.2.2, wakes.1⟩
  · exact ⟨second.2.2.2, second.2.1, second.2.2.1⟩
  · exact fun wakes => second ⟨finite.ne, wakes.2.1, wakes.2.2, wakes.1⟩

/-- What a round touches is what the transfer touches, if it comes to that. -/
theorem mcaProcess_accesses (a : AgentInput) (P : Access → Prop) :
    (∀ access ∈ a.mcaProcess.1, P access) ↔
      (a.Transfers → ∀ access ∈ (mcaTransfer a.scache a.rcache).1, P access) := by
  have untouched (stopped : ¬a.Transfers) (none : a.mcaProcess.1 = []) :
      (∀ access ∈ a.mcaProcess.1, P access) ↔
        (a.Transfers → ∀ access ∈ (mcaTransfer a.scache a.rcache).1, P access) := by
    rw [none]
    exact iff_of_true (by simp) fun transfers => absurd transfers stopped
  by_cases ready : a.sn.state = .sentReady
  swap
  · exact untouched (fun transfers => ready transfers.ready) (by rw [mcaProcess, if_pos ready])
  by_cases free : a.rn.state = .free
  swap
  · refine untouched (fun transfers => free transfers.free) ?_
    rw [mcaProcess, if_neg (not_not.mpr ready), if_pos free]
  by_cases wrong : a.sn.cnt = 0 ∨ a.rn.cnt ≠ 0
  · refine untouched (fun transfers => wrong.elim transfers.counted fun used =>
      used transfers.unused) ?_
    rw [mcaProcess, if_neg (not_not.mpr ready), if_neg (not_not.mpr free), if_pos wrong]
  have processed : a.mcaProcess = a.transferRound := by
    rw [mcaProcess, if_neg (not_not.mpr ready), if_neg (not_not.mpr free), if_neg wrong]
  obtain ⟨counted, unused⟩ := not_or.mp wrong
  by_cases admitted : a.Admitted
  · have round : a.transferRound.1 = (mcaTransfer a.scache a.rcache).1 := by
      rw [transferRound, (deadlinesMet_eq_true_iff a).mpr ⟨admitted, rfl⟩]
    rw [processed, round]
    exact ⟨fun safe _ => safe, fun safe => safe ⟨ready, free, counted, not_not.mp unused, admitted⟩⟩
  · refine untouched (fun transfers => admitted transfers.admitted) ?_
    rw [processed, transferRound]
    split
    · rfl
    · rfl
    · next table passes => exact absurd ((deadlinesMet_eq_true_iff a).mp passes).1 admitted

end AgentInput

end Composite.Eos
