import Composite.Eos.Untrusted

/-!
# Which nodes the consumers accept

A network function publishes a node with one of four calls.  The node is then met by the
memory-copy agent, if another function follows, or by the transmitter.  This module says for
which nodes the step of the consumer fails no assertion, stays in bounds and passes the node.
-/

namespace Composite.Eos

open Function Option List

/-! Publishing. -/

inductive SendCall where
  | send (m : PktMeta)
  | sendTest (m : PktMeta) (deadline arrive : Nat)
  | flush
  | flushForce

def SendCall.run (r : Ring) : SendCall → Option (Int × Ring)
  | .send m => eosPktSend r m
  | .sendTest m deadline arrive => eosPktSendTest r m deadline arrive
  | .flush => eosPktSendFlush r
  | .flushForce => eosPktSendFlushForce r

def Published (r : Ring) (call : SendCall) (n : Node) : Prop :=
  ∃ ret r', call.run r = some (ret, r') ∧ r'.tail ≠ r.tail ∧ n = r'.node r.tail

def PublishedShape (r : Ring) (n : Node) : Prop :=
  n.cnt ≤ eosPktPerEntry ∧ n.state = r.cached.state

variable {r r' : Ring} {ret : Int} {m : PktMeta} {n : Node}

theorem flushTail_published (flushed : flushTail r = (ret, r')) (moved : r'.tail ≠ r.tail) :
    r'.node r.tail = { r.cached with idx := 0 } := by
  unfold flushTail at flushed
  split at flushed
  · cases flushed
    simp [Ring.node, Ring.setNode]
  · cases flushed
    exact absurd rfl moved
  · cases flushed
    exact absurd rfl moved

theorem flushForce_shape (flushed : eosPktSendFlushForce r = some (ret, r'))
    (moved : r'.tail ≠ r.tail) : PublishedShape r (r'.node r.tail) := by
  unfold eosPktSendFlushForce at flushed
  split at flushed
  · cases flushed
  · next bounded =>
    split at flushed
    · cases flushed
      exact absurd rfl moved
    · rw [flushTail_published (some.inj flushed) moved]
      exact ⟨Int.not_lt.mp bounded, rfl⟩

theorem flush_shape (flushed : eosPktSendFlush r = some (ret, r')) (moved : r'.tail ≠ r.tail) :
    PublishedShape r (r'.node r.tail) := by
  unfold eosPktSendFlush at flushed
  split at flushed
  · cases flushed
  · next bounded =>
    split at flushed
    · cases flushed
      exact absurd rfl moved
    · split at flushed
      · cases flushed
        exact absurd rfl moved
      · rw [flushTail_published (some.inj flushed) moved]
        exact ⟨Int.not_lt.mp bounded, rfl⟩

theorem flush_cached (flushed : eosPktSendFlush r = some (ret, r')) :
    r'.cached.state = r.cached.state ∧
      (r'.tail = r.tail ∧ r'.nodes = r.nodes ∧ (ret = 0 → r.cached.cnt = 0 ∧ r'.cached = r.cached) ∨
        r'.cached.cnt = 0 ∧ r'.cached.idx = 0) := by
  unfold eosPktSendFlush at flushed
  split at flushed
  · cases flushed
  · split at flushed
    · next zero =>
      cases flushed
      exact ⟨rfl, .inl ⟨rfl, rfl, fun _ => ⟨zero, rfl⟩⟩⟩
    · split at flushed
      · cases flushed
        exact ⟨rfl, .inl ⟨rfl, rfl, fun zero => absurd zero (by decide)⟩⟩
      · unfold flushTail at flushed
        split at flushed
        · cases flushed
          exact ⟨rfl, .inr ⟨rfl, rfl⟩⟩
        · cases flushed
          exact ⟨rfl, .inl ⟨rfl, rfl, fun zero => absurd zero (by decide)⟩⟩
        · cases flushed
          exact ⟨rfl, .inl ⟨rfl, rfl, fun zero => absurd zero (by decide)⟩⟩

theorem flush_room (full : r.cached.cnt = r.cached.idx)
    (flushed : eosPktSendFlush r = some (0, r')) :
    (cachePkt r' m).cached.cnt ≠ (cachePkt r' m).cached.idx := by
  have empty : r'.cached.cnt = 0 ∧ r'.cached.idx = 0 := by
    rcases (flush_cached flushed).2 with ⟨_, _, kept⟩ | emptied
    · obtain ⟨zero, same⟩ := kept rfl
      rw [same]
      exact ⟨zero, full ▸ zero⟩
    · exact emptied
  simp only [cachePkt, Node.push, empty.1, empty.2]
  decide

theorem cachePkt_shape (flushed : eosPktSendFlush (cachePkt r m) = some (ret, r'))
    (moved : r'.tail ≠ r.tail) : PublishedShape r (r'.node r.tail) :=
  flush_shape (r := cachePkt r m) flushed moved

theorem send_shape (sent : eosPktSend r m = some (ret, r')) (moved : r'.tail ≠ r.tail) :
    PublishedShape r (r'.node r.tail) := by
  unfold eosPktSend at sent
  by_cases full : r.cached.cnt = r.cached.idx
  · rw [if_pos full] at sent
    obtain ⟨⟨first, r1⟩, flushed, rest⟩ := bind_eq_some_iff.mp sent
    simp only at rest
    split at rest
    · cases rest
      exact flush_shape flushed moved
    · next succeeded =>
      have zero : first = 0 := not_not.mp succeeded
      subst zero
      have shape : r1.tail ≠ r.tail → PublishedShape r (r1.node r.tail) := flush_shape flushed
      rw [if_neg (flush_room full flushed)] at rest
      cases rest
      exact shape moved
  · rw [if_neg full] at sent
    simp only [bind_eq_bind, bind_some, ne_eq, not_true_eq_false, if_false] at sent
    split at sent
    · exact cachePkt_shape sent moved
    · cases sent
      exact absurd rfl moved

theorem sendTest_shape {deadline arrive : Nat}
    (sent : eosPktSendTest r m deadline arrive = some (ret, r')) (moved : r'.tail ≠ r.tail) :
    PublishedShape r (r'.node r.tail) := by
  unfold eosPktSendTest at sent
  simp only at sent
  -- the times of the cached node play no part in its shape
  generalize timed : ({ r with cached := { r.cached with
    deadline := deadline, arrive := arrive } } : Ring) = r0 at sent
  obtain ⟨tail, state, cnt, idx⟩ : r.tail = r0.tail ∧ r.cached.state = r0.cached.state ∧
      r.cached.cnt = r0.cached.cnt ∧ r.cached.idx = r0.cached.idx := by
    subst timed
    exact ⟨rfl, rfl, rfl, rfl⟩
  unfold PublishedShape
  rw [tail, state]
  rw [cnt, idx] at sent
  rw [tail] at moved
  by_cases full : r0.cached.cnt = r0.cached.idx
  · rw [if_pos full] at sent
    obtain ⟨⟨first, r1⟩, flushed, rest⟩ := bind_eq_some_iff.mp sent
    have shape : r1.tail ≠ r0.tail → PublishedShape r0 (r1.node r0.tail) := flush_shape flushed
    simp only at rest
    split at rest
    · cases rest
      exact shape moved
    · next succeeded =>
      have zero : first = 0 := not_not.mp succeeded
      subst zero
      rw [if_neg (flush_room full flushed)] at rest
      cases rest
      exact shape moved
  · rw [if_neg full] at sent
    split at sent
    · obtain ⟨⟨first, r1⟩, flushed, rest⟩ := bind_eq_some_iff.mp sent
      cases rest
      exact cachePkt_shape flushed moved
    · cases sent
      exact absurd rfl moved

theorem Published.shape {call : SendCall} (published : Published r call n) :
    PublishedShape r n := by
  obtain ⟨ret, r', ran, moved, rfl⟩ := published
  cases call with
  | send m => exact send_shape ran moved
  | sendTest m deadline arrive => exact sendTest_shape ran moved
  | flush => exact flush_shape ran moved
  | flushForce => exact flushForce_shape ran moved

/-! The memory-copy agent. -/

namespace AgentInput

/-- The round leaves the rings because the destination has no free node, or it passes the node
without leaving the bounds of it, and marks it `SENT_DONE`. -/
def Accepts (a : AgentInput) : Prop :=
  (∃ table, a.mcaProcess.2 = some (.full, a.src, a.dst, table)) ∨
    ∃ src dst table, a.mcaProcess.2 = some (.passed, src, dst, table) ∧
      (src.node a.src.mcaHead).state = .sentDone ∧ src.mcaHead = a.src.mcaHead + 1 ∧
      ∀ access ∈ a.mcaProcess.1, access.Safe

end AgentInput

def CopyableNode (n : Node) : Prop :=
  1 ≤ n.cnt ∧ ∀ i : Nat, (i : Int) < n.cnt →
    0 ≤ (n.pkts i).pktLen.toInt ∧ (n.pkts i).pktLen.toInt ≤ eosPktMaxSz

theorem mcaTransferLoop_ne_none (sn : Node) (left i : Nat) (rn : Node) :
    (mcaTransferLoop sn left i rn).2 ≠ none ↔
      ∀ j, i ≤ j → j < i + left → (sn.pkts j).pktLen.toInt ≤ eosPktMaxSz := by
  induction left generalizing i rn with
  | zero =>
    refine iff_of_true (some_ne_none _) fun j from_i below => ?_
    omega
  | succ left ih =>
    unfold mcaTransferLoop
    split
    · next long =>
      refine iff_of_false (fun some => some rfl) fun short => ?_
      have here := short i (Nat.le_refl _) (by omega)
      omega
    · next short =>
      rw [ih]
      constructor
      · intro rest j from_i below
        rcases Nat.eq_or_lt_of_le from_i with rfl | later
        · omega
        · exact rest j later (by omega)
      · intro every j later below
        exact every j (by omega) (by omega)

theorem mcaTransfer_ne_none (sn rn : Node) :
    (mcaTransfer sn rn).2 ≠ none ↔
      ∀ j : Nat, (j : Int) + 1 < sn.cnt → (sn.pkts j).pktLen.toInt ≤ eosPktMaxSz := by
  have loop := mcaTransferLoop_ne_none sn (sn.cnt - 1).toNat 0
    { rn with deadline := sn.deadline, arrive := sn.arrive }
  have range : (∀ j, 0 ≤ j → j < 0 + (sn.cnt - 1).toNat →
      (sn.pkts j).pktLen.toInt ≤ eosPktMaxSz) ↔
      ∀ j : Nat, (j : Int) + 1 < sn.cnt → (sn.pkts j).pktLen.toInt ≤ eosPktMaxSz := by
    constructor
    · intro every j below
      exact every j (Nat.zero_le _) (by omega)
    · intro every j _ below
      exact every j (by omega)
  rw [← range, ← loop]
  unfold mcaTransfer
  simp only
  split
  · next accesses failed => simp only [failed]
  · next accesses after done => simp only [done, ne_eq, reduceCtorEq, not_false_eq_true]

theorem copyable_iff {sn : Node} (rn : Node) (bounded : sn.cnt ≤ eosPktPerEntry) :
    ((∀ access ∈ (mcaTransfer sn rn).1, access.Safe) ∧ (mcaTransfer sn rn).2 ≠ none) ↔
      CopyableNode sn := by
  rw [mcaTransfer_safe_iff, mcaTransfer_ne_none]
  constructor
  · rintro ⟨⟨some_packet, safe⟩, short⟩
    refine ⟨some_packet, fun i inside => ?_⟩
    have here := safe i inside fun k before => short k (by omega)
    refine ⟨here.1, ?_⟩
    by_cases last : (i : Int) + 1 < sn.cnt
    · exact short i last
    · have bound := here.2
      rw [if_neg last] at bound
      exact bound.2
  · rintro ⟨some_packet, lengths⟩
    refine ⟨⟨some_packet, fun i inside _ => ⟨(lengths i inside).1, ?_⟩⟩, fun j inside => ?_⟩
    · split
      · omega
      · exact ⟨by omega, (lengths i inside).2⟩
    · exact (lengths j (by omega)).2

namespace AgentInput

variable {a : AgentInput}

theorem transferRound_cases {outcome : AgentOutcome} {src dst : Ring} {table : InfoTable}
    (ended : a.transferRound.2 = some (outcome, src, dst, table)) :
    outcome = .deferred ∨ outcome = .passed ∧ (mcaTransfer a.scache a.rcache).2 ≠ none ∧
      a.Admitted ∧ a.Wakes := by
  unfold transferRound at ended
  split at ended
  · cases ended
  · cases ended
    exact .inl rfl
  · next first passes =>
    obtain ⟨admitted, rfl⟩ := a.deadlinesMet_eq_true_iff.mp passes
    obtain ⟨rcache, copied, ended⟩ := bind_eq_some_iff.mp ended
    obtain ⟨⟨third, wake⟩, woken, ended⟩ := bind_eq_some_iff.mp ended
    cases ended
    exact .inr ⟨rfl, ne_none_iff_exists'.mpr ⟨_, copied⟩, admitted,
      (mcaWake_updated admitted.finite).mp (ne_none_iff_exists'.mpr ⟨_, woken⟩)⟩

theorem transferRound_passed (copied : (mcaTransfer a.scache a.rcache).2 ≠ none)
    (admitted : a.Admitted) (wakes : a.Wakes) :
    ∃ dst table, a.transferRound =
      ((mcaTransfer a.scache a.rcache).1, some (.passed, a.sentSrc, dst, table)) := by
  obtain ⟨rcache, copy⟩ := ne_none_iff_exists'.mp copied
  obtain ⟨⟨table, deadline⟩, woken⟩ :=
    ne_none_iff_exists'.mp ((mcaWake_updated admitted.finite).mpr wakes)
  refine ⟨a.filledDst rcache, table, ?_⟩
  rw [transferRound, a.deadlinesMet_eq_true_iff.mpr ⟨admitted, rfl⟩]
  simp only [copy, woken, bind_eq_bind, bind_some]

theorem accepts_iff (a : AgentInput) (ready : a.sn.state = .sentReady)
    (bounded : a.scache.cnt ≤ eosPktPerEntry) (counts : a.scache.cnt = a.sn.cnt) :
    a.Accepts ↔ a.rn.state ≠ .free ∨
      CopyableNode a.scache ∧ a.rn.cnt = 0 ∧ a.Admitted ∧ a.Wakes := by
  have copyable := copyable_iff a.rcache bounded
  by_cases full : a.rn.state ≠ .free
  · refine iff_of_true (.inl ⟨a.table, ?_⟩) (.inl full)
    unfold mcaProcess
    rw [if_neg (not_not.mpr ready), if_pos full]
  · have processed : a.mcaProcess =
        if a.sn.cnt = 0 ∨ a.rn.cnt ≠ 0 then ([], none) else a.transferRound := by
      unfold mcaProcess
      rw [if_neg (not_not.mpr ready), if_neg full]
    constructor
    · rintro (⟨table, ended⟩ | ⟨src, dst, table, ended, _, _, safe⟩)
      · rw [processed] at ended
        split at ended
        · cases ended
        · rcases transferRound_cases ended with wrong | ⟨wrong, _⟩ <;> cases wrong
      · rw [a.mcaProcess_accesses] at safe
        rw [processed] at ended
        split at ended
        · cases ended
        · next clean =>
          rcases transferRound_cases ended with wrong | ⟨_, copied, admitted, wakes⟩
          · cases wrong
          · obtain ⟨counted, unused⟩ := not_or.mp clean
            have accesses := safe ⟨ready, not_not.mp full, counted, not_not.mp unused, admitted⟩
            exact .inr ⟨copyable.mp ⟨accesses, copied⟩, not_not.mp unused, admitted, wakes⟩
    · rintro (wrong | ⟨node, free, admitted, wakes⟩)
      · exact absurd wrong full
      · obtain ⟨safe, copied⟩ := copyable.mpr node
        obtain ⟨dst, table, passed⟩ := transferRound_passed copied admitted wakes
        have round : a.mcaProcess =
            ((mcaTransfer a.scache a.rcache).1, some (.passed, a.sentSrc, dst, table)) := by
          rw [processed, if_neg, passed]
          rintro (empty | taken)
          · have some_packet := node.1
            omega
          · exact taken free
        refine .inr ⟨a.sentSrc, dst, table, by rw [round], ?_, rfl, by rw [round]; exact safe⟩
        simp [sentSrc, Ring.node, Ring.setNode]

end AgentInput

/-! The transmitter. -/

/-- One node of the loop of `ninf_tx_process`: the state that it is marked with, and the batches. -/
def ninfTxRound (scache : Node) (batches : Batches) : Option (PktState × Batches) :=
  (ninfTxLoop scache scache.cnt.toNat 0 batches).2.map fun batches =>
    (if scache.cnt ≠ 0 then .txing else .sentDone, batches)

/-- The assertion of `ninf_tx_flush` on the lengths holds; they are those of the node copied
last. -/
def FlushPasses (scache : Node) (batches : Batches) : Prop :=
  ∀ port : Int32, 0 ≤ port.toInt → port.toInt < numNicPorts →
    ∀ i ∈ batches port, (scache.pkts i).pktLen.toInt ≤ eosPktMaxSz

def BatchesOk (batches : Batches) : Prop :=
  ∀ port, (batches port).length ≤ burstSize ∧ ∀ i ∈ batches port, i < eosPktPerEntry

/-- With any batches, the transmitter passes the node and marks it `TXING` if it has packets and
`SENT_DONE` if not; it stays in bounds, and the flush that may follow passes too. -/
def TransmitterAccepts (n : Node) : Prop :=
  ∀ batches, BatchesOk batches →
    (∀ access ∈ ninfTxAccesses n batches, access.Safe) ∧
    ∃ after, ninfTxRound n batches = some (if 1 ≤ n.cnt then .txing else .sentDone, after) ∧
      FlushPasses n after

/-- A node that can be transmitted.  The lengths behind its last packet count as well, since packets
of earlier nodes may still wait in the batches and are checked against this one. -/
structure SendableNode (n : Node) : Prop where
  counted : 0 ≤ n.cnt
  lengths : ∀ i < eosPktPerEntry, (n.pkts i).pktLen.toInt ≤ eosPktMaxSz
  timed : 1 ≤ n.cnt → n.deadline ≠ 0
  ports : ∀ i : Nat, (i : Int) < n.cnt →
    0 ≤ (n.pkts i).port.toInt ∧ (n.pkts i).port.toInt < numNicPorts

theorem BatchesOk.gathered {batches : Batches} (ok : BatchesOk batches) {i j : Nat} {port : Int32}
    (inside : i ≤ eosPktPerEntry) (waits : j ∈ gathered n batches port i) : j < eosPktPerEntry := by
  rcases mem_append.mp waits with before | added
  · exact (ok port).2 j before
  · exact (mem_range.mp (mem_filter.mp added).1).trans_le inside

theorem size_le_burstSize (bounded : n.cnt ≤ eosPktPerEntry) : n.cnt.toNat ≤ burstSize := by
  simp only [eosPktPerEntry, burstSize] at *
  omega

theorem SendableNode.accepted (bounded : n.cnt ≤ eosPktPerEntry) (sendable : SendableNode n) :
    TransmitterAccepts n := by
  intro batches ok
  have counted := sendable.counted
  have goes : ∀ k : Nat, (k : Int) < n.cnt → ¬StopsAt n batches k := by
    rintro k inside (late | ⟨-, j, waits, long⟩)
    · exact sendable.timed (by omega) late
    · exact absurd (sendable.lengths j (ok.gathered (by omega) waits)) (by omega)
  refine ⟨(ninfTxAccesses_safe_iff n batches).mpr fun i inside _ =>
    ⟨by omega, sendable.ports i inside⟩, ?_⟩
  rcases ninfTxLoop_reaches n batches (size_le_burstSize bounded) with
    ⟨⟨after, reached, batched⟩, -⟩ | ⟨-, k, before, stops⟩
  · refine ⟨after, ?_, fun port _ _ i member => sendable.lengths i
      (ok.gathered (by omega) ((batched port).1.subset member))⟩
    rw [ninfTxRound, reached, map_some]
    by_cases some_packet : 1 ≤ n.cnt
    · rw [if_pos some_packet, if_pos (by omega)]
    · rw [if_neg some_packet, if_neg (by omega)]
  · exact absurd stops (goes k (by omega))

theorem TransmitterAccepts.sendable (bounded : n.cnt ≤ eosPktPerEntry)
    (accepts : TransmitterAccepts n) : SendableNode n := by
  have few := size_le_burstSize bounded
  -- nothing waits
  obtain ⟨safe, after, round, -⟩ := accepts (fun _ => []) fun _ => ⟨Nat.zero_le _, by simp⟩
  obtain ⟨batches, reached, marked⟩ := map_eq_some_iff.mp round
  have goes := (ninfTxLoop_ne_none_iff few).mp (ne_none_iff_exists'.mpr ⟨_, reached⟩)
  refine ⟨?_, fun k inside => ?_, fun some_packet late => goes 0 (by omega) (.inl late),
    fun i inside => ?_⟩
  · by_contra negative
    have state := congrArg Prod.fst marked
    simp only [if_pos (show n.cnt ≠ 0 by omega), if_neg (show ¬1 ≤ n.cnt by omega)] at state
    cases state
  · -- packet `k` of an earlier node waits for port 0
    have waiting : BatchesOk (update (fun _ => []) 0 [k]) := by
      intro port
      by_cases same : port = 0
      · subst same
        rw [update_self]
        exact ⟨by simp [burstSize], fun j member => mem_singleton.mp member ▸ inside⟩
      · rw [update_of_ne same]
        exact ⟨Nat.zero_le _, by simp⟩
    obtain ⟨-, final, passed, flushed⟩ := accepts _ waiting
    obtain ⟨ended, arrived, same⟩ := map_eq_some_iff.mp passed
    obtain rfl : ended = final := congrArg Prod.snd same
    rcases ninfTxLoop_reaches n _ few with ⟨⟨_, loop, batched⟩, -⟩ | ⟨stopped, -⟩
    · obtain rfl := some_inj.mp (arrived.symm.trans loop)
      have size : (gathered n (update (fun _ => []) 0 [k]) 0 n.cnt.toNat).length ≤ burstSize := by
        have filtered := length_filter_le (fun j => (n.pkts j).port = 0) (range n.cnt.toNat)
        simp only [gathered, update_self, length_append, length_singleton, length_range,
          eosPktPerEntry, burstSize] at *
        omega
      have held := (batched 0).2.resolve_right fun sent => by omega
      refine flushed 0 (by decide) (by decide) k ?_
      rw [held]
      exact mem_append_left _ (by rw [update_self]; exact mem_singleton_self k)
    · cases arrived.symm.trans stopped
  · exact ((ninfTxAccesses_safe_iff n _).mp safe i inside fun k before => goes k (by omega)).2

/-- A published node that nobody writes is accepted by both consumers exactly under these
conditions on the node, and on the destination and the deadlines that the agent finds. -/
theorem published_accepted (r : Ring) (call : SendCall) (n : Node) (a : AgentInput)
    (cached : r.cached.state = .sentReady) (published : Published r call n)
    (met : a.sn = n ∧ a.scache = n) :
    (a.Accepts ∧ TransmitterAccepts n) ↔
      (a.rn.state ≠ .free ∨ CopyableNode n ∧ a.rn.cnt = 0 ∧ a.Admitted ∧ a.Wakes) ∧
        SendableNode n := by
  obtain ⟨bounded, state⟩ := published.shape
  obtain ⟨rfl, copied⟩ := met
  rw [a.accepts_iff (state.trans cached) (by rw [copied]; exact bounded) (by rw [copied]), copied]
  exact and_congr_right'
    ⟨fun accepts => accepts.sendable bounded, fun node => node.accepted bounded⟩

def onePacketRing : Ring :=
  { Ring.outputInit with cached := { Node.zero with cnt := 1, state := .sentReady } }

def onePacketSent : Ring :=
  { onePacketRing.setNode 0 { Node.zero with
      cnt := 1, deadline := 10, arrive := 1, state := .sentReady
      pkts := Function.update Node.zero.pkts 0 ⟨.pkt 0 0, 64, 0⟩ } with
    tail := 1
    pktCnt := 1
    cached := { Node.zero with
      deadline := 10, arrive := 1, state := .sentReady
      pkts := Function.update Node.zero.pkts 0 ⟨.pkt 0 0, 64, 0⟩ } }

theorem published_accepted_one :
    ∃ n, Published onePacketRing (.sendTest ⟨.pkt 0 0, 64, 0⟩ 10 1) n ∧
      (AgentInput.first onePacketSent).Accepts ∧ TransmitterAccepts n := by
  have sent : Published onePacketRing (.sendTest ⟨.pkt 0 0, 64, 0⟩ 10 1)
      (onePacketSent.node 0) := ⟨0, onePacketSent, rfl, by decide, rfl⟩
  have cases_zero : ∀ i : Nat, (i : Int) < 1 → i = 0 := by omega
  have admitted : (AgentInput.first onePacketSent).Admitted :=
    ⟨by simp [AgentInput.first], by decide, by decide, by decide, by decide, by decide, by decide⟩
  have wakes : (AgentInput.first onePacketSent).Wakes := by
    unfold AgentInput.Wakes
    decide
  have accepted := published_accepted onePacketRing (.sendTest ⟨.pkt 0 0, 64, 0⟩ 10 1)
    (onePacketSent.node 0) (AgentInput.first onePacketSent) rfl sent ⟨rfl, rfl⟩
  refine ⟨_, sent, accepted.mpr ⟨.inr ⟨⟨by decide, fun i inside => ?_⟩, rfl, admitted, wakes⟩, ?_⟩⟩
  · rw [cases_zero i inside]
    decide
  · refine ⟨by decide, by decide, fun _ => by decide, fun i inside => ?_⟩
    rw [cases_zero i inside]
    decide

def emptyFlushed : Ring :=
  { Ring.outputInit.setNode 0 { Node.zero with state := .sentReady } with
    tail := 1
    pktCnt := 1
    cached := { Node.zero with state := .sentReady } }

/-- A forced flush publishes an empty node, and the assertion of the agent on it fails. -/
theorem published_accepted_empty :
    Published .outputInit .flushForce (emptyFlushed.node 0) ∧
      (AgentInput.first emptyFlushed).sn = emptyFlushed.node 0 ∧
      (AgentInput.first emptyFlushed).rn.state = .free ∧
      (AgentInput.first emptyFlushed).mcaProcess = ([], none) :=
  ⟨⟨0, emptyFlushed, rfl, by decide, rfl⟩, rfl, rfl, rfl⟩

end Composite.Eos
