import Composite.Eos.Agent

/-!
# Nodes with any contents

The rings lie in memory that a network function writes.  The memory-copy agent and the
transmitter copy a node before they handle it, and what they touch then depends on the
count, the lengths and the ports in the copy.
-/

namespace Composite.Eos

open List

def numNicPorts : Nat := 4

def burstSize : Nat := 32

/-- The length of a copy as `memcpy` takes it, which is unsigned. -/
def copySize (len : Int32) : Nat := (len.toInt % 2 ^ 32).toNat

def Access.Safe : Access → Prop
  | .packet index => 0 ≤ index ∧ index < eosPktPerEntry
  | .copy _ _ len => copySize len ≤ eosPktMaxSz
  | .port nic => 0 ≤ nic.toInt ∧ nic.toInt < numNicPorts

instance (access : Access) : Decidable access.Safe := by
  unfold Access.Safe
  cases access <;> infer_instance

theorem copySize_le_iff (len : Int32) :
    copySize len ≤ eosPktMaxSz ↔ 0 ≤ len.toInt ∧ len.toInt ≤ eosPktMaxSz := by
  have low := len.le_toInt
  have high := len.toInt_lt
  unfold copySize eosPktMaxSz
  omega

/-! The memory-copy agent. -/

/-- The transfer is safe at packet `i`: the length is not negative, the next packet that it
looks ahead to is one of the node, and the length of the last packet is in bounds. -/
def TransferSafeAt (sn : Node) (i : Nat) : Prop :=
  0 ≤ (sn.pkts i).pktLen.toInt ∧
    if (i : Int) + 1 < sn.cnt then i + 1 < eosPktPerEntry
    else i < eosPktPerEntry ∧ (sn.pkts i).pktLen.toInt ≤ eosPktMaxSz

/-- The node has a packet, and the transfer is safe at every packet that it comes to before a
length that fails the assertion. -/
def TransferSafe (sn : Node) : Prop :=
  1 ≤ sn.cnt ∧ ∀ i : Nat, (i : Int) < sn.cnt →
    (∀ k < i, (sn.pkts k).pktLen.toInt ≤ eosPktMaxSz) → TransferSafeAt sn i

/-- The same from packet `i` on. -/
def TransferSafeFrom (sn : Node) (i : Nat) : Prop :=
  ∀ j : Nat, i ≤ j → (j : Int) < sn.cnt →
    (∀ k, i ≤ k → k < j → (sn.pkts k).pktLen.toInt ≤ eosPktMaxSz) → TransferSafeAt sn j

theorem transferSafeFrom_succ {sn : Node} {i : Nat} (inside : (i : Int) < sn.cnt) :
    TransferSafeFrom sn i ↔ TransferSafeAt sn i ∧
      ((sn.pkts i).pktLen.toInt ≤ eosPktMaxSz → TransferSafeFrom sn (i + 1)) := by
  constructor
  · intro safe
    refine ⟨safe i (Nat.le_refl i) inside fun k from_i below => by omega,
      fun short j later below passed => ?_⟩
    refine safe j (by omega) below fun k from_i before => ?_
    rcases Nat.eq_or_lt_of_le from_i with rfl | after
    · exact short
    · exact passed k after before
  · rintro ⟨here, rest⟩ j from_i below passed
    rcases Nat.eq_or_lt_of_le from_i with rfl | after
    · exact here
    · exact rest (passed i (Nat.le_refl i) after) j after below fun k later before =>
        passed k (by omega) before

theorem transfer_accesses_safe (sn : Node) (left i : Nat) (rn : Node)
    (count : sn.cnt = i + left + 1) :
    (∀ a ∈ (mcaTransferLoop sn left i rn).1, a.Safe) ∧
      (∀ after, (mcaTransferLoop sn left i rn).2 = some after →
        (Access.packet (sn.cnt - 1)).Safe ∧ (mcaCopy sn after (sn.cnt - 1).toNat).Safe) ↔
      TransferSafeFrom sn i := by
  induction left generalizing i rn with
  | zero =>
    have last : (sn.cnt - 1).toNat = i := by omega
    rw [transferSafeFrom_succ (by omega), last]
    have beyond : TransferSafeFrom sn (i + 1) := fun j later below => by omega
    simp only [mcaTransferLoop, not_mem_nil, false_implies, implies_true, true_and,
      Option.some.injEq, forall_eq', mcaCopy, Access.Safe, copySize_le_iff, beyond, and_true]
    unfold TransferSafeAt
    rw [if_neg (by omega)]
    constructor
    · rintro ⟨index, length⟩
      exact ⟨length.1, by omega, length.2⟩
    · rintro ⟨low, index, high⟩
      exact ⟨by omega, low, high⟩
  | succ left ih =>
    have rest := ih (i + 1) (transferMeta sn rn i) (by omega)
    rw [transferSafeFrom_succ (by omega)]
    have ahead : TransferSafeAt sn i ↔
        0 ≤ (sn.pkts i).pktLen.toInt ∧ i + 1 < eosPktPerEntry := by
      unfold TransferSafeAt
      rw [if_pos (by omega)]
    unfold mcaTransferLoop
    by_cases long : (sn.pkts i).pktLen.toInt > eosPktMaxSz
    · rw [if_pos long, ahead]
      have positive : 0 ≤ (sn.pkts i).pktLen.toInt := by
        simp only [eosPktMaxSz] at long
        omega
      simp only [forall_mem_cons, not_mem_nil, false_implies, implies_true, and_true,
        Access.Safe, Int.not_le.mpr long, positive, true_and, reduceCtorEq]
      omega
    · rw [if_neg long, ahead]
      have short : (sn.pkts i).pktLen.toInt ≤ eosPktMaxSz := by omega
      simp only [forall_mem_cons, short, true_implies, ← rest, mcaCopy, Access.Safe,
        copySize_le_iff, and_true]
      constructor
      · rintro ⟨⟨next, here, low, accesses⟩, last⟩
        exact ⟨⟨low, by omega⟩, accesses, last⟩
      · rintro ⟨⟨low, next⟩, accesses, last⟩
        exact ⟨⟨by omega, by omega, low, accesses⟩, last⟩

theorem mcaTransfer_safe_iff (sn rn : Node) :
    (∀ a ∈ (mcaTransfer sn rn).1, a.Safe) ↔ TransferSafe sn := by
  by_cases some_packet : 1 ≤ sn.cnt
  · have loop := transfer_accesses_safe sn (sn.cnt - 1).toNat 0
      { rn with deadline := sn.deadline, arrive := sn.arrive } (by omega)
    have whole : TransferSafe sn ↔ TransferSafeFrom sn 0 := by
      unfold TransferSafe TransferSafeFrom
      simp only [some_packet, true_and, Nat.zero_le, true_implies]
    rw [whole, ← loop]
    unfold mcaTransfer
    simp only
    split
    · next accesses failed =>
      simp only [failed, reduceCtorEq, false_implies, implies_true, and_true]
    · next accesses after done =>
      simp only [done, forall_mem_append, forall_mem_cons, not_mem_nil,
        false_implies, implies_true, and_true, Option.some.injEq, forall_eq']
  · -- without a packet the last one is sought before the first
    have noLoop : (sn.cnt - 1).toNat = 0 := by omega
    have outside : ¬(Access.packet (sn.cnt - 1)).Safe := by
      simp only [Access.Safe]
      omega
    refine iff_of_false (fun safe => outside (safe _ ?_)) fun safe => some_packet safe.1
    simp [mcaTransfer, noLoop, mcaTransferLoop]

/-! The transmitter. -/

/-- `send_batch` and `burst_cnt`: for each port the packets that wait for the card.  They all
point into the one copy that the transmitter has of a node. -/
abbrev Batches := Int32 → List Nat

/-- `ninf_tx_add_pkt`, with `ninf_tx_nf_send_burst` when the batch of the port is full. -/
def ninfTxAddPkt (scache : Node) (batches : Batches) (i : Nat) : List Access × Option Batches :=
  let port := (scache.pkts i).port
  let accesses := [.packet i, .port port]
  if (batches port).length = burstSize then
    if ∀ j ∈ batches port, (scache.pkts j).pktLen.toInt ≤ eosPktMaxSz then
      (accesses, some (Function.update batches port [i]))
    else (accesses, none)
  else (accesses, some (Function.update batches port (batches port ++ [i])))

/-- One packet of the loop of `ninf_tx_process`.  `ninf_tx_deadline_check` asserts, after each
packet, that the node has a deadline. -/
def ninfTxPkt (scache : Node) (batches : Batches) (i : Nat) : List Access × Option Batches :=
  let (accesses, added) := ninfTxAddPkt scache batches i
  (accesses, if scache.deadline = 0 then none else added)

/-- The loop of `ninf_tx_process` over the packets of a node, from packet `i` on. -/
def ninfTxLoop (scache : Node) : Nat → Nat → Batches → List Access × Option Batches
  | 0, _, batches => ([], some batches)
  | left + 1, i, batches =>
    match ninfTxPkt scache batches i with
    | (accesses, none) => (accesses, none)
    | (accesses, some batches) =>
      let (more, result) := ninfTxLoop scache left (i + 1) batches
      (accesses ++ more, result)

/-- What `ninf_tx_process` touches when it handles a node. -/
def ninfTxAccesses (scache : Node) (batches : Batches) : List Access :=
  (ninfTxLoop scache scache.cnt.toNat 0 batches).1

/-- The packets for a port that the batch has held until the transmitter comes to packet `i`. -/
def gathered (scache : Node) (batches : Batches) (port : Int32) (i : Nat) : List Nat :=
  batches port ++ (range i).filter fun j => (scache.pkts j).port = port

/-- An assertion fails at packet `i`: the node has no deadline, or the packet finds a full batch
with a length that is too large. -/
def StopsAt (scache : Node) (batches : Batches) (i : Nat) : Prop :=
  scache.deadline = 0 ∨
    (gathered scache batches (scache.pkts i).port i).length = burstSize ∧
      ∃ j ∈ gathered scache batches (scache.pkts i).port i,
        eosPktMaxSz < (scache.pkts j).pktLen.toInt

/-- Every packet that the transmitter comes to is one of the node and has a port that exists. -/
def TransmitSafe (scache : Node) (batches : Batches) : Prop :=
  ∀ i : Nat, (i : Int) < scache.cnt → (∀ k < i, ¬StopsAt scache batches k) →
    i < eosPktPerEntry ∧ (Access.port (scache.pkts i).port).Safe

section Transmitter

variable {scache : Node} {batches after : Batches} {i : Nat}

theorem ninfTxPkt_accesses (scache : Node) (batches : Batches) (i : Nat) :
    (ninfTxPkt scache batches i).1 = [.packet i, .port (scache.pkts i).port] := by
  unfold ninfTxPkt ninfTxAddPkt
  simp only
  split_ifs <;> rfl

theorem ninfTxLoop_succ (scache : Node) (left i : Nat) (batches : Batches) :
    (ninfTxLoop scache (left + 1) i batches).2 =
      (ninfTxPkt scache batches i).2.bind fun after =>
        (ninfTxLoop scache left (i + 1) after).2 := by
  rw [ninfTxLoop]
  rcases ninfTxPkt scache batches i with ⟨accesses, _ | after⟩ <;> rfl

theorem ninfTxLoop_last (scache : Node) (left i : Nat) (batches : Batches) :
    (ninfTxLoop scache (left + 1) i batches).2 =
      (ninfTxLoop scache left i batches).2.bind fun after =>
        (ninfTxPkt scache after (i + left)).2 := by
  induction left generalizing i batches with
  | zero =>
    rw [ninfTxLoop_succ]
    simp [ninfTxLoop]
  | succ left ih =>
    rw [ninfTxLoop_succ, ninfTxLoop_succ]
    simp only [ih, Option.bind_assoc, Nat.add_right_comm, Nat.add_assoc]

theorem ninfTxLoop_stays {first last : Nat} (before : first ≤ last)
    (stopped : (ninfTxLoop scache first i batches).2 = none) :
    (ninfTxLoop scache last i batches).2 = none := by
  induction before with
  | refl => exact stopped
  | step _ ih => rw [ninfTxLoop_last, ih, Option.bind_none]

theorem ninfTxLoop_safe_iff (scache : Node) (left i : Nat) (batches : Batches) :
    (∀ a ∈ (ninfTxLoop scache left i batches).1, a.Safe) ↔
      ∀ j < left, (ninfTxLoop scache j i batches).2 ≠ none →
        i + j < eosPktPerEntry ∧ (Access.port (scache.pkts (i + j)).port).Safe := by
  induction left generalizing i batches with
  | zero => simp [ninfTxLoop]
  | succ left ih =>
    have added := ninfTxPkt_accesses scache batches i
    have first : (∀ a ∈ [Access.packet i, .port (scache.pkts i).port], a.Safe) ↔
        i < eosPktPerEntry ∧ (Access.port (scache.pkts i).port).Safe := by
      simp only [forall_mem_cons, not_mem_nil, false_implies, implies_true, and_true]
      simp only [Access.Safe]
      omega
    have split : (∀ j < left + 1, (ninfTxLoop scache j i batches).2 ≠ none →
        i + j < eosPktPerEntry ∧ (Access.port (scache.pkts (i + j)).port).Safe) ↔
        (i < eosPktPerEntry ∧ (Access.port (scache.pkts i).port).Safe) ∧
        ∀ j < left, (ninfTxLoop scache (j + 1) i batches).2 ≠ none →
          i + 1 + j < eosPktPerEntry ∧ (Access.port (scache.pkts (i + 1 + j)).port).Safe := by
      constructor
      · intro every
        refine ⟨every 0 (by omega) (by simp [ninfTxLoop]), fun j below reached => ?_⟩
        have next := every (j + 1) (by omega) reached
        rwa [show i + (j + 1) = i + 1 + j by omega] at next
      · rintro ⟨here, rest⟩ j below reached
        cases j with
        | zero => exact here
        | succ j =>
          have next := rest j (by omega) reached
          rwa [show i + 1 + j = i + (j + 1) by omega] at next
    rw [split]
    cases outcome : ninfTxPkt scache batches i with
    | mk accesses result =>
      rw [outcome] at added
      obtain rfl : accesses = _ := added
      cases result with
      | none => simp only [ninfTxLoop, outcome, first, ne_eq, not_true_eq_false, false_implies,
          implies_true, and_true]
      | some batches' =>
        simp only [ninfTxLoop, outcome, forall_mem_append, first, ih]

/-- The batch of a port holds what was gathered for it, or it was sent since and is short. -/
def Batched (scache : Node) (batches : Batches) (i : Nat) (after : Batches) : Prop :=
  ∀ port, after port <:+ gathered scache batches port i ∧
    (after port = gathered scache batches port i ∨
      burstSize < (gathered scache batches port i).length ∧ (after port).length ≤ i)

theorem gathered_succ (scache : Node) (batches : Batches) (port : Int32) (i : Nat) :
    gathered scache batches port (i + 1) =
      gathered scache batches port i ++ if (scache.pkts i).port = port then [i] else [] := by
  unfold gathered
  rw [range_succ, filter_append, append_assoc]
  by_cases here : (scache.pkts i).port = port <;> simp [here]

theorem Batched.add (batched : Batched scache batches i after) {batch : List Nat}
    (suffix : batch <:+ gathered scache batches (scache.pkts i).port i)
    (here : batch = gathered scache batches (scache.pkts i).port i ∨
      burstSize ≤ (gathered scache batches (scache.pkts i).port i).length ∧ batch.length ≤ i) :
    Batched scache batches (i + 1)
      (Function.update after (scache.pkts i).port (batch ++ [i])) := by
  intro port
  rw [gathered_succ]
  by_cases same : port = (scache.pkts i).port
  · subst same
    rw [Function.update_self, if_pos rfl, length_append, length_append, length_singleton]
    refine ⟨?_, here.imp (congrArg (· ++ [i])) fun short => by omega⟩
    obtain ⟨front, whole⟩ := suffix
    exact ⟨front, by rw [← whole, append_assoc]⟩
  · rw [Function.update_of_ne same, if_neg (Ne.symm same), append_nil]
    exact ⟨(batched port).1, (batched port).2.imp id fun short => ⟨short.1, by omega⟩⟩

theorem ninfTxPkt_stops (batched : Batched scache batches i after)
    (stops : StopsAt scache batches i) : (ninfTxPkt scache after i).2 = none := by
  unfold ninfTxPkt
  simp only
  split_ifs with unset
  · rfl
  obtain ⟨full, j, waits, long⟩ := stops.resolve_left unset
  have held := (batched (scache.pkts i).port).2.resolve_right fun short => by omega
  unfold ninfTxAddPkt
  simp only [held]
  rw [if_pos full, if_neg fun short => by have := short j waits; omega]

theorem ninfTxPkt_goes (batched : Batched scache batches i after) (few : i < burstSize)
    (goes : ¬StopsAt scache batches i) :
    ∃ next, (ninfTxPkt scache after i).2 = some next ∧ Batched scache batches (i + 1) next := by
  obtain ⟨timed, short⟩ := not_or.mp goes
  unfold ninfTxPkt ninfTxAddPkt
  simp only [if_neg timed]
  obtain ⟨suffix, held | ⟨sent, length⟩⟩ := batched (scache.pkts i).port
  · rw [held]
    by_cases full : (gathered scache batches (scache.pkts i).port i).length = burstSize
    · have lengths : ∀ j ∈ gathered scache batches (scache.pkts i).port i,
          (scache.pkts j).pktLen.toInt ≤ eosPktMaxSz :=
        fun j waits => not_lt.mp fun long => short ⟨full, j, waits, long⟩
      rw [if_pos full, if_pos lengths]
      exact ⟨_, rfl, batched.add (nil_suffix ..) (.inr ⟨full.ge, Nat.zero_le i⟩)⟩
    · rw [if_neg full]
      exact ⟨_, rfl, batched.add (suffix_refl _) (.inl rfl)⟩
  · rw [if_neg (by omega)]
    exact ⟨_, rfl, batched.add suffix (.inr ⟨sent.le, length⟩)⟩

/-- The transmitter comes to a packet that is not past a whole batch exactly if no assertion
fails at one before. -/
theorem ninfTxLoop_reaches (scache : Node) (batches : Batches) (few : i ≤ burstSize) :
    (∃ after, (ninfTxLoop scache i 0 batches).2 = some after ∧ Batched scache batches i after) ∧
        (∀ k < i, ¬StopsAt scache batches k) ∨
      (ninfTxLoop scache i 0 batches).2 = none ∧ ∃ k < i, StopsAt scache batches k := by
  induction i with
  | zero => exact .inl ⟨⟨batches, rfl, fun port => by simp [gathered]⟩, by simp⟩
  | succ i ih =>
    rw [ninfTxLoop_last, Nat.zero_add]
    rcases ih (by omega) with
      ⟨⟨after, reached, batched⟩, goes⟩ | ⟨stopped, k, before, stops⟩
    · rw [reached, Option.bind_some]
      by_cases stops : StopsAt scache batches i
      · exact .inr ⟨ninfTxPkt_stops batched stops, i, Nat.lt_succ_self i, stops⟩
      · refine .inl ⟨ninfTxPkt_goes batched few stops, fun k below => ?_⟩
        rcases Nat.lt_succ_iff_lt_or_eq.mp below with before | rfl
        · exact goes k before
        · exact stops
    · rw [stopped]
      exact .inr ⟨rfl, k, Nat.lt_succ_of_lt before, stops⟩

theorem ninfTxLoop_ne_none_iff (few : i ≤ burstSize) :
    (ninfTxLoop scache i 0 batches).2 ≠ none ↔ ∀ k < i, ¬StopsAt scache batches k := by
  rcases ninfTxLoop_reaches scache batches few with
    ⟨⟨after, reached, -⟩, goes⟩ | ⟨stopped, k, before, stops⟩
  · exact iff_of_true (by rw [reached]; exact Option.some_ne_none _) goes
  · exact iff_of_false (fun some => some stopped) fun goes => goes k before stops

theorem ninfTxAccesses_safe_iff (scache : Node) (batches : Batches) :
    (∀ a ∈ ninfTxAccesses scache batches, a.Safe) ↔ TransmitSafe scache batches := by
  unfold ninfTxAccesses TransmitSafe
  rw [ninfTxLoop_safe_iff]
  simp only [Nat.zero_add, Int.lt_toNat]
  -- a packet past the node is in question only if the one at its end is
  constructor
  · intro safe i inside goes
    by_cases past : eosPktPerEntry ≤ i
    · have few : eosPktPerEntry ≤ burstSize := by decide
      exact absurd (safe eosPktPerEntry (by omega) ((ninfTxLoop_ne_none_iff few).mpr
        fun k below => goes k (by omega))).1 (Nat.lt_irrefl _)
    · have few : i ≤ burstSize := by simp only [eosPktPerEntry, burstSize] at *; omega
      exact safe i inside ((ninfTxLoop_ne_none_iff few).mpr goes)
  · intro safe i inside reached
    by_cases past : eosPktPerEntry ≤ i
    · have few : eosPktPerEntry ≤ burstSize := by decide
      rcases ninfTxLoop_reaches scache batches few with ⟨-, goes⟩ | ⟨stopped, -⟩
      · exact absurd (safe eosPktPerEntry (by omega) goes).1 (Nat.lt_irrefl _)
      · exact absurd (ninfTxLoop_stays past stopped) reached
    · have few : i ≤ burstSize := by simp only [eosPktPerEntry, burstSize] at *; omega
      exact safe i inside ((ninfTxLoop_ne_none_iff few).mp reached)

end Transmitter

/-- What the agent and the transmitter touch is in bounds for exactly these contents of the
nodes. -/
theorem untrusted_nodes (a : AgentInput) (tcache : Node) (batches : Batches) :
    ((∀ access ∈ a.mcaProcess.1, access.Safe) ↔ (a.Transfers → TransferSafe a.scache)) ∧
    ((∀ access ∈ ninfTxAccesses tcache batches, access.Safe) ↔ TransmitSafe tcache batches) := by
  refine ⟨?_, ninfTxAccesses_safe_iff tcache batches⟩
  rw [a.mcaProcess_accesses, mcaTransfer_safe_iff]

def longLast : Node :=
  { Node.zero with
    cnt := 1, deadline := 1, pkts := fun _ => ⟨.pkt 0 0, 257, 0⟩, state := .sentReady }

theorem untrusted_nodes_long :
    ∃ access ∈ (AgentInput.first (Ring.outputInit.setNode 0 longLast)).mcaProcess.1,
      access = .copy (.pkt 0 0) (.pkt 0 0) 257 ∧ ¬access.Safe := by
  decide +kernel

end Composite.Eos
