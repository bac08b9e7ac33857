import Mathlib.Algebra.Order.Ring.Int

/-!
# Rings of packets

A network function shares two rings with the manager: packets come in through the input
ring and leave through the output ring.  A node of a ring carries up to eight packets, and
its state word says whose turn it is.  Every party has positions of its own, which only
grow, on a 32-bit integer; the node of a position is found by its low bits.  A failed
assertion is `none`.
-/

namespace Composite.Eos

def eosPktMaxSz : Int := 256

def eosRingSize : Nat := 128

def eosPktPerEntry : Nat := 8

/-! The errors of the packet calls. -/

def eblock : Int := 1

def ecollet : Int := 2

def esent : Int := 3

/-- `pkt_states_t`. -/
inductive PktState where
  | empty
  | free
  | recvReady
  | recvDone
  | sentReady
  | sentDone
  | txing
  deriving DecidableEq, Repr

/-- The memory a packet lies in: a buffer of the network card, or one of the eight that the
memory of a function has for each node of its input ring. -/
inductive Buffer where
  | null
  | mbuf (id : Nat)
  | pkt (node index : Nat)
  deriving DecidableEq, Repr

structure PktMeta where
  pkt : Buffer
  pktLen : Int32
  port : Int32
  deriving DecidableEq, Repr

/-- `struct eos_ring_node`.  Past the eighth packet lies other memory. -/
structure Node where
  cnt : Int
  idx : Int
  deadline : Nat
  arrive : Nat
  pkts : Nat → PktMeta
  state : PktState

/-- `struct eos_ring`. -/
structure Ring where
  nodes : Nat → Node
  freeHead : UInt32
  pktCnt : Int
  mcaHead : UInt32
  head : UInt32
  tail : UInt32
  cached : Node

/-- `EOS_RING_MASK` applied to a position. -/
def ringIndex (position : UInt32) : Nat := (position &&& 127).toNat

namespace Node

/-- What `memset` leaves. -/
def zero : Node := ⟨0, 0, 0, 0, fun _ => ⟨.null, 0, 0⟩, .empty⟩

def push (n : Node) (m : PktMeta) : Node :=
  { n with pkts := Function.update n.pkts n.idx.toNat m, idx := n.idx + 1 }

end Node

def nodeBuffer (node index : Nat) : Buffer :=
  if index < eosPktPerEntry then .pkt node index else .null

namespace Ring

/-- `GET_RING_NODE`. -/
def node (r : Ring) (position : UInt32) : Node := r.nodes (ringIndex position)

def setNode (r : Ring) (position : UInt32) (n : Node) : Ring :=
  { r with nodes := Function.update r.nodes (ringIndex position) n }

def setState (r : Ring) (position : UInt32) (state : PktState) : Ring :=
  r.setNode position { r.node position with state := state }

/-- `eos_rings_init`, for the input ring. -/
def inputInit : Ring where
  nodes i := { Node.zero with pkts := fun j => ⟨nodeBuffer i j, 256, 0⟩, state := .free }
  freeHead := 0
  pktCnt := 0
  mcaHead := 0
  head := 0
  tail := 0
  cached := .zero

/-- `eos_rings_init`, for the output ring. -/
def outputInit : Ring where
  nodes _ := .zero
  freeHead := 0
  pktCnt := 0
  mcaHead := 0
  head := 0
  tail := 0
  cached := { Node.zero with state := .sentReady }

end Ring

/-! Sending. -/

def flushTail (r : Ring) : Int × Ring :=
  match (r.node r.tail).state with
  | .empty =>
    (0, { r.setNode r.tail { r.cached with idx := 0 } with
      tail := r.tail + 1
      cached := { r.cached with idx := 0, cnt := 0 }
      pktCnt := r.pktCnt + 1 })
  | .sentDone => (-ecollet, r)
  | _ => (-eblock, r)

def eosPktSendFlushForce (r : Ring) : Option (Int × Ring) :=
  if r.cached.cnt > eosPktPerEntry then none
  else if r.cached.idx < r.cached.cnt then some (-esent, r)
  else some (flushTail r)

def eosPktSendFlush (r : Ring) : Option (Int × Ring) :=
  if r.cached.cnt > eosPktPerEntry then none
  else if r.cached.cnt = 0 then some (0, r)
  else if r.cached.idx < r.cached.cnt then some (-esent, r)
  else some (flushTail r)

def cachePkt (r : Ring) (m : PktMeta) : Ring := { r with cached := r.cached.push m }

def eosPktSendTest (r : Ring) (m : PktMeta) (deadline arrive : Nat) : Option (Int × Ring) := do
  let r := { r with cached := { r.cached with deadline := deadline, arrive := arrive } }
  if r.cached.cnt = r.cached.idx then
    let (ret, r) ← eosPktSendFlush r
    if ret ≠ 0 then some (ret, r)
    else
      let r := cachePkt r m
      -- a second flush would fail the assertion on the number of them
      if r.cached.cnt = r.cached.idx then
        let (ret, r) ← eosPktSendFlush r
        if ret = 0 then none else some (0, r)
      else some (0, r)
  else
    let r := cachePkt r m
    if r.cached.cnt = r.cached.idx then
      let (_, r) ← eosPktSendFlush r
      some (0, r)
    else some (0, r)

def eosPktSend (r : Ring) (m : PktMeta) : Option (Int × Ring) := do
  let (ret, r) ← if r.cached.cnt = r.cached.idx then eosPktSendFlush r else some (0, r)
  if ret ≠ 0 then some (ret, r)
  else
    let r := cachePkt r m
    if r.cached.cnt = r.cached.idx then eosPktSendFlush r else some (0, r)

/-- A flush of the node `n` up to the counter of the ring, which is changed afterwards. -/
def publishNode (r : Ring) (n : Node) : Option Ring :=
  if n.state = .sentReady ∧ 0 ≤ n.cnt then
    match eosPktSendFlushForce { r with cached := n } with
    | some (0, r') => some { r' with pktCnt := r.pktCnt }
    | _ => none
  else none

/-! Receiving. -/

/-- The loop of `eos_pkt_recv_slow` over empty nodes, once around the ring at most. -/
def skipEmpty : Nat → Ring → Ring
  | 0, r => r
  | left + 1, r =>
    if (r.node r.tail).state ≠ .empty then r else skipEmpty left { r with tail := r.tail + 1 }

def eosPktRecvSlow (ring sent : Ring) : Option (Int × Ring × Ring) :=
  if ring.cached.cnt ≠ ring.cached.idx then none
  else
    let ring := skipEmpty eosRingSize ring
    let rn := ring.node ring.tail
    match rn.state with
    | .recvReady =>
      if rn.cnt = 0 ∨ rn.idx ≠ 0 ∨ sent.cached.cnt ≠ 0 ∨ sent.cached.idx ≠ 0 then none
      else
        some (0,
          { ring.setState ring.tail .recvDone with
            cached := rn
            tail := ring.tail + 1
            pktCnt := ring.pktCnt - rn.cnt },
          { sent with cached := { sent.cached with pkts := rn.pkts, cnt := rn.cnt } })
    | .recvDone => some (-ecollet, ring, sent)
    | _ => some (-eblock, ring, sent)

/-- The end of `eos_pkt_recv`: the next packet of the cached node. -/
def nextPkt (ring : Ring) : Option (PktMeta × Ring) :=
  let m := ring.cached.pkts ring.cached.idx.toNat
  if m.pkt = .null ∨ m.pktLen = 0 then none
  else some (m, { ring with cached := { ring.cached with idx := ring.cached.idx + 1 } })

/-- `eos_pkt_recv`; the packet is missing if there is an error. -/
def eosPktRecv (ring sent : Ring) : Option (Int × Option PktMeta × Ring × Ring) := do
  let (ret, ring, sent) ←
    if ring.cached.cnt = ring.cached.idx then eosPktRecvSlow ring sent else some (0, ring, sent)
  if ret ≠ 0 then some (ret, none, ring, sent)
  else
    let (m, ring) ← nextPkt ring
    some (0, some m, ring, sent)

/-! Collecting. -/

/-- `eos_pkt_collect` has a node to collect. -/
def collectable (recv sent : Ring) : Bool :=
  ((recv.node recv.head).state = .empty ∨ (recv.node recv.head).state = .recvDone) ∧
    (sent.node sent.head).state = .sentDone

/-- One round of `eos_pkt_collect`. -/
def eosPktCollectOne (recv sent : Ring) : Option (Ring × Ring) :=
  let scache := sent.node sent.head
  let rcache := recv.node recv.head
  if recv.head ≠ sent.head ∨
      ∃ i < eosPktPerEntry, (rcache.pkts i).pkt ≠ (scache.pkts i).pkt then none
  else
    some ({ recv.setNode recv.head { scache with cnt := 0, idx := 0, state := .free } with
        head := recv.head + 1 },
      { sent.setState sent.head .empty with head := sent.head + 1 })

/-- `ninf_pkt_collect`, with the buffers that it gives back. -/
def ninfPktCollect (r : Ring) : Ring × List Buffer :=
  let n := r.node r.head
  if n.state = .sentDone then
    ({ r.setState r.head .empty with head := r.head + 1 },
      (List.range n.cnt.toNat).map fun i => (n.pkts i).pkt)
  else (r, [])

/-- `cos_tx_cb`, for a packet of node `i`. -/
def cosTxCb (r : Ring) (i : Nat) : Ring :=
  let n := r.nodes i
  let n := { n with cnt := n.cnt - 1, state := if n.cnt - 1 = 0 then .sentDone else n.state }
  { r with nodes := Function.update r.nodes i n }

/-! Copying from ring to ring. -/

/-- What the manager touches when it handles a node: a packet of the node, the copy of a
packet of some length, and the data of a port. -/
inductive Access where
  | packet (index : Int)
  | copy (dst src : Buffer) (len : Int32)
  | port (port : Int32)
  deriving DecidableEq, Repr

/-- The lengths and ports of packet `i` are carried over. -/
def transferMeta (sn rn : Node) (i : Nat) : Node :=
  { rn with
    pkts := Function.update rn.pkts i ⟨(rn.pkts i).pkt, (sn.pkts i).pktLen, (sn.pkts i).port⟩ }

/-- `mca_copy` of packet `i`. -/
def mcaCopy (sn rn : Node) (i : Nat) : Access :=
  .copy (rn.pkts i).pkt (sn.pkts i).pkt (sn.pkts i).pktLen

/-- The loop of `mca_transfer` from packet `i` on, over all packets but the last. -/
def mcaTransferLoop (sn : Node) : Nat → Nat → Node → List Access × Option Node
  | 0, _, rn => ([], some rn)
  | left + 1, i, rn =>
    if (sn.pkts i).pktLen.toInt > eosPktMaxSz then ([.packet (i + 1), .packet i], none)
    else
      let (accesses, result) := mcaTransferLoop sn left (i + 1) (transferMeta sn rn i)
      (.packet (i + 1) :: .packet i :: mcaCopy sn rn i :: accesses, result)

def mcaTransfer (sn rn : Node) : List Access × Option Node :=
  let cnt := sn.cnt - 1
  match mcaTransferLoop sn cnt.toNat 0
      { rn with deadline := sn.deadline, arrive := sn.arrive } with
  | (accesses, none) => (accesses, none)
  | (accesses, some rn) =>
    (accesses ++ [.packet cnt, mcaCopy sn rn cnt.toNat],
      some { transferMeta sn rn cnt.toNat with cnt := sn.cnt, state := .recvReady })

end Composite.Eos
