import Composite.Eos.Untrusted

/-!
# Handing packets to the network card

The transmitter takes the nodes of the output rings one after the other.  The packets of a node
wait in a batch for their port, a full batch goes to the card, and the card reports every packet
when it is sent, at any time and in any order.  The report counts the packets of the node down.
One step of the transmitter adds a packet, hands one to the card, or marks a node.
-/

namespace Composite.Eos

structure NodeRef where
  ring : Nat
  cell : Nat
  deriving DecidableEq, Repr

/-- `struct tx_pkt_batch`; `pkt` is the packet of the copied node that `meta` points to. -/
structure TxPkt where
  rn : NodeRef
  pkt : Nat
  deriving DecidableEq, Repr

def nicPort (port : Int32) : Option (Fin numNicPorts) :=
  if low : 0 ≤ port.toInt ∧ port.toInt < numNicPorts then
    some ⟨port.toInt.toNat, by omega⟩
  else none

/-- Where `ninf_tx_nf_send_burst` was called. -/
inductive BurstFrom where
  | add (ring i : Nat)
  | flush
  deriving DecidableEq, Repr

/-- Where the transmitter is in `ninf_tx_process`. -/
inductive TxStage where
  | idle
  | scanning (ring : Nat)
  /-- Packet `i` of the copied node comes next. -/
  | adding (ring i : Nat)
  | posting (port : Fin numNicPorts) (back : BurstFrom)
  /-- In `ninf_tx_flush`. -/
  | flush (port : Nat)
  deriving DecidableEq, Repr

/-- What happened to a node since it was last published: how many packets it had, how many the
card has sent, and every state that was written to it. -/
structure Life where
  size : Nat
  completed : Nat
  writes : List PktState
  deriving DecidableEq, Repr

structure Tx where
  rings : Nat → Ring
  scache : Node
  ret : Nat
  batches : Fin numNicPorts → List TxPkt
  card : List NodeRef
  stage : TxStage
  life : NodeRef → Life

inductive TxEvent where
  /-- A network function flushes a node. -/
  | publish (ring : Nat) (n : Node)
  /-- A network function collects the first node of its ring. -/
  | collect (ring : Nat)
  | process (ring : Nat)
  | go
  /-- The card reports a packet of a node. -/
  | complete (p : NodeRef)

namespace Tx

def initial : Tx where
  rings _ := .outputInit
  scache := .zero
  ret := 0
  batches _ := []
  card := []
  stage := .idle
  life _ := ⟨0, 0, []⟩

def node (s : Tx) (p : NodeRef) : Node := (s.rings p.ring).nodes p.cell

/-- The node at `mca_head` of a ring. -/
def current (s : Tx) (ring : Nat) : NodeRef := ⟨ring, ringIndex (s.rings ring).mcaHead⟩

def setRing (s : Tx) (ring : Nat) (r : Ring) : Tx :=
  { s with rings := Function.update s.rings ring r }

def setLife (s : Tx) (p : NodeRef) (life : Life) : Tx :=
  { s with life := Function.update s.life p life }

def wrote (s : Tx) (p : NodeRef) (state : PktState) : Tx :=
  s.setLife p { s.life p with writes := (s.life p).writes ++ [state] }

/-- The start of `ninf_tx_nf_send_burst`.  The lengths are those of the node copied last. -/
def startBurst (s : Tx) (port : Fin numNicPorts) (back : BurstFrom) : Option Tx :=
  if ∀ e ∈ s.batches port, (s.scache.pkts e.pkt).pktLen.toInt ≤ eosPktMaxSz then
    some { s with stage := .posting port back }
  else none

/-- The end of the loop of `ninf_tx_process` over a node. -/
def mark (s : Tx) (ring : Nat) : Tx :=
  let state : PktState := if s.scache.cnt ≠ 0 then .txing else .sentDone
  let r := (s.rings ring).setState (s.rings ring).mcaHead state
  { (s.setRing ring { r with mcaHead := r.mcaHead + 1 }).wrote (s.current ring) state with
    ret := s.ret + 1
    stage := .scanning ring }

/-- The next step of `ninf_tx_process`. -/
def go (s : Tx) : Option Tx :=
  match s.stage with
  | .idle => none
  | .scanning ring =>
    let r := s.rings ring
    if (r.node r.mcaHead).state ≠ .sentReady then
      some { s.setRing ring { r with pktCnt := r.pktCnt - s.ret } with stage := .flush 0 }
    else some { s with scache := r.node r.mcaHead, stage := .adding ring 0 }
  | .adding ring i =>
    if (i : Int) < s.scache.cnt then
      match nicPort (s.scache.pkts i).port with
      | none => none
      | some port =>
        if (s.batches port).length = burstSize then s.startBurst port (.add ring i)
        else if s.scache.deadline = 0 then none
        else
          some { s with
            batches := Function.update s.batches port (s.batches port ++ [⟨s.current ring, i⟩])
            stage := .adding ring (i + 1) }
    else some (s.mark ring)
  | .posting port back =>
    match s.batches port with
    | [] =>
      match back with
      | .add ring i => some { s with stage := .adding ring i }
      | .flush => some { s with stage := .flush (port + 1) }
    | e :: rest =>
      some { s with
        batches := Function.update s.batches port rest
        card := e.rn :: s.card }
  | .flush port =>
    if inside : port < numNicPorts then
      if s.batches ⟨port, inside⟩ = [] then some { s with stage := .flush (port + 1) }
      else s.startBurst ⟨port, inside⟩ .flush
    else some { s with stage := .idle }

/-- `cos_tx_cb` for a packet that the card has. -/
def complete (s : Tx) (p : NodeRef) : Option Tx :=
  if p ∈ s.card then
    let life := s.life p
    some { (s.setRing p.ring (cosTxCb (s.rings p.ring) p.cell)).setLife p
        { life with
          completed := life.completed + 1
          writes := if (s.node p).cnt - 1 = 0 then
            life.writes ++ [.sentDone] else life.writes } with
      card := s.card.erase p }
  else none

/-- `none` if the step is not possible, or an assertion fails. -/
def next (s : Tx) : TxEvent → Option Tx
  | .publish ring n =>
    let r := s.rings ring
    (publishNode r n).map fun r' =>
      (s.setRing ring { r' with pktCnt := r'.pktCnt + 1 }).setLife ⟨ring, ringIndex r.tail⟩
        ⟨n.cnt.toNat, 0, [.sentReady]⟩
  | .collect ring =>
    let r := s.rings ring
    if (r.node r.head).state = .sentDone then
      some ((s.setRing ring { r.setState r.head .empty with head := r.head + 1 }).wrote
        ⟨ring, ringIndex r.head⟩ .empty)
    else none
  | .process ring =>
    match s.stage with
    | .idle => some { s with stage := .scanning ring, ret := 0 }
    | _ => none
  | .go => s.go
  | .complete p => s.complete p

end Tx

end Composite.Eos
