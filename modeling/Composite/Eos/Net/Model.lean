import Composite.Eos.Untrusted
import Composite.Eos.Nf.Model

/-!
# Packets on their way to a network function

The receive core hands each packet of the network card to the source ring of a function, in a
node of its own, and gives the buffer back to the card when the node was taken.  The
memory-copy agent copies the packet into the buffers of a node of the function's input ring.
The state has the contents of all buffers, and a history of the packets that were published
to the source ring and of those that the function received.
-/

namespace Composite.Eos

abbrev Memory := Buffer → Nat → UInt8

structure Packet where
  bytes : List UInt8
  len : Int32
  port : Int32
  deriving DecidableEq, Repr

def readPacket (memory : Memory) (m : PktMeta) : Packet :=
  ⟨(List.range m.pktLen.toInt.toNat).map (memory m.pkt), m.pktLen, m.port⟩

def readNode (memory : Memory) (n : Node) : List Packet :=
  (List.range n.cnt.toNat).map fun i => readPacket memory (n.pkts i)

/-- `mca_copy`.  A copy that leaves its buffer is not followed. -/
def runCopy (memory : Memory) : Access → Option Memory
  | .copy dst src len =>
    if copySize len ≤ eosPktMaxSz then
      some (Function.update memory dst fun i =>
        if i < copySize len then memory src i else memory dst i)
    else none
  | _ => some memory

/-- A packet in the hands of the receive core: `rte_pktmbuf_data_len` of it is 16 bits. -/
structure RxPacket where
  mbuf : Nat
  len : UInt16
  port : Int32
  deriving DecidableEq, Repr

structure Net where
  nf : Nf
  source : Ring
  /-- The agent's copy of the source node, while it has one. -/
  scache : Node
  /-- The agent has marked the source node, and not yet stored the input node. -/
  released : Bool
  memory : Memory
  /-- The buffers of the card that are not in its pool. -/
  used : Nat → Bool
  /-- The packets that the receive core still has to send. -/
  hand : List RxPacket
  published : List Packet
  received : List Packet

inductive NetEvent where
  /-- The card delivers a packet. -/
  | arrive (packet : RxPacket) (contents : Nat → UInt8)
  | rxCollect
  /-- One round of the loop of `ninf_rx_proc_mbuf`. -/
  | rxSend (deadline arrive : Nat)
  | look
  | leave
  | transfer
  | release
  | store
  | recv
  /-- The function writes into a packet that it has. -/
  | modify (buffer : Buffer) (offset : Nat) (value : UInt8)
  /-- The function sends or collects, or the consumer of its output ring takes a step. -/
  | nf (event : NfEvent)

namespace Net

def init : Net where
  nf := .init
  source := .outputInit
  scache := .zero
  released := false
  memory := fun _ _ => 0
  used := fun _ => false
  hand := []
  published := []
  received := []

def publishedBy (memory : Memory) (before after : Ring) : List Packet :=
  if after.tail = before.tail then [] else readNode memory (after.node before.tail)

def rxCollect (n : Net) : Net :=
  let (source, freed) := ninfPktCollect n.source
  { n with source := source, used := fun id => n.used id && !freed.contains (.mbuf id) }

def rxSend (n : Net) (deadline arrive : Nat) : Option Net :=
  match n.hand with
  | [] => none
  | packet :: rest =>
    let ring := { n.source with cached := { n.source.cached with cnt := 1 } }
    if packet.len.toNat > eosPktMaxSz then none
    else
      match eosPktSendTest ring ⟨.mbuf packet.mbuf, Int32.ofNat packet.len.toNat, packet.port⟩
          deadline arrive with
      | none => none
      | some (ret, source) =>
        if ret = 0 then
          some { n with
            source := source
            hand := rest
            published := n.published ++ publishedBy n.memory n.source source }
        else if ret = -ecollet then some { n with source := source }
        else none

def look (n : Net) : Option Net :=
  let sn := n.source.node n.source.mcaHead
  if sn.state ≠ .sentReady then some n
  else if (n.nf.input.node n.nf.input.freeHead).state ≠ .free then some n
  else if sn.cnt = 0 then none
  else (n.nf.next .look).map fun nf => { n with nf := nf, scache := sn }

def transfer (n : Net) : Option Net :=
  match n.nf.agent with
  | .looked rcache => do
      let memory ← (mcaTransfer n.scache rcache).1.foldlM runCopy n.memory
      let nf ← n.nf.next (.transfer n.scache)
      some { n with nf := nf, memory := memory }
  | _ => none

def release (n : Net) : Option Net :=
  match n.nf.agent with
  | .moved _ =>
    if n.released then none
    else
      some { n with
        source := { n.source.setState n.source.mcaHead .sentDone with
          mcaHead := n.source.mcaHead + 1 }
        released := true }
  | _ => none

def store (n : Net) : Option Net :=
  let count := (n.source.node (n.source.mcaHead - 1)).cnt
  if n.released then
    (n.nf.next (.store count)).map fun nf =>
      { n with
        nf := nf
        source := { n.source with pktCnt := n.source.pktCnt - count }
        released := false }
  else none

def recv (n : Net) : Option Net :=
  match eosPktRecv n.nf.input n.nf.output with
  | none => none
  | some (_, m, input, output) =>
    some { n with
      nf := { n.nf with
        input := input
        output := output
        todo := n.nf.todo ++ (m.map PktMeta.pkt).toList }
      received := n.received ++ (m.map (readPacket n.memory)).toList }

def onOutput : NfEvent → Bool
  | .look | .leave | .transfer _ | .store _ | .recv => false
  | _ => true

def next (n : Net) : NetEvent → Option Net
  | .arrive packet contents =>
    if n.used packet.mbuf then none
    else
      some { n with
        memory := Function.update n.memory (.mbuf packet.mbuf) contents
        used := Function.update n.used packet.mbuf true
        hand := n.hand ++ [packet] }
  | .rxCollect => some n.rxCollect
  | .rxSend deadline arrive => n.rxSend deadline arrive
  | .look => n.look
  | .leave => (n.nf.next .leave).map fun nf => { n with nf := nf }
  | .transfer => n.transfer
  | .release => n.release
  | .store => n.store
  | .recv => n.recv
  | .modify buffer offset value =>
    if buffer ∈ n.nf.todo ∧ (offset : Int) < eosPktMaxSz then
      some { n with
        memory := Function.update n.memory buffer
          (Function.update (n.memory buffer) offset value) }
    else none
  | .nf event =>
    if onOutput event then (n.nf.next event).map fun nf => { n with nf := nf } else none

end Net

end Composite.Eos
