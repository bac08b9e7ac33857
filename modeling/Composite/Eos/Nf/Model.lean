import Composite.Eos.Ring

/-!
# The rings of a network function

The memory-copy agent fills the nodes of the input ring, the function receives their packets
and sends each of them once and in order, and the transmitter or the agent of the next
function empties the output ring.  The function collects a node of the output ring when its
packets have left, and gives it back as a free node of the input ring.

The parties meet in the state words of the nodes only.  Their positions are private, so that
a step writes the state word and moves the position of its party at once.  The input ring has
the positions `head ≤ tail ≤ free`, the output ring `head ≤ taken ≤ sent`, and both rings have
the same head: node `p` of the input ring comes back as node `p` of the output ring, with the
same buffers.
-/

namespace Composite.Eos

/-- Where the agent is in `mca_process`. -/
inductive AgentStage where
  | idle
  /-- It found the node at `free_head` free, and has a copy of it. -/
  | looked (rcache : Node)
  /-- It filled the copy. -/
  | moved (rcache : Node)

structure Nf where
  input : Ring
  output : Ring
  agent : AgentStage
  /-- The node that the transmitter is handing to the card, and the packets of it that the card
  may complete by then. -/
  posted : Option (Node × Nat)
  /-- The packets of each marked node of the output ring that the card has not completed. -/
  sending : Nat → Nat
  /-- The packets that the function has received and not yet sent. -/
  todo : List Buffer

inductive NfEvent where
  /-- The agent looks for a free node. -/
  | look
  /-- The agent leaves the node to a later round. -/
  | leave
  /-- The agent copies the packets of a node of the source ring. -/
  | transfer (scache : Node)
  /-- The agent stores the node, and adds the count that it reads again. -/
  | store (count : Int)
  | recv
  | send (len port : Int32)
  | collect
  /-- The next agent is done with a node. -/
  | take
  /-- The transmitter hands the packets of a node to the card. -/
  | post
  /-- The card has sent a packet of that node already. -/
  | sentEarly
  /-- The transmitter marks that node. -/
  | mark
  /-- The card has sent a packet of a marked node. -/
  | sent (node : Fin eosRingSize)

namespace Nf

/-- `eos_rings_init`, before anyone runs. -/
def init : Nf := ⟨.inputInit, .outputInit, .idle, none, fun _ => 0, []⟩

def agentLook (f : Nf) : Option Nf :=
  let rn := f.input.node f.input.freeHead
  if rn.state ≠ .free then some f
  else if rn.cnt ≠ 0 then none
  else some { f with agent := .looked rn }

def agentStore (f : Nf) (rcache : Node) (count : Int) : Nf :=
  { f with
    input := { f.input.setNode f.input.freeHead rcache with
      freeHead := f.input.freeHead + 1
      pktCnt := f.input.pktCnt + count }
    agent := .idle }

def recv (f : Nf) : Option Nf := do
  let (_, m, input, output) ← eosPktRecv f.input f.output
  some { f with input, output, todo := f.todo ++ (m.map PktMeta.pkt).toList }

def send (f : Nf) (len port : Int32) : Option Nf :=
  match f.todo with
  | [] => none
  | pkt :: rest => do
      let (ret, output) ← eosPktSend f.output ⟨pkt, len, port⟩
      if ret ≠ 0 then none else some { f with output, todo := rest }

/-- `eos_pkt_collect`, one round of it. -/
def collect (f : Nf) : Option Nf :=
  if collectable f.input f.output then do
    let (input, output) ← eosPktCollectOne f.input f.output
    some { f with input, output }
  else some f

def take (f : Nf) : Option Nf :=
  let sn := f.output.node f.output.mcaHead
  if sn.state ≠ .sentReady then some f
  else if sn.cnt = 0 then none
  else
    some { f with
      output := { f.output.setState f.output.mcaHead .sentDone with
        mcaHead := f.output.mcaHead + 1
        pktCnt := f.output.pktCnt - sn.cnt } }

/-- `ninf_tx_process` up to the state word.  The last packet of the node waits in its batch, so
that the card may complete all others before the node is marked. -/
def post (f : Nf) : Nf :=
  let scache := f.output.node f.output.mcaHead
  if scache.state ≠ .sentReady then f
  else { f with posted := some (scache, scache.cnt.toNat - 1) }

/-- The rest of the round, with `left` packets of the node not completed so far. -/
def mark (f : Nf) (scache : Node) (left : Nat) : Nf :=
  { f with
    output :=
      { f.output.setState f.output.mcaHead (if scache.cnt ≠ 0 then .txing else .sentDone) with
        mcaHead := f.output.mcaHead + 1
        pktCnt := f.output.pktCnt - 1 }
    posted := none
    sending := Function.update f.sending (ringIndex f.output.mcaHead) left }

/-- `none` if the step is not possible, or an assertion fails. -/
def next (f : Nf) : NfEvent → Option Nf
  | .look =>
    match f.agent with
    | .idle => f.agentLook
    | _ => none
  | .leave =>
    match f.agent with
    | .looked _ => some { f with agent := .idle }
    | _ => none
  | .transfer scache =>
    match f.agent with
    | .looked rcache =>
      if 1 ≤ scache.cnt ∧ scache.cnt ≤ eosPktPerEntry then
        (mcaTransfer scache rcache).2.map fun n => { f with agent := .moved n }
      else none
    | _ => none
  | .store count =>
    match f.agent with
    | .moved rcache => some (f.agentStore rcache count)
    | _ => none
  | .recv => f.recv
  | .send len port => f.send len port
  | .collect => f.collect
  | .take =>
    match f.posted with
    | none => f.take
    | some _ => none
  | .post =>
    match f.posted with
    | none => some f.post
    | some _ => none
  | .sentEarly =>
    match f.posted with
    | some (scache, early + 1) =>
      some { f with
        output := cosTxCb f.output (ringIndex f.output.mcaHead)
        posted := some (scache, early) }
    | _ => none
  | .mark =>
    match f.posted with
    | none => none
    | some (scache, early) => some (f.mark scache (early + min 1 scache.cnt.toNat))
  | .sent node =>
    if f.sending node = 0 then none
    else
      some { f with
        output := cosTxCb f.output node
        sending := Function.update f.sending node (f.sending node - 1) }

end Nf

end Composite.Eos
