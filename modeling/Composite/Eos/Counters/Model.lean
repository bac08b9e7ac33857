import Composite.Eos.DeadlineTable
import Composite.Eos.Nf.Model

/-!
# The packet counters of the rings

A party hands a node over by its state word and changes the counter of the ring afterwards, so that
the others may run in between.  The sender of a ring adds one for a node.  The memory-copy agent
takes away the packets of the node and adds them to the next ring, where the function takes them
away again; the transmitter takes away the nodes that it has handled.  The agent and the function
read the number of packets from the node again after they have handed it over.

The source ring is filled by a sender and emptied by the agent, which fills the input ring of a
function.  The output ring of the function is emptied by the next agent or by the transmitter.  The
positions of a party are private, so that a step writes the state word and moves the position at
once.
-/

namespace Composite.Eos

inductive Consumer where
  | agent
  | card
  deriving DecidableEq, Repr

/-- Where the agent is in `mca_process`: it has marked the source node, it has stored the input
node, it has counted the source node. -/
inductive AgentAt where
  | idle
  | marked (rcache : Node)
  | stored
  | counted

inductive FunctionAt where
  | idle
  | received
  | sent
  deriving DecidableEq, Repr

inductive TakerAt where
  | idle
  | took
  /-- The nodes that the loop of `ninf_tx_process` has handled. -/
  | marking (ret : Nat)
  deriving DecidableEq, Repr

structure Counters where
  source : Ring
  input : Ring
  output : Ring
  consumer : Consumer
  /-- The sender has published a node and not counted it. -/
  sender : Bool
  agent : AgentAt
  function : FunctionAt
  taker : TakerAt
  table : InfoTable
  /-- The thread of the function. -/
  tid : Nat

inductive CountEvent where
  | publish (n : Node)
  | countPublished
  | collectSource
  | transfer
  | store
  | countSource
  | countInput
  | recv
  | countReceived
  | send (n : Node)
  | countSent
  | collect
  | take
  | countTaken
  | txMark
  | txCount
  /-- The card has sent a packet of a marked node. -/
  | complete (node : Fin eosRingSize)
  /-- `mca_xcpu_process` finds an operation of the function. -/
  | op
  /-- `mca_process` looks at the rings of a function whose flag is set. -/
  | empty

namespace Counters

def initial (consumer : Consumer) (table : InfoTable) (tid : Nat) : Counters :=
  ⟨.outputInit, .inputInit, .outputInit, consumer, false, .idle, .idle, .idle, table, tid⟩

def slot (c : Counters) : Nat := (Source.thread c.tid).slot

def publish (c : Counters) (n : Node) : Option Counters :=
  if c.sender then none
  else (publishNode c.source n).map fun source => { c with source := source, sender := true }

def collectSource (c : Counters) : Option Counters :=
  if (c.source.node c.source.head).state = .sentDone then
    some { c with
      source := { c.source.setState c.source.head .empty with head := c.source.head + 1 } }
  else none

/-- `mca_process` up to the mark on the source node. -/
def transfer (c : Counters) : Option Counters :=
  let sn := c.source.node c.source.mcaHead
  let rn := c.input.node c.input.freeHead
  match c.agent with
  | .idle =>
    if sn.state ≠ .sentReady ∨ rn.state ≠ .free then none
    else if sn.cnt = 0 ∨ rn.cnt ≠ 0 then none
    else
      (mcaTransfer sn rn).2.map fun rcache =>
        { c with
          source := { c.source.setState c.source.mcaHead .sentDone with
            mcaHead := c.source.mcaHead + 1 }
          agent := .marked rcache }
  | _ => none

def store (c : Counters) : Option Counters :=
  match c.agent with
  | .marked rcache =>
    some { c with
      input := { c.input.setNode c.input.freeHead rcache with freeHead := c.input.freeHead + 1 }
      agent := .stored }
  | _ => none

/-- `sn->cnt`, read again. -/
def again (c : Counters) : Int := (c.source.node (c.source.mcaHead - 1)).cnt

def countSource (c : Counters) : Option Counters :=
  match c.agent with
  | .stored =>
    some { c with
      source := { c.source with pktCnt := c.source.pktCnt - c.again }
      agent := .counted }
  | _ => none

def countInput (c : Counters) : Option Counters :=
  match c.agent with
  | .counted =>
    some { c with
      input := { c.input with pktCnt := c.input.pktCnt + c.again }
      agent := .idle }
  | _ => none

/-- `eos_pkt_recv_slow` up to the counter, by a function that has sent what it received. -/
def recv (c : Counters) : Option Counters :=
  if c.function ≠ .idle then none
  else
    match eosPktRecvSlow { c.input with cached := .zero } { c.output with cached := .zero } with
    | some (0, input, _) =>
      some { c with
        input := { input with pktCnt := c.input.pktCnt }
        function := .received }
    | _ => none

def countReceived (c : Counters) : Option Counters :=
  if c.function = .received then
    some { c with
      input := { c.input with pktCnt := c.input.pktCnt - (c.input.node (c.input.tail - 1)).cnt }
      function := .idle }
  else none

def send (c : Counters) (n : Node) : Option Counters :=
  if c.function ≠ .idle then none
  else (publishNode c.output n).map fun output => { c with output := output, function := .sent }

def collect (c : Counters) : Option Counters :=
  if c.function = .idle ∧ collectable c.input c.output then
    (eosPktCollectOne c.input c.output).map fun rings =>
      { c with input := rings.1, output := rings.2 }
  else none

def take (c : Counters) : Option Counters :=
  let sn := c.output.node c.output.mcaHead
  if c.consumer = .agent ∧ c.taker = .idle ∧ sn.state = .sentReady ∧ sn.cnt ≠ 0 then
    some { c with
      output := { c.output.setState c.output.mcaHead .sentDone with
        mcaHead := c.output.mcaHead + 1 }
      taker := .took }
  else none

def countTaken (c : Counters) : Option Counters :=
  if c.taker = .took then
    some { c with
      output := { c.output with
        pktCnt := c.output.pktCnt - (c.output.node (c.output.mcaHead - 1)).cnt }
      taker := .idle }
  else none

def TakerAt.ret : TakerAt → Nat
  | .marking ret => ret
  | _ => 0

/-- A round of the loop of `ninf_tx_process`. -/
def txMark (c : Counters) : Option Counters :=
  let sent := c.output.node c.output.mcaHead
  if c.consumer = .card ∧ sent.state = .sentReady then
    some { c with
      output := { c.output.setState c.output.mcaHead
          (if sent.cnt ≠ 0 then .txing else .sentDone) with
        mcaHead := c.output.mcaHead + 1 }
      taker := .marking (TakerAt.ret c.taker + 1) }
  else none

def txCount (c : Counters) : Option Counters :=
  match c.taker with
  | .marking ret =>
    some { c with
      output := { c.output with pktCnt := c.output.pktCnt - ret }
      taker := .idle }
  | _ => none

/-- `cos_tx_cb`. -/
def complete (c : Counters) (node : Nat) : Option Counters :=
  if (c.output.nodes node).state = .txing then some { c with output := cosTxCb c.output node }
  else none

def op (c : Counters) : Option Counters :=
  match c.agent with
  | .idle => (mcaXcpuOp c.table ⟨c.tid, c.output.pktCnt⟩).map fun table => { c with table := table }
  | _ => none

def empty (c : Counters) : Option Counters :=
  match c.agent with
  | .idle =>
    some { c with table := resetEmpty c.table c.slot c.output.pktCnt c.input.pktCnt }
  | _ => none

/-- `none` if the step is not possible, or an assertion fails. -/
def next (c : Counters) : CountEvent → Option Counters
  | .publish n => c.publish n
  | .countPublished =>
    if c.sender then
      some { c with source := { c.source with pktCnt := c.source.pktCnt + 1 }, sender := false }
    else none
  | .collectSource => c.collectSource
  | .transfer => c.transfer
  | .store => c.store
  | .countSource => c.countSource
  | .countInput => c.countInput
  | .recv => c.recv
  | .countReceived => c.countReceived
  | .send n => c.send n
  | .countSent =>
    if c.function = .sent then
      some { c with output := { c.output with pktCnt := c.output.pktCnt + 1 }, function := .idle }
    else none
  | .collect => c.collect
  | .take => c.take
  | .countTaken => c.countTaken
  | .txMark => c.txMark
  | .txCount => c.txCount
  | .complete node => c.complete node
  | .op => c.op
  | .empty => c.empty

end Counters

end Composite.Eos
