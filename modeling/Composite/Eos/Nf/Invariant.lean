import Composite.Lib.Window
import Composite.Eos.Nf.Model

/-!
# What holds of the rings of a function

The positions of the parties are counted without end, and the rings hold their remainders.
Between its positions a ring is a cycle of nodes that were consumed, nodes that are ready and
nodes that are free; the caches of the function are either empty or within one node.
-/

namespace Composite.Eos

open Window Function

/-! Positions. -/

theorem ringIndex_ofNat (position : Nat) :
    ringIndex (UInt32.ofNat position) = position % eosRingSize := by
  have masked := Nat.and_two_pow_sub_one_eq_mod (position % 2 ^ 32) 7
  unfold ringIndex eosRingSize
  rw [UInt32.toNat_and]
  simp only [UInt32.toNat_ofNat', UInt32.reduceToNat, Nat.reducePow]
  simp only [Nat.reducePow, Nat.reduceSub] at masked
  omega

theorem Ring.node_ofNat (r : Ring) {position : UInt32} {p : Nat} (at_p : position = .ofNat p) :
    r.node position = r.nodes (p % eosRingSize) := by
  unfold Ring.node
  rw [at_p, ringIndex_ofNat]

theorem Ring.setNode_ofNat (r : Ring) {position : UInt32} {p : Nat} (at_p : position = .ofNat p)
    (n : Node) : (r.setNode position n).nodes = update r.nodes (p % eosRingSize) n := by
  unfold Ring.setNode
  rw [at_p, ringIndex_ofNat]

theorem ofNat_succ (position : Nat) :
    UInt32.ofNat position + 1 = UInt32.ofNat (position + 1) := by
  simp

structure Positions where
  head : Nat
  tail : Nat
  free : Nat
  taken : Nat
  sent : Nat

def HasBuffers (position : Nat) (n : Node) : Prop :=
  ∀ j, (n.pkts j).pkt = nodeBuffer (position % eosRingSize) j

/-! What a node of the input ring is between its positions. -/

def InputDone (position : Nat) (n : Node) : Prop :=
  HasBuffers position n ∧ n.state = .recvDone

def InputReady (position : Nat) (n : Node) : Prop :=
  HasBuffers position n ∧ n.state = .recvReady ∧ n.idx = 0 ∧ 1 ≤ n.cnt ∧ n.cnt ≤ eosPktPerEntry

def InputFree (position : Nat) (n : Node) : Prop :=
  HasBuffers position n ∧ n.state = .free ∧ n.idx = 0 ∧ n.cnt = 0

/-! The same for a node of the output ring and the packets of it that the card has. -/

def OutputDone (position : Nat) (cell : Node × Nat) : Prop :=
  HasBuffers position cell.1 ∧
    (cell.1.state = .sentDone ∧ cell.2 = 0 ∨
      cell.1.state = .txing ∧ cell.2 ≠ 0 ∧ cell.1.cnt = cell.2)

def OutputReady (position : Nat) (cell : Node × Nat) : Prop :=
  HasBuffers position cell.1 ∧ cell.1.state = .sentReady ∧ 1 ≤ cell.1.cnt ∧ cell.2 = 0

def OutputFree (_ : Nat) (cell : Node × Nat) : Prop :=
  cell.1.state = .empty ∧ cell.2 = 0

/-- What the agent holds fits the free node at `position`. -/
def AgentSound (position limit : Nat) : AgentStage → Prop
  | .idle => True
  | .looked rcache => position < limit ∧ HasBuffers position rcache ∧ rcache.idx = 0
  | .moved rcache => position < limit ∧ InputReady position rcache

/-- Between two nodes the caches of the function are empty.  Within a node both caches are at
the buffers of that node, and those received and not sent are still to do. -/
inductive CacheSound (received sending : Node) (todo : List Buffer) (sent tail : Nat) : Prop where
  | between (same : tail = sent) (noCount : sending.cnt = 0) (noPacket : sending.idx = 0)
      (finished : received.cnt = received.idx) (nothing : todo = [])
  | within (count done next : Nat) (ahead : tail = sent + 1)
      (receivedCount : received.cnt = count) (receivedIndex : received.idx = next)
      (sendingCount : sending.cnt = count) (sendingIndex : sending.idx = done)
      (order : done ≤ next) (last : next ≤ count) (unfinished : done < count)
      (fits : count ≤ eosPktPerEntry)
      (receivedBuffers : HasBuffers sent received) (sendingBuffers : HasBuffers sent sending)
      (pending : todo = (List.range' done (next - done)).map (nodeBuffer (sent % eosRingSize)))

namespace Nf

def cells (f : Nf) (i : Nat) : Node × Nat := (f.output.nodes i, f.sending i)

def PostedSound (f : Nf) (pos : Positions) : Option (Node × Nat) → Prop
  | none => True
  | some (scache, early) => pos.taken < pos.sent ∧ 1 ≤ scache.cnt ∧
      (f.output.nodes (pos.taken % eosRingSize)).cnt = early + 1

structure Sound (f : Nf) (pos : Positions) : Prop where
  input : Cycle eosRingSize f.input.nodes pos.head pos.tail pos.free
    InputDone InputReady InputFree
  output : Cycle eosRingSize f.cells pos.head pos.taken pos.sent
    OutputDone OutputReady OutputFree
  inputHead : f.input.head = .ofNat pos.head
  inputTail : f.input.tail = .ofNat pos.tail
  inputFree : f.input.freeHead = .ofNat pos.free
  outputHead : f.output.head = .ofNat pos.head
  outputTaken : f.output.mcaHead = .ofNat pos.taken
  outputSent : f.output.tail = .ofNat pos.sent
  cachedState : f.output.cached.state = .sentReady
  agent : AgentSound pos.free (pos.head + eosRingSize) f.agent
  posted : f.PostedSound pos f.posted
  cache : CacheSound f.input.cached f.output.cached f.todo pos.sent pos.tail

end Nf

/-! Facts about single calls. -/

theorem HasBuffers.next_round {position : Nat} {n : Node} (buffers : HasBuffers position n) :
    HasBuffers (position + eosRingSize) n := by
  intro j
  rw [Nat.add_mod_right]
  exact buffers j

theorem nodeBuffer_ne_null {node index : Nat} (inside : index < eosPktPerEntry) :
    nodeBuffer node index ≠ .null := by
  unfold nodeBuffer
  rw [if_pos inside]
  intro equal
  cases equal

theorem transferMeta_pkt (sn rn : Node) (i j : Nat) :
    ((transferMeta sn rn i).pkts j).pkt = (rn.pkts j).pkt := by
  unfold transferMeta
  by_cases same : j = i
  · rw [same]
    simp only [update_self]
  · simp only [update_of_ne same]

theorem mcaTransferLoop_keeps {sn rn n : Node} {left i : Nat}
    (result : (mcaTransferLoop sn left i rn).2 = some n) :
    n.idx = rn.idx ∧ ∀ j, (n.pkts j).pkt = (rn.pkts j).pkt := by
  induction left generalizing i rn with
  | zero =>
    obtain rfl : rn = n := by simpa [mcaTransferLoop] using result
    exact ⟨rfl, fun j => rfl⟩
  | succ left ih =>
    unfold mcaTransferLoop at result
    split_ifs at result with long
    obtain ⟨index, buffers⟩ := ih result
    refine ⟨index, fun j => (buffers j).trans ?_⟩
    exact transferMeta_pkt sn rn i j

theorem mcaTransfer_keeps {sn rn n : Node} (result : (mcaTransfer sn rn).2 = some n) :
    n.cnt = sn.cnt ∧ n.idx = rn.idx ∧ n.state = .recvReady ∧
      ∀ j, (n.pkts j).pkt = (rn.pkts j).pkt := by
  unfold mcaTransfer at result
  simp only at result
  split at result
  · cases result
  · next accesses filled looped =>
    obtain ⟨index, buffers⟩ := mcaTransferLoop_keeps (congrArg Prod.snd looped)
    obtain rfl := Option.some_inj.mp result
    refine ⟨rfl, index, rfl, fun j => ?_⟩
    exact (transferMeta_pkt sn filled _ j).trans (buffers j)

theorem skipEmpty_of_ne {r : Ring} (taken : (r.node r.tail).state ≠ .empty) (left : Nat) :
    skipEmpty left r = r := by
  cases left with
  | zero => rfl
  | succ left =>
    unfold skipEmpty
    rw [if_pos taken]

end Composite.Eos
