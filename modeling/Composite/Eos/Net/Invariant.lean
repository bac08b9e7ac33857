import Composite.Eos.Nf.Rings
import Composite.Eos.Net.Model

/-!
# What holds of packets on their way

Position `p` of the source ring and position `p` of the input ring carry the packet with number
`p`.  A buffer of the card belongs to the position that it was sent to, from then on until the
node is collected.
-/

namespace Composite.Eos

open Window

structure SourcePositions where
  head : Nat
  mca : Nat
  tail : Nat

def SourceHeld (owner : Nat → Option Nat) (position : Nat) (m : PktMeta) : Prop :=
  ∃ id, m.pkt = .mbuf id ∧ owner id = some position ∧ 0 ≤ m.pktLen.toInt ∧
    m.pktLen.toInt ≤ eosPktMaxSz

/-! What a node of the source ring is between its positions. -/

def SourceDone (owner : Nat → Option Nat) (position : Nat) (n : Node) : Prop :=
  n.state = .sentDone ∧ n.cnt = 1 ∧ SourceHeld owner position (n.pkts 0)

def SourceReady (owner : Nat → Option Nat) (memory : Memory) (published : List Packet)
    (position : Nat) (n : Node) : Prop :=
  n.state = .sentReady ∧ n.cnt = 1 ∧ SourceHeld owner position (n.pkts 0) ∧
    published[position]? = some (readPacket memory (n.pkts 0))

def SourceFree (_ : Nat) (n : Node) : Prop := n.state = .empty

def RxCached (owner : Nat → Option Nat) (tail : Nat) (cached : Node) : Prop :=
  cached.state = .sentReady ∧
    (cached.idx = 0 ∨ cached.idx = 1 ∧ SourceHeld owner tail (cached.pkts 0))

def InputHolds (memory : Memory) (published : List Packet) (position : Nat) (n : Node) : Prop :=
  n.cnt = 1 ∧ (n.pkts 0).pkt = nodeBuffer (position % eosRingSize) 0 ∧
    published[position]? = some (readPacket memory (n.pkts 0))

structure PoolSound (used : Nat → Bool) (hand : List RxPacket) (owner : Nat → Option Nat) :
    Prop where
  owned : ∀ id position, owner id = some position → used id = true
  held : ∀ packet ∈ hand, used packet.mbuf = true ∧ owner packet.mbuf = none
  distinct : (hand.map RxPacket.mbuf).Nodup

namespace Net

def AgentHolds (n : Net) (owner : Nat → Option Nat) (free : Nat) (src : SourcePositions) :
    AgentStage → Prop
  | .idle => n.released = false ∧ free = src.mca
  | .looked _ => n.released = false ∧ free = src.mca ∧ src.mca < src.tail ∧
      SourceReady owner n.memory n.published src.mca n.scache
  | .moved rcache => InputHolds n.memory n.published free rcache ∧
      (n.released = false ∧ free = src.mca ∧ src.mca < src.tail ∨
        n.released = true ∧ free + 1 = src.mca)

structure Sound (n : Net) (pos : Positions) (src : SourcePositions)
    (owner : Nat → Option Nat) : Prop where
  rings : n.nf.Sound pos
  source : Cycle eosRingSize n.source.nodes src.head src.mca src.tail
    (SourceDone owner) (SourceReady owner n.memory n.published) SourceFree
  sourceHead : n.source.head = .ofNat src.head
  sourceMca : n.source.mcaHead = .ofNat src.mca
  sourceTail : n.source.tail = .ofNat src.tail
  cached : RxCached owner src.tail n.source.cached
  count : n.published.length = src.tail
  agent : n.AgentHolds owner pos.free src n.nf.agent
  input : Covers eosRingSize n.nf.input.nodes pos.tail pos.free
    (InputHolds n.memory n.published)
  finished : n.nf.input.cached.cnt = n.nf.input.cached.idx
  received : n.received = n.published.take pos.tail
  pool : PoolSound n.used n.hand owner

end Net

/-! What does not matter to a node. -/

variable {memory memory' : Memory} {position : Nat}

theorem readPacket_congr {m : PktMeta} (same : memory' m.pkt = memory m.pkt) :
    readPacket memory' m = readPacket memory m := by
  unfold readPacket
  rw [same]

theorem SourceHeld.owner_frame {owner owner' : Nat → Option Nat} {m : PktMeta}
    (held : SourceHeld owner position m)
    (same : ∀ id, owner id = some position → owner' id = some position) :
    SourceHeld owner' position m := by
  obtain ⟨id, pointer, owned, length⟩ := held
  exact ⟨id, pointer, same id owned, length⟩

theorem SourceReady.frame {owner owner' : Nat → Option Nat} {published : List Packet} {n : Node}
    (ready : SourceReady owner memory published position n)
    (sameOwner : ∀ id, owner id = some position → owner' id = some position)
    (sameBytes : ∀ id, owner id = some position → memory' (.mbuf id) = memory (.mbuf id))
    (more : List Packet) : SourceReady owner' memory' (published ++ more) position n := by
  obtain ⟨state, count, held, packet⟩ := ready
  refine ⟨state, count, held.owner_frame sameOwner, ?_⟩
  obtain ⟨inside, _⟩ := List.getElem?_eq_some_iff.mp packet
  rw [List.getElem?_append_left inside, packet]
  obtain ⟨id, pointer, owned, _⟩ := held
  rw [readPacket_congr]
  rw [pointer]
  exact (sameBytes id owned).symm

theorem InputHolds.frame {published : List Packet} {n : Node}
    (holds : InputHolds memory published position n)
    (sameBytes : memory' (nodeBuffer (position % eosRingSize) 0) =
      memory (nodeBuffer (position % eosRingSize) 0)) (more : List Packet) :
    InputHolds memory' (published ++ more) position n := by
  obtain ⟨count, pointer, packet⟩ := holds
  refine ⟨count, pointer, ?_⟩
  obtain ⟨inside, _⟩ := List.getElem?_eq_some_iff.mp packet
  rw [List.getElem?_append_left inside, packet, readPacket_congr]
  rw [pointer]
  exact sameBytes.symm

theorem nodeBuffer_ne_mbuf (node index id : Nat) : nodeBuffer node index ≠ .mbuf id := by
  unfold nodeBuffer
  split_ifs
  all_goals exact nofun

theorem nodeBuffer_zero_inj {node other index : Nat}
    (same : nodeBuffer node 0 = nodeBuffer other index) : node = other := by
  unfold nodeBuffer at same
  rw [if_pos (by decide)] at same
  split_ifs at same
  exact (Buffer.pkt.inj same).1

end Composite.Eos
