import Composite.Eos.Net.Receive

/-!
# The steps of the memory-copy agent

The packet with number `p` is copied from node `p` of the source ring into a copy of node `p`
of the input ring, the source node is marked, and the copy is stored.
-/

namespace Composite.Eos

open Window Function Option

namespace Net

variable {n n' : Net} {pos : Positions} {src : SourcePositions} {owner : Nat → Option Nat}

theorem Sound.look (sound : n.Sound pos src owner) (looked : n.look = some n') :
    n'.Sound pos src owner := by
  unfold Net.look at looked
  simp only at looked
  rw [n.source.node_ofNat sound.sourceMca] at looked
  split_ifs at looked with other taken none_there
  · obtain rfl := some_inj.mp looked
    exact sound
  · obtain rfl := some_inj.mp looked
    exact sound
  · obtain ⟨nf, stepped, rfl⟩ := map_eq_some_iff.mp looked
    have state : (n.source.nodes (src.mca % eosRingSize)).state = .sentReady := not_not.mp other
    have some_ready : src.mca < src.tail := by
      apply sound.source.ready_of_cell (by decide)
      · rintro ⟨isDone, _⟩
        rw [state] at isDone
        cases isDone
      · intro isFree
        rw [SourceFree, state] at isFree
        cases isFree
    have ready := sound.source.ready src.mca le_rfl some_ready
    have held := sound.agent
    cases stage : n.nf.agent with
    | looked rcache => simp only [Nf.next, stage, reduceCtorEq] at stepped
    | moved rcache => simp only [Nf.next, stage, reduceCtorEq] at stepped
    | idle =>
      rw [stage] at held
      simp only [Nf.next, stage] at stepped
      have rings := sound.rings.look stepped
      simp only [Nf.agentLook, if_neg taken] at stepped
      split_ifs at stepped with count
      obtain rfl := some_inj.mp stepped
      exact { sound with rings := rings, agent := ⟨held.1, held.2, some_ready, ready⟩ }

theorem Sound.leave (sound : n.Sound pos src owner) {nf : Nf}
    (left : n.nf.next .leave = some nf) : Sound { n with nf := nf } pos src owner := by
  have held := sound.agent
  cases stage : n.nf.agent with
  | idle => simp only [Nf.next, stage, reduceCtorEq] at left
  | moved rcache => simp only [Nf.next, stage, reduceCtorEq] at left
  | looked rcache =>
    rw [stage] at held
    simp only [Nf.next, stage] at left
    obtain rfl := some_inj.mp left
    exact { sound with rings := sound.rings.leave, agent := ⟨held.1, held.2.1⟩ }

theorem mcaTransfer_one {sn : Node} (one : sn.cnt = 1) (rn : Node) :
    mcaTransfer sn rn =
      ([.packet 0, .copy (rn.pkts 0).pkt (sn.pkts 0).pkt (sn.pkts 0).pktLen],
        some { transferMeta sn { rn with deadline := sn.deadline, arrive := sn.arrive } 0 with
          cnt := 1
          state := .recvReady }) := by
  unfold mcaTransfer
  rw [one]
  rfl

theorem readPacket_copy {memory memory' : Memory} {dst src : Buffer} {len : Int32} (port : Int32)
    (positive : 0 ≤ len.toInt) (copied : runCopy memory (.copy dst src len) = some memory') :
    readPacket memory' ⟨dst, len, port⟩ = readPacket memory ⟨src, len, port⟩ ∧
      ∀ other, other ≠ dst → memory' other = memory other := by
  simp only [runCopy] at copied
  split_ifs at copied with fits
  obtain rfl := some_inj.mp copied
  have size : copySize len = len.toInt.toNat := by
    have high := len.toInt_lt
    unfold copySize
    omega
  constructor
  · simp only [readPacket, update_self, Packet.mk.injEq, and_true]
    apply List.map_congr_left
    intro i inside
    rw [size, if_pos (List.mem_range.mp inside)]
  · intro other different
    exact update_of_ne different _ _

theorem Sound.transfer (sound : n.Sound pos src owner) (transferred : n.transfer = some n') :
    n'.Sound pos src owner := by
  unfold Net.transfer at transferred
  split at transferred
  · next rcache looked =>
    obtain ⟨memory, copied, rest⟩ := bind_eq_some_iff.mp transferred
    obtain ⟨nf, stepped, done⟩ := bind_eq_some_iff.mp rest
    obtain rfl := some_inj.mp done
    have held := sound.agent
    rw [looked] at held
    obtain ⟨unreleased, same, below, state, one, ⟨id, pointer, owned, positive, fits⟩, packet⟩ :=
      held
    have agent := sound.rings.agent
    rw [looked] at agent
    obtain ⟨room, buffers, index⟩ := agent
    have transfer := mcaTransfer_one one rcache
    rw [transfer] at copied
    have copied : runCopy n.memory
        (.copy (rcache.pkts 0).pkt (n.scache.pkts 0).pkt (n.scache.pkts 0).pktLen) =
          some memory := by
      simpa [List.foldlM, runCopy] using copied
    rw [buffers 0] at copied
    obtain ⟨contents, others⟩ := readPacket_copy (n.scache.pkts 0).port positive copied
    simp only [Nf.next, looked, transfer, map_some] at stepped
    split_ifs at stepped with counts
    obtain rfl := some_inj.mp stepped
    have rings := sound.rings.transfer looked counts (by rw [transfer])
    have sameMbuf : ∀ id, memory (.mbuf id) = n.memory (.mbuf id) := fun id =>
      others _ (nodeBuffer_ne_mbuf _ _ _).symm
    have order := sound.rings.input.consumed_from
    have limit := sound.rings.input.room
    refine { sound with rings := rings, source := ?_, agent := ?_, input := ?_ }
    · refine sound.source.imp (fun _ _ _ _ done => done) (fun position cell _ _ ready => ?_)
        (fun _ _ free => free)
      have framed := ready.frame (fun _ owned => owned) (fun id _ => sameMbuf id) []
      rwa [List.append_nil] at framed
    · refine ⟨⟨rfl, ?_, ?_⟩, .inl ⟨unreleased, same, below⟩⟩
      · exact (transferMeta_pkt _ _ 0 0).trans (buffers 0)
      · rw [same, packet]
        simp only [transferMeta, update_self]
        rw [buffers 0]
        exact congrArg some contents.symm
    · refine sound.input.imp fun position cell low high holds => ?_
      have framed := holds.frame (others _ ?_) []
      · rwa [List.append_nil] at framed
      · intro equal
        exact cell_ne pos.head (by omega) (by omega) (by omega) room (by omega)
          (nodeBuffer_zero_inj equal)
  · cases transferred

theorem Sound.release (sound : n.Sound pos src owner) (released : n.release = some n') :
    ∃ src', n'.Sound pos src' owner := by
  unfold Net.release at released
  split at released
  · next rcache moved =>
    split_ifs at released with already
    obtain rfl := some_inj.mp released
    have held := sound.agent
    rw [moved] at held
    obtain ⟨filled, ⟨_, same, below⟩ | ⟨done, _⟩⟩ := held
    · obtain ⟨_, one, owned, _⟩ := sound.source.ready src.mca le_rfl below
      refine ⟨{ src with mca := src.mca + 1 },
        { sound with source := ?_, sourceMca := ?_, agent := ?_ }⟩
      · change Cycle _ (n.source.setState n.source.mcaHead .sentDone).nodes _ _ _ _ _ _
        unfold Ring.setState
        rw [n.source.setNode_ofNat sound.sourceMca, n.source.node_ofNat sound.sourceMca]
        exact sound.source.consume below ⟨rfl, one, owned⟩
      · change n.source.mcaHead + 1 = _
        rw [sound.sourceMca, ofNat_succ]
      · change AgentHolds _ _ _ _ n.nf.agent
        rw [moved]
        exact ⟨filled, .inr ⟨rfl, by rw [same]⟩⟩
    · exact absurd done already
  · cases released

theorem Sound.store (sound : n.Sound pos src owner) (stored : n.store = some n') :
    ∃ pos', n'.Sound pos' src owner := by
  unfold Net.store at stored
  simp only at stored
  split_ifs at stored with released
  obtain ⟨nf, stepped, rfl⟩ := map_eq_some_iff.mp stored
  have held := sound.agent
  cases stage : n.nf.agent with
  | idle => simp only [Nf.next, stage, reduceCtorEq] at stepped
  | looked rcache => simp only [Nf.next, stage, reduceCtorEq] at stepped
  | moved rcache =>
    rw [stage] at held
    simp only [Nf.next, stage] at stepped
    obtain rfl := some_inj.mp stepped
    obtain ⟨filled, ⟨unreleased, _⟩ | ⟨_, ahead⟩⟩ := held
    · rw [released] at unreleased
      cases unreleased
    · have agent := sound.rings.agent
      rw [stage] at agent
      have order := sound.rings.input.consumed_from
      refine ⟨{ pos with free := pos.free + 1 }, { sound with
        rings := sound.rings.store stage _
        agent := ⟨rfl, ahead⟩
        input := ?_ }⟩
      change Covers _ (n.nf.input.setNode n.nf.input.freeHead rcache).nodes _ _ _
      rw [n.nf.input.setNode_ofNat sound.rings.inputFree]
      exact sound.input.push (by have := agent.1; omega) filled

end Net

end Composite.Eos
