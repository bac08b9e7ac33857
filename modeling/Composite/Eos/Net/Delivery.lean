import Composite.Eos.Net.Transfer

/-!
# Every packet is delivered once, in order

The function receives the nodes of the input ring in their order, and node `p` has the packet
with number `p`.
-/

namespace Composite.Eos

open Transition Window Function

namespace Net

variable {n n' : Net} {pos : Positions} {src : SourcePositions} {owner : Nat → Option Nat}

/-! The function. -/

theorem nextPkt_eq {ring after : Ring} {m : PktMeta}
    (taken : nextPkt ring = some (m, after)) :
    m = ring.cached.pkts ring.cached.idx.toNat ∧
      after = { ring with cached := { ring.cached with idx := ring.cached.idx + 1 } } := by
  unfold nextPkt at taken
  simp only at taken
  split_ifs at taken
  simp only [Option.some.injEq, Prod.mk.injEq] at taken
  exact ⟨taken.1.symm, taken.2.symm⟩

theorem Sound.recv (sound : n.Sound pos src owner) (received : n.recv = some n') :
    ∃ pos', n'.Sound pos' src owner := by
  unfold Net.recv at received
  split at received
  · cases received
  · next ret m input output returned =>
    obtain rfl := Option.some_inj.mp received
    by_cases error : ret = 0
    · obtain ⟨opened, slow, ⟨failed, _⟩ | ⟨_, packet, taken, rfl⟩⟩ := Nf.eosPktRecv_cases returned
      · exact absurd error failed
      · rw [if_pos sound.finished] at slow
        rcases sound.rings.recvSlow slow with ⟨failed, _⟩ | ⟨_, unread, isOpened, after⟩
        · exact absurd error failed
        · have order := sound.rings.input.consumed_from
          have limit := sound.rings.input.room
          obtain ⟨one, _, number⟩ := sound.input pos.tail (Nat.le_refl _) isOpened.ready
          obtain ⟨_, _, index, _⟩ := sound.rings.input.ready pos.tail (Nat.le_refl _) isOpened.ready
          rw [← isOpened.cached] at one number index
          have first := nextPkt_eq taken
          rw [index, Int.toNat_zero] at first
          refine ⟨{ pos with tail := pos.tail + 1 }, { sound with
            rings := after.nextPkt unread taken
            input := ?_
            finished := ?_
            received := ?_ }⟩
          · obtain ⟨node, nodes⟩ := isOpened.nodes
            rw [first.2]
            change Covers _ opened.nodes _ _ _
            rw [nodes]
            exact (sound.input.shrink (Nat.le_succ _) (Nat.le_refl _)).write_outside pos.head
              ⟨by omega, limit, order, by have := isOpened.ready; omega, .inl (by omega)⟩ node
          · rw [first.2, one]
            rfl
          · simp only [Option.map_some, Option.toList_some, sound.received]
            rw [first.1, List.take_add_one, number]
            rfl
    · obtain ⟨rfl, rfl, rfl, _⟩ := sound.rings.recv_error error returned
      refine ⟨pos, ?_⟩
      simpa using sound

theorem todo_buffer (rings : n.nf.Sound pos) {buffer : Buffer} (held : buffer ∈ n.nf.todo) :
    pos.tail = pos.sent + 1 ∧ ∃ j, buffer = nodeBuffer (pos.sent % eosRingSize) j := by
  rcases rings.cache with ⟨_, _, _, _, nothing⟩ |
    ⟨_, _, _, ahead, _, _, _, _, _, _, _, _, _, _, pending⟩
  · rw [nothing] at held
    cases held
  · rw [pending, List.mem_map] at held
    obtain ⟨j, _, rfl⟩ := held
    exact ⟨ahead, j, rfl⟩

theorem Sound.modify (sound : n.Sound pos src owner) {buffer : Buffer}
    (held : buffer ∈ n.nf.todo) (contents : Nat → UInt8) :
    Sound { n with memory := update n.memory buffer contents } pos src owner := by
  obtain ⟨ahead, j, rfl⟩ := todo_buffer sound.rings held
  have outputLow := sound.rings.output.consumed_from
  have outputOrder := sound.rings.output.produced_from
  have inputOrder := sound.rings.input.produced_from
  have limit := sound.rings.input.room
  have sameMbuf : ∀ id, update n.memory (nodeBuffer (pos.sent % eosRingSize) j) contents
      (.mbuf id) = n.memory (.mbuf id) := fun id =>
    update_of_ne (nodeBuffer_ne_mbuf _ _ id).symm _ _
  have sameInput : ∀ position, pos.tail ≤ position → position < pos.head + eosRingSize →
      update n.memory (nodeBuffer (pos.sent % eosRingSize) j) contents
        (nodeBuffer (position % eosRingSize) 0) =
          n.memory (nodeBuffer (position % eosRingSize) 0) := by
    intro position low high
    apply update_of_ne
    intro equal
    exact cell_ne pos.head (by omega) high (by omega) (by omega) (by omega)
      (nodeBuffer_zero_inj equal)
  refine { sound with source := ?_, agent := ?_, input := ?_ }
  · refine sound.source.imp (fun _ _ _ _ done => done) (fun position cell _ _ ready => ?_)
      (fun _ _ free => free)
    have framed := ready.frame (fun _ owned => owned) (fun id _ => sameMbuf id) []
    rwa [List.append_nil] at framed
  · refine sound.agent.frame [] rfl rfl (List.append_nil _).symm rfl (Nat.le_refl _)
      (fun _ owned => owned) (fun id _ => sameMbuf id) fun rcache moved => ?_
    have room := sound.rings.agent
    rw [moved] at room
    exact sameInput pos.free inputOrder room.1
  · refine sound.input.imp fun position cell low high holds => ?_
    have framed := holds.frame (sameInput position low (by omega)) []
    rwa [List.append_nil] at framed

theorem collectable_head {f : Nf} (rings : f.Sound pos) (ready : collectable f.input f.output) :
    pos.head < pos.tail := by
  have both := of_decide_eq_true ready
  rw [f.input.node_ofNat rings.inputHead] at both
  have inside : pos.head % eosRingSize < eosRingSize := Nat.mod_lt _ (by decide)
  apply rings.input.done_of_cell (by decide)
  · rintro ⟨_, isReady, _⟩
    rw [isReady] at both
    rcases both.1 with state | state
    · cases state
    · cases state
  · rintro ⟨_, isFree, _⟩
    rw [isFree] at both
    rcases both.1 with state | state
    · cases state
    · cases state

theorem onOutput_frame {f f' : Nf} (rings : f.Sound pos) {event : NfEvent}
    (mayStep : onOutput event) (stepped : f.next event = some f') :
    f'.agent = f.agent ∧ f'.input.cached = f.input.cached ∧
      ∀ spec, Covers eosRingSize f.input.nodes pos.tail pos.free spec →
        Covers eosRingSize f'.input.nodes pos.tail pos.free spec := by
  cases event with
  | look => cases mayStep
  | leave => cases mayStep
  | transfer => cases mayStep
  | store => cases mayStep
  | recv => cases mayStep
  | send len port =>
    simp only [Nf.next, Nf.send] at stepped
    split at stepped
    · cases stepped
    · obtain ⟨⟨ret, output⟩, _, rest⟩ := Option.bind_eq_some_iff.mp stepped
      simp only at rest
      split_ifs at rest
      obtain rfl := Option.some_inj.mp rest
      exact ⟨rfl, rfl, fun _ covers => covers⟩
  | collect =>
    simp only [Nf.next, Nf.collect] at stepped
    split_ifs at stepped with ready
    · obtain ⟨⟨input, output⟩, collected, rest⟩ := Option.bind_eq_some_iff.mp stepped
      obtain rfl := Option.some_inj.mp rest
      unfold eosPktCollectOne at collected
      simp only at collected
      split_ifs at collected
      simp only [Option.some.injEq, Prod.mk.injEq] at collected
      obtain ⟨rfl, rfl⟩ := collected
      refine ⟨rfl, rfl, fun spec covers => ?_⟩
      change Covers _ (f.input.setNode f.input.head _).nodes _ _ _
      rw [f.input.setNode_ofNat rings.inputHead]
      have below := collectable_head rings ready
      have order := rings.input.consumed_from
      exact covers.write_outside pos.head ⟨order, rings.input.room, Nat.le_refl _,
        Nat.lt_add_of_pos_right (by decide), .inl below⟩ _
    · obtain rfl := Option.some_inj.mp stepped
      exact ⟨rfl, rfl, fun _ covers => covers⟩
  | take =>
    simp only [Nf.next] at stepped
    split at stepped
    · unfold Nf.take at stepped
      simp only at stepped
      split_ifs at stepped
      all_goals
        obtain rfl := Option.some_inj.mp stepped
        exact ⟨rfl, rfl, fun _ covers => covers⟩
    · cases stepped
  | post =>
    simp only [Nf.next] at stepped
    split at stepped
    · unfold Nf.post at stepped
      simp only at stepped
      split_ifs at stepped
      all_goals
        obtain rfl := Option.some_inj.mp stepped
        exact ⟨rfl, rfl, fun _ covers => covers⟩
    · cases stepped
  | sentEarly =>
    simp only [Nf.next] at stepped
    split at stepped
    · obtain rfl := Option.some_inj.mp stepped
      exact ⟨rfl, rfl, fun _ covers => covers⟩
    · cases stepped
  | mark =>
    simp only [Nf.next] at stepped
    split at stepped
    · cases stepped
    · obtain rfl := Option.some_inj.mp stepped
      exact ⟨rfl, rfl, fun _ covers => covers⟩
  | sent node =>
    simp only [Nf.next] at stepped
    split_ifs at stepped
    obtain rfl := Option.some_inj.mp stepped
    exact ⟨rfl, rfl, fun _ covers => covers⟩

theorem Sound.onOutput (sound : n.Sound pos src owner) {event : NfEvent} {nf : Nf}
    (mayStep : onOutput event) (stepped : n.nf.next event = some nf) :
    ∃ pos', Sound { n with nf := nf } pos' src owner := by
  obtain ⟨pos', rings, same⟩ := sound.rings.step stepped
  obtain ⟨agent, cached, kept⟩ := onOutput_frame sound.rings mayStep stepped
  have other : ¬Nf.movesReady event := by
    cases event with
    | store => cases mayStep
    | recv => cases mayStep
    | _ => exact id
  obtain ⟨tail, free⟩ := same other
  refine ⟨pos', { sound with
    rings := rings
    agent := ?_
    input := ?_
    finished := ?_
    received := ?_ }⟩
  · rw [agent, free]
    exact sound.agent
  · rw [tail, free]
    exact kept _ sound.input
  · rw [cached]
    exact sound.finished
  · rw [tail]
    exact sound.received

/-! Whole runs. -/

theorem Sound.step (sound : n.Sound pos src owner) {event : NetEvent}
    (stepped : n.next event = some n') : ∃ pos' src' owner', n'.Sound pos' src' owner' := by
  cases event with
  | arrive packet contents =>
    simp only [next] at stepped
    split_ifs at stepped with inUse
    obtain rfl := Option.some_inj.mp stepped
    exact ⟨pos, src, owner, sound.arrive (Bool.not_eq_true _ ▸ inUse) contents⟩
  | rxCollect =>
    obtain rfl := Option.some_inj.mp stepped
    exact ⟨pos, sound.rxCollect⟩
  | rxSend deadline arrive => exact ⟨pos, sound.rxSend stepped⟩
  | look => exact ⟨pos, src, owner, sound.look stepped⟩
  | leave =>
    obtain ⟨nf, left, rfl⟩ := Option.map_eq_some_iff.mp stepped
    exact ⟨pos, src, owner, sound.leave left⟩
  | transfer => exact ⟨pos, src, owner, sound.transfer stepped⟩
  | release =>
    obtain ⟨src', after⟩ := sound.release stepped
    exact ⟨pos, src', owner, after⟩
  | store =>
    obtain ⟨pos', after⟩ := sound.store stepped
    exact ⟨pos', src, owner, after⟩
  | recv =>
    obtain ⟨pos', after⟩ := sound.recv stepped
    exact ⟨pos', src, owner, after⟩
  | modify buffer offset value =>
    simp only [next] at stepped
    split_ifs at stepped with mayWrite
    obtain rfl := Option.some_inj.mp stepped
    exact ⟨pos, src, owner, sound.modify mayWrite.1 _⟩
  | nf event =>
    simp only [next] at stepped
    split_ifs at stepped with mayStep
    obtain ⟨nf, moved, rfl⟩ := Option.map_eq_some_iff.mp stepped
    obtain ⟨pos', after⟩ := sound.onOutput mayStep moved
    exact ⟨pos', src, owner, after⟩

theorem reached_sound {events : List NetEvent} (reached : exec next init events = some n) :
    ∃ pos src owner, n.Sound pos src owner := by
  have kept : ∀ (n : Net) (event : NetEvent) (n' : Net),
      (∃ pos src owner, n.Sound pos src owner) → True → n.next event = some n' →
      ∃ pos src owner, n'.Sound pos src owner := by
    rintro n event n' ⟨pos, src, owner, sound⟩ _ stepped
    exact sound.step stepped
  exact exec_invariant kept ⟨_, _, _, init_sound⟩ (.of_forall (fun _ _ => trivial) _ _) reached

end Net

theorem ofNat_sub_ofNat {low high : Nat} (order : low ≤ high) (near : high ≤ low + eosRingSize) :
    (UInt32.ofNat high - UInt32.ofNat low).toNat = high - low := by
  obtain ⟨distance, rfl⟩ := Nat.exists_eq_add_of_le order
  rw [UInt32.ofNat_add, UInt32.add_comm, UInt32.add_sub_cancel, Nat.add_sub_cancel_left]
  unfold eosRingSize at near
  rw [UInt32.toNat_ofNat', Nat.mod_eq_of_lt (by omega)]

/-- In every state that is reached, the function has received the first packets that were
published, and the positions of both rings are in order modulo `2 ^ 32`. -/
theorem packets_delivered {events : List NetEvent} {n : Net}
    (reached : exec Net.next .init events = some n) :
    n.received <+: n.published ∧
    (n.source.mcaHead - n.source.head).toNat ≤ (n.source.tail - n.source.head).toNat ∧
    (n.source.tail - n.source.head).toNat ≤ eosRingSize ∧
    (n.nf.input.tail - n.nf.input.head).toNat ≤ (n.nf.input.freeHead - n.nf.input.head).toNat ∧
    (n.nf.input.freeHead - n.nf.input.head).toNat ≤ eosRingSize := by
  obtain ⟨pos, src, owner, sound⟩ := Net.reached_sound reached
  have sourceLow := sound.source.consumed_from
  have sourceOrder := sound.source.produced_from
  have sourceRoom := sound.source.room
  have inputLow := sound.rings.input.consumed_from
  have inputOrder := sound.rings.input.produced_from
  have inputRoom := sound.rings.input.room
  refine ⟨?_, ?_, ?_, ?_, ?_⟩
  · rw [sound.received]
    exact List.take_prefix _ _
  · rw [sound.sourceMca, sound.sourceHead, sound.sourceTail,
      ofNat_sub_ofNat sourceLow (by omega), ofNat_sub_ofNat (by omega) sourceRoom]
    omega
  · rw [sound.sourceHead, sound.sourceTail, ofNat_sub_ofNat (by omega) sourceRoom]
    omega
  · rw [sound.rings.inputTail, sound.rings.inputHead, sound.rings.inputFree,
      ofNat_sub_ofNat inputLow (by omega), ofNat_sub_ofNat (by omega) inputRoom]
    omega
  · rw [sound.rings.inputHead, sound.rings.inputFree, ofNat_sub_ofNat (by omega) inputRoom]
    omega

/-- One packet of two bytes arrives and is received, and its buffer goes back to the card. -/
theorem packets_delivered_one :
    ∃ n, exec Net.next .init
        [.arrive ⟨7, 2, 1⟩ (fun i => if i = 0 then 10 else 20), .rxSend 5 1, .look, .transfer,
          .release, .rxCollect, .store, .recv, .modify (.pkt 0 0) 0 99, .nf (.send 2 1)] =
        some n ∧
      n.published = [⟨[10, 20], 2, 1⟩] ∧ n.received = [⟨[10, 20], 2, 1⟩] ∧
      n.used 7 = false ∧ n.received <+: n.published := by
  have run : (exec Net.next .init
        [.arrive ⟨7, 2, 1⟩ (fun i => if i = 0 then 10 else 20), .rxSend 5 1, .look, .transfer,
          .release, .rxCollect, .store, .recv, .modify (.pkt 0 0) 0 99, .nf (.send 2 1)]).map
      (fun n => (n.published, n.received, n.used 7)) =
        some ([⟨[10, 20], 2, 1⟩], [⟨[10, 20], 2, 1⟩], false) := by
    decide +kernel
  obtain ⟨n, reached, shown⟩ := Option.map_eq_some_iff.mp run
  simp only [Prod.mk.injEq] at shown
  exact ⟨n, reached, shown.1, shown.2.1, shown.2.2, (packets_delivered reached).1⟩

end Composite.Eos
