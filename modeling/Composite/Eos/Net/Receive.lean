import Composite.Eos.Net.Invariant

/-!
# The steps of the receive core

The card delivers a packet, the core collects a node of the source ring, and it sends a packet
to the ring.  A packet that finds its node taken stays in the cache of the ring, and is sent
with the next one.
-/

namespace Composite.Eos

open Window Function Option List

namespace Net

variable {n n' : Net} {pos : Positions} {src : SourcePositions} {owner : Nat → Option Nat}

theorem init_sound : init.Sound ⟨0, 0, 0, 0, 0⟩ ⟨0, 0, 0⟩ (fun _ => none) := by
  have free : Covers eosRingSize init.source.nodes 0 (0 + eosRingSize) SourceFree := by
    intro position _ _
    rfl
  exact {
    rings := Nf.init_sound
    source := ⟨le_rfl, le_rfl, Nat.zero_le _, .empty _ _ _, .empty _ _ _, free⟩
    sourceHead := rfl
    sourceMca := rfl
    sourceTail := rfl
    cached := ⟨rfl, .inl rfl⟩
    count := rfl
    agent := ⟨rfl, rfl⟩
    input := .empty _ _ _
    finished := rfl
    received := rfl
    pool := ⟨nofun, nofun, nodup_nil⟩ }

/-- The agent's hold does not depend on what the others do with other packets. -/
theorem AgentHolds.frame {owner' : Nat → Option Nat} {free : Nat} {src' : SourcePositions}
    {stage : AgentStage} (holds : n.AgentHolds owner free src stage) (more : List Packet)
    (scache : n'.scache = n.scache) (released : n'.released = n.released)
    (published : n'.published = n.published ++ more) (mca : src'.mca = src.mca)
    (tail : src.tail ≤ src'.tail)
    (sameOwner : ∀ id, owner id = some src.mca → owner' id = some src.mca)
    (sameBytes : ∀ id, owner id = some src.mca → n'.memory (.mbuf id) = n.memory (.mbuf id))
    (sameInput : ∀ rcache, stage = .moved rcache →
      n'.memory (nodeBuffer (free % eosRingSize) 0) =
        n.memory (nodeBuffer (free % eosRingSize) 0)) :
    n'.AgentHolds owner' free src' stage := by
  cases stage with
  | idle =>
    obtain ⟨unreleased, same⟩ := holds
    exact ⟨released.trans unreleased, same.trans mca.symm⟩
  | looked rcache =>
    obtain ⟨unreleased, same, below, ready⟩ := holds
    refine ⟨released.trans unreleased, same.trans mca.symm, by omega, ?_⟩
    rw [scache, published, mca]
    exact ready.frame sameOwner sameBytes more
  | moved rcache =>
    obtain ⟨filled, stage⟩ := holds
    refine ⟨?_, ?_⟩
    · rw [published]
      exact filled.frame (sameInput rcache rfl) more
    · rw [released, mca]
      rcases stage with ⟨unreleased, same, below⟩ | ⟨done, same⟩
      · exact .inl ⟨unreleased, same, by omega⟩
      · exact .inr ⟨done, same⟩

theorem Sound.arrive (sound : n.Sound pos src owner) {packet : RxPacket}
    (unused : n.used packet.mbuf = false) (contents : Nat → UInt8) :
    Sound { n with
      memory := update n.memory (.mbuf packet.mbuf) contents
      used := update n.used packet.mbuf true
      hand := n.hand ++ [packet] } pos src owner := by
  have other : ∀ id position, owner id = some position → id ≠ packet.mbuf := by
    rintro id position owned rfl
    have inUse := sound.pool.owned _ position owned
    rw [unused] at inUse
    cases inUse
  have sameBytes : ∀ id position, owner id = some position →
      update n.memory (.mbuf packet.mbuf) contents (.mbuf id) = n.memory (.mbuf id) := by
    intro id position owned
    apply update_of_ne
    intro same
    exact other id position owned (Buffer.mbuf.inj same)
  have sameInput : ∀ node, update n.memory (.mbuf packet.mbuf) contents
      (nodeBuffer node 0) = n.memory (nodeBuffer node 0) := by
    intro node
    exact update_of_ne (nodeBuffer_ne_mbuf node 0 packet.mbuf) _ _
  refine { sound with source := ?_, agent := ?_, input := ?_, pool := ?_ }
  · refine sound.source.imp (fun _ _ _ _ done => done) (fun position cell _ _ ready => ?_)
      (fun _ _ free => free)
    have framed := ready.frame (fun _ owned => owned) (fun id => sameBytes id position) []
    rwa [append_nil] at framed
  · exact sound.agent.frame [] rfl rfl (append_nil _).symm rfl le_rfl
      (fun _ owned => owned) (fun id => sameBytes id src.mca) fun _ _ => sameInput _
  · refine sound.input.imp fun position cell _ _ holds => ?_
    have framed := holds.frame (sameInput (position % eosRingSize)) []
    rwa [append_nil] at framed
  · refine ⟨fun id position owned => ?_, fun held member => ?_, ?_⟩
    · simp only [update_of_ne (other id position owned)]
      exact sound.pool.owned id position owned
    · rcases mem_append.mp member with old | new
      · obtain ⟨inUse, unowned⟩ := sound.pool.held held old
        refine ⟨?_, unowned⟩
        by_cases same : held.mbuf = packet.mbuf
        · simp only [same, update_self]
        · simp only [update_of_ne same]
          exact inUse
      · rw [mem_singleton.mp new]
        refine ⟨by simp only [update_self], ?_⟩
        rcases owned : owner packet.mbuf with _ | position
        · rfl
        · exact absurd rfl (other packet.mbuf position owned)
    · rw [map_append, nodup_append]
      refine ⟨sound.pool.distinct, pairwise_singleton _ _, ?_⟩
      rintro id inHand _ new same
      obtain ⟨held, member, rfl⟩ := mem_map.mp inHand
      rw [map_singleton, mem_singleton] at new
      have inUse := (sound.pool.held held member).1
      rw [same, new, unused] at inUse
      cases inUse

theorem Sound.rxCollect (sound : n.Sound pos src owner) :
    ∃ src' owner', n.rxCollect.Sound pos src' owner' := by
  unfold Net.rxCollect ninfPktCollect
  rw [n.source.node_ofNat sound.sourceHead]
  simp only
  split_ifs with state
  · have some_done : src.head < src.mca := by
      apply sound.source.done_of_cell (by decide)
      · rintro ⟨isReady, _⟩
        rw [state] at isReady
        cases isReady
      · intro isFree
        rw [SourceFree, state] at isFree
        cases isFree
    obtain ⟨_, count, id, pointer, owned, _⟩ := sound.source.done src.head le_rfl some_done
    have kept : ∀ position, position ≠ src.head → ∀ other, owner other = some position →
        update owner id none other = some position := by
      intro position different other otherOwned
      rw [update_of_ne]
      · exact otherOwned
      · rintro rfl
        rw [owned] at otherOwned
        exact different (some_inj.mp otherOwned).symm
    have freed : (List.range (n.source.nodes (src.head % eosRingSize)).cnt.toNat).map
        (fun i => ((n.source.nodes (src.head % eosRingSize)).pkts i).pkt) = [.mbuf id] := by
      rw [count]
      simp [pointer]
    have order := sound.source.produced_from
    refine ⟨{ src with head := src.head + 1 }, update owner id none, { sound with
      source := ?_
      sourceHead := ?_
      cached := ?_
      agent := ?_
      pool := ?_ }⟩
    · change Cycle _ (n.source.setState n.source.head .empty).nodes _ _ _ _ _ _
      unfold Ring.setState
      rw [n.source.setNode_ofNat sound.sourceHead]
      have emptied : SourceFree (src.head + eosRingSize)
          { n.source.node n.source.head with state := .empty } := rfl
      refine (sound.source.release some_done emptied).imp (fun position cell low _ done => ?_)
        (fun position cell low _ ready => ?_) (fun _ _ free => free)
      · exact ⟨done.1, done.2.1, done.2.2.owner_frame (kept position (by omega))⟩
      · have framed := ready.frame (kept position (by omega)) (fun _ _ => rfl) []
        rwa [append_nil] at framed
    · change n.source.head + 1 = _
      rw [sound.sourceHead, ofNat_succ]
    · obtain ⟨cachedState, none_cached | ⟨one_cached, held⟩⟩ := sound.cached
      · exact ⟨cachedState, .inl none_cached⟩
      · exact ⟨cachedState, .inr ⟨one_cached, held.owner_frame (kept src.tail (by omega))⟩⟩
    · exact sound.agent.frame [] rfl rfl (append_nil _).symm rfl le_rfl
        (kept src.mca (by omega)) (fun _ _ => rfl) fun _ _ => rfl
    · rw [freed]
      refine ⟨fun other position otherOwned => ?_, fun held member => ?_, sound.pool.distinct⟩
      · by_cases same : other = id
        · rw [same, update_self] at otherOwned
          cases otherOwned
        · rw [update_of_ne same] at otherOwned
          simp [sound.pool.owned other position otherOwned, same]
      · obtain ⟨inUse, unowned⟩ := sound.pool.held held member
        have different : held.mbuf ≠ id := by
          rintro rfl
          rw [owned] at unowned
          cases unowned
        refine ⟨by simp [inUse, different], ?_⟩
        rw [update_of_ne different]
        exact unowned
  · refine ⟨src, owner, { sound with pool := ?_ }⟩
    simpa using sound.pool

/-! Sending. -/

theorem AgentHolds.free_le {free : Nat} {stage : AgentStage}
    (holds : n.AgentHolds owner free src stage) : free ≤ src.mca := by
  cases stage with
  | idle => exact Nat.le_of_eq holds.2
  | looked rcache => exact Nat.le_of_eq holds.2.1
  | moved rcache =>
    rcases holds.2 with ⟨_, same, _⟩ | ⟨_, same⟩
    · omega
    · omega

theorem Sound.setCached (sound : n.Sound pos src owner) (cached : Node)
    (state : cached.state = n.source.cached.state) (index : cached.idx = n.source.cached.idx)
    (packets : cached.pkts = n.source.cached.pkts) :
    Sound { n with source := { n.source with cached := cached } } pos src owner := by
  refine { sound with cached := ?_, agent := ?_ }
  · simp only [RxCached, state, index, packets]
    exact sound.cached
  · exact sound.agent.frame [] rfl rfl (append_nil _).symm rfl le_rfl
      (fun _ owned => owned) (fun _ _ => rfl) fun _ _ => rfl

theorem Sound.cachePkt (sound : n.Sound pos src owner) {packet : RxPacket}
    {rest : List RxPacket} (hand : n.hand = packet :: rest)
    (length : packet.len.toNat ≤ eosPktMaxSz) (empty : n.source.cached.idx = 0) :
    Sound { n with
      source := Eos.cachePkt n.source
        ⟨.mbuf packet.mbuf, Int32.ofNat packet.len.toNat, packet.port⟩
      hand := rest } pos src (update owner packet.mbuf (some src.tail)) := by
  have unowned : owner packet.mbuf = none := by
    refine (sound.pool.held packet ?_).2
    rw [hand]
    exact mem_cons_self ..
  have kept : ∀ position id, owner id = some position →
      update owner packet.mbuf (some src.tail) id = some position := by
    intro position id owned
    rw [update_of_ne]
    · exact owned
    · rintro rfl
      rw [unowned] at owned
      cases owned
  refine { sound with source := ?_, cached := ?_, agent := ?_, pool := ?_ }
  · refine sound.source.imp (fun position cell _ _ done => ?_) (fun position cell _ _ ready => ?_)
      (fun _ _ free => free)
    · exact ⟨done.1, done.2.1, done.2.2.owner_frame (kept position)⟩
    · have framed := ready.frame (kept position) (fun _ _ => rfl) []
      rwa [append_nil] at framed
  · refine ⟨sound.cached.1, .inr ⟨?_, packet.mbuf, ?_⟩⟩
    · simp only [Eos.cachePkt, Node.push, empty]
      rfl
    · have value : (Int32.ofNat packet.len.toNat).toInt = packet.len.toNat := by
        apply Int32.toInt_ofNat_of_lt
        simp only [eosPktMaxSz] at length
        omega
      simp only [Eos.cachePkt, Node.push, empty, Int.toNat_zero, update_self, value]
      exact ⟨trivial, trivial, by omega, length⟩
  · exact sound.agent.frame [] rfl rfl (append_nil _).symm rfl le_rfl
      (kept src.mca) (fun _ _ => rfl) fun _ _ => rfl
  · have distinct := sound.pool.distinct
    rw [hand, map_cons, nodup_cons] at distinct
    refine ⟨fun id position owned => ?_, fun held member => ?_, distinct.2⟩
    · by_cases same : id = packet.mbuf
      · rw [same]
        refine (sound.pool.held packet ?_).1
        rw [hand]
        exact mem_cons_self ..
      · rw [update_of_ne same] at owned
        exact sound.pool.owned id position owned
    · have old := sound.pool.held held (by rw [hand]; exact mem_cons_of_mem _ member)
      refine ⟨old.1, ?_⟩
      rw [update_of_ne]
      · exact old.2
      · intro same
        exact distinct.1 (same ▸ mem_map_of_mem member)

/-- The cached packet is published. -/
theorem Sound.flush (sound : n.Sound pos src owner) (one : n.source.cached.cnt = 1)
    (full : n.source.cached.idx = 1)
    (empty : (n.source.node n.source.tail).state = .empty) :
    Sound { n with
      source := (flushTail n.source).2
      published := n.published ++ [readPacket n.memory (n.source.cached.pkts 0)] }
      pos { src with tail := src.tail + 1 } owner := by
  rw [n.source.node_ofNat sound.sourceTail] at empty
  have room : src.tail < src.head + eosRingSize := by
    apply sound.source.room_of_cell (by decide)
    · rintro ⟨isDone, _⟩
      rw [empty] at isDone
      cases isDone
    · rintro ⟨isReady, _⟩
      rw [empty] at isReady
      cases isReady
  have flushed := Nf.flushTail_of_empty (r := n.source)
    (by rw [n.source.node_ofNat sound.sourceTail]; exact empty)
  obtain ⟨cachedState, none_cached | ⟨_, held⟩⟩ := sound.cached
  · rw [full] at none_cached
    cases none_cached
  have order := sound.source.produced_from
  have behind := sound.agent.free_le
  have inputOrder := sound.rings.input.produced_from
  rw [flushed]
  refine { sound with
    source := ?_
    sourceTail := ?_
    cached := ⟨cachedState, .inl rfl⟩
    count := ?_
    agent := ?_
    input := ?_
    received := ?_ }
  · change Cycle _ (n.source.setNode n.source.tail _).nodes _ _ _ _ _ _
    rw [n.source.setNode_ofNat sound.sourceTail]
    have more := sound.source.imp (fun _ _ _ _ done => done)
      (fun position cell _ _ ready => ready.frame (fun _ owned => owned) (fun _ _ => rfl)
        [readPacket n.memory (n.source.cached.pkts 0)]) (fun _ _ free => free)
    refine more.produce room ⟨cachedState, one, held, ?_⟩
    rw [List.getElem?_append_right (Nat.le_of_eq sound.count), sound.count, Nat.sub_self]
    rfl
  · change n.source.tail + 1 = _
    rw [sound.sourceTail, ofNat_succ]
  · simp only [length_append, sound.count, length_singleton]
  · exact sound.agent.frame _ rfl rfl rfl rfl (Nat.le_succ _) (fun _ owned => owned)
      (fun _ _ => rfl) fun _ _ => rfl
  · exact sound.input.imp fun position cell _ _ holds => holds.frame rfl _
  · simp only
    rw [take_append_of_le_length (by rw [sound.count]; omega)]
    exact sound.received

theorem flushTail_cases (r : Ring) :
    (r.node r.tail).state = .empty ∧ (flushTail r).1 = 0 ∨
      (flushTail r).1 ≠ 0 ∧ (flushTail r).2 = r := by
  unfold flushTail
  split
  · next empty => exact .inl ⟨empty, rfl⟩
  · exact .inr ⟨show -ecollet ≠ 0 by decide, rfl⟩
  · exact .inr ⟨show -eblock ≠ 0 by decide, rfl⟩

theorem eosPktSendTest_fresh {r : Ring} (one : r.cached.cnt = 1) (empty : r.cached.idx = 0)
    (m : PktMeta) (deadline arrive : Nat) :
    eosPktSendTest r m deadline arrive =
      some (0, (flushTail (Eos.cachePkt
        { r with cached := { r.cached with deadline := deadline, arrive := arrive } } m)).2) := by
  unfold eosPktSendTest
  simp only
  rw [if_neg (by omega), if_pos (by simp only [Eos.cachePkt, Node.push]; omega)]
  unfold eosPktSendFlush
  rw [if_neg (by simp only [Eos.cachePkt, Node.push, eosPktPerEntry]; omega),
    if_neg (by simp only [Eos.cachePkt, Node.push]; omega),
    if_neg (by simp only [Eos.cachePkt, Node.push]; omega)]
  rfl

theorem eosPktSendTest_pending {r : Ring} (one : r.cached.cnt = 1) (full : r.cached.idx = 1)
    (m : PktMeta) (deadline arrive : Nat) :
    eosPktSendTest r m deadline arrive =
      let timed := { r with cached := { r.cached with deadline := deadline, arrive := arrive } }
      if (flushTail timed).1 = 0 then some (0, Eos.cachePkt (flushTail timed).2 m)
      else some (flushTail timed) := by
  unfold eosPktSendTest
  simp only
  rw [if_pos (by omega)]
  unfold eosPktSendFlush
  rw [if_neg (by simp only [eosPktPerEntry]; omega), if_neg (by simp only; omega),
    if_neg (by simp only; omega)]
  simp only [bind_eq_bind, bind_some]
  rcases flushTail_cases
      { r with cached := { r.cached with deadline := deadline, arrive := arrive } } with
    ⟨empty, zero⟩ | ⟨failed, _⟩
  · rw [if_neg (not_not.mpr zero), if_pos zero, Nf.flushTail_of_empty empty]
    simp only [Eos.cachePkt, Node.push]
    rfl
  · rw [if_pos failed, if_neg failed]

theorem publishedBy_flush (memory : Memory) {before r : Ring} (tail : r.tail = before.tail)
    (one : r.cached.cnt = 1) (empty : (r.node r.tail).state = .empty) :
    publishedBy memory before (flushTail r).2 = [readPacket memory (r.cached.pkts 0)] := by
  have moved : r.tail + 1 ≠ r.tail := by simp
  rw [Nf.flushTail_of_empty empty]
  unfold publishedBy
  simp only
  rw [← tail, if_neg moved]
  simp only [Ring.node, Ring.setNode, update_self, readNode, one]
  rfl

theorem publishedBy_same (memory : Memory) {before after : Ring}
    (tail : after.tail = before.tail) : publishedBy memory before after = [] :=
  if_pos tail

theorem rxSend_cases {deadline arrive : Nat} (sent : n.rxSend deadline arrive = some n') :
    ∃ packet rest ret source, n.hand = packet :: rest ∧
      (packet.len.toNat : Int) ≤ eosPktMaxSz ∧
      eosPktSendTest { n.source with cached := { n.source.cached with cnt := 1 } }
        ⟨.mbuf packet.mbuf, Int32.ofNat packet.len.toNat, packet.port⟩ deadline arrive =
          some (ret, source) ∧
      (ret = 0 ∧ n' = { n with
          source := source
          hand := rest
          published := n.published ++ publishedBy n.memory n.source source } ∨
        ret ≠ 0 ∧ n' = { n with source := source }) := by
  unfold Net.rxSend at sent
  split at sent
  · cases sent
  · next packet rest hand =>
    simp only at sent
    split_ifs at sent with long
    split at sent
    · cases sent
    · next ret source called =>
      refine ⟨packet, rest, ret, source, hand, Int.not_lt.mp long, called, ?_⟩
      split_ifs at sent with zero retry
      · exact .inl ⟨zero, (some_inj.mp sent).symm⟩
      · exact .inr ⟨zero, (some_inj.mp sent).symm⟩

theorem Sound.rxSend (sound : n.Sound pos src owner) {deadline arrive : Nat}
    (sent : n.rxSend deadline arrive = some n') : ∃ src' owner', n'.Sound pos src' owner' := by
  obtain ⟨packet, rest, ret, source, hand, length, called, outcome⟩ := rxSend_cases sent
  have timed := sound.setCached
    { n.source.cached with cnt := 1, deadline := deadline, arrive := arrive } rfl rfl rfl
  obtain ⟨ring, isRing⟩ : ∃ ring, ring = { n.source with
      cached := { n.source.cached with cnt := 1, deadline := deadline, arrive := arrive } } :=
    ⟨_, rfl⟩
  have tail : ring.tail = n.source.tail := by rw [isRing]
  have one : ring.cached.cnt = 1 := by rw [isRing]
  have index : ring.cached.idx = n.source.cached.idx := by rw [isRing]
  have sent₁ : Sound { n with source := ring } pos src owner := isRing ▸ timed
  rcases sound.cached.2 with fresh | ⟨pending, _⟩
  · rw [eosPktSendTest_fresh (by rfl) (by exact fresh)] at called
    simp only [some.injEq, Prod.mk.injEq] at called
    obtain ⟨rfl, published⟩ := called
    rw [← isRing] at published
    obtain ⟨_, rfl⟩ | ⟨failed, _⟩ := outcome
    · have cached := sent₁.cachePkt hand length (index.trans fresh)
      rcases flushTail_cases (Eos.cachePkt ring
          ⟨.mbuf packet.mbuf, Int32.ofNat packet.len.toNat, packet.port⟩) with
        ⟨empty, _⟩ | ⟨_, unchanged⟩
      · have full : (ring.cached.push
            ⟨.mbuf packet.mbuf, Int32.ofNat packet.len.toNat, packet.port⟩).idx = 1 := by
          simp only [Node.push, index, fresh]
          rfl
        refine ⟨{ src with tail := src.tail + 1 },
          update owner packet.mbuf (some src.tail), ?_⟩
        rw [← published, publishedBy_flush n.memory (r := Eos.cachePkt ring _) tail one empty]
        exact cached.flush one full empty
      · refine ⟨src, update owner packet.mbuf (some src.tail), ?_⟩
        rw [← published, unchanged,
          publishedBy_same n.memory (show (Eos.cachePkt ring _).tail = _ from tail), append_nil]
        exact cached
    · exact absurd rfl failed
  · rw [eosPktSendTest_pending (by rfl) (by exact pending)] at called
    simp only [← isRing] at called
    rcases flushTail_cases ring with ⟨empty, zero⟩ | ⟨failed, unchanged⟩
    · rw [if_pos zero] at called
      simp only [some.injEq, Prod.mk.injEq] at called
      obtain ⟨rfl, published⟩ := called
      obtain ⟨_, rfl⟩ | ⟨failed, _⟩ := outcome
      · have flushed := sent₁.flush one (index.trans pending) empty
        have emptied : (flushTail ring).2.cached.idx = 0 := by
          rw [Nf.flushTail_of_empty empty]
        refine ⟨{ src with tail := src.tail + 1 },
          update owner packet.mbuf (some (src.tail + 1)), ?_⟩
        have first := publishedBy_flush n.memory tail one empty
        rw [← published, show publishedBy n.memory n.source (Eos.cachePkt (flushTail ring).2
          ⟨.mbuf packet.mbuf, Int32.ofNat packet.len.toNat, packet.port⟩) = _ from first]
        exact flushed.cachePkt hand length emptied
      · exact absurd rfl failed
    · rw [if_neg failed] at called
      obtain ⟨zero, _⟩ | ⟨_, rfl⟩ := outcome
      · exact absurd ((congrArg Prod.fst (some_inj.mp called)).trans zero) failed
      · refine ⟨src, owner, ?_⟩
        rw [← show (flushTail ring).2 = source from congrArg Prod.snd (some_inj.mp called),
          unchanged]
        exact sent₁

end Net

end Composite.Eos
