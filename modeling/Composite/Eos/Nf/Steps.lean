import Composite.Eos.Nf.Invariant

/-!
# The agent and the transmitter keep the rings of a function

One lemma for each step of the agent that fills the input ring, of the next agent, the
transmitter and the card that empty the output ring.
-/

namespace Composite.Eos

open Window Function Option

/-! One step of a party. -/

namespace Nf

variable {f f' : Nf} {pos : Positions}

theorem update_pair {Left Right : Type} (left : Nat → Left) (right : Nat → Right) (i : Nat)
    (a : Left) (b : Right) :
    (fun j => (update left i a j, update right i b j)) =
      update (fun j => (left j, right j)) i (a, b) := by
  funext j
  by_cases same : j = i
  · rw [same]
    simp only [update_self]
  · simp only [update_of_ne same]

theorem cells_setNode (f : Nf) (i : Nat) (n : Node) :
    (fun j => (update f.output.nodes i n j, f.sending j)) =
      update f.cells i (n, f.sending i) := by
  have both := update_pair f.output.nodes f.sending i n (f.sending i)
  rwa [update_eq_self] at both

theorem init_sound : init.Sound ⟨0, 0, 0, 0, 0⟩ := by
  have free : Covers eosRingSize init.input.nodes 0 (0 + eosRingSize) InputFree := by
    intro position _ below
    refine ⟨fun j => ?_, rfl, rfl, rfl⟩
    simp only [init, Ring.inputInit]
  have unsent : Covers eosRingSize init.cells 0 (0 + eosRingSize) OutputFree := by
    intro position _ below
    exact ⟨rfl, rfl⟩
  exact {
    input := ⟨le_rfl, le_rfl, Nat.zero_le _, .empty _ _ _, .empty _ _ _, free⟩
    output := ⟨le_rfl, le_rfl, Nat.zero_le _, .empty _ _ _, .empty _ _ _, unsent⟩
    inputHead := rfl
    inputTail := rfl
    inputFree := rfl
    outputHead := rfl
    outputTaken := rfl
    outputSent := rfl
    cachedState := rfl
    agent := trivial
    posted := trivial
    cache := .between rfl rfl rfl rfl rfl }

section

variable (sound : f.Sound pos)

include sound

theorem Sound.input_slot {i : Nat} (inside : i < eosRingSize) :
    (f.input.nodes i).state ≠ .empty ∧ ∀ j, ((f.input.nodes i).pkts j).pkt = nodeBuffer i j := by
  obtain ⟨position, low, high, rfl⟩ := exists_position pos.head inside
  rcases sound.input.cases low high with
    ⟨_, buffers, state⟩ | ⟨_, _, buffers, state, _⟩ | ⟨_, buffers, state, _⟩
  all_goals
    rw [state]
    exact ⟨nofun, buffers⟩

theorem Sound.tail_slot : (f.input.node f.input.tail).state ≠ .empty := by
  have inside : pos.tail % eosRingSize < eosRingSize := Nat.mod_lt _ (by decide)
  rw [f.input.node_ofNat sound.inputTail]
  exact (sound.input_slot inside).1

theorem Sound.look (looked : f.agentLook = some f') : f'.Sound pos := by
  unfold agentLook at looked
  rw [f.input.node_ofNat sound.inputFree] at looked
  simp only at looked
  split_ifs at looked with taken count
  · obtain rfl := some_inj.mp looked
    exact sound
  · obtain rfl := some_inj.mp looked
    have state : (f.input.nodes (pos.free % eosRingSize)).state = .free := not_not.mp taken
    have room : pos.free < pos.head + eosRingSize := by
      apply sound.input.room_of_cell (by decide)
      · rintro ⟨_, isDone⟩
        rw [state] at isDone
        cases isDone
      · rintro ⟨_, isReady, _⟩
        rw [state] at isReady
        cases isReady
    obtain ⟨buffers, _, index, _⟩ := sound.input.free pos.free le_rfl room
    exact { sound with agent := ⟨room, buffers, index⟩ }

theorem Sound.leave : Sound { f with agent := .idle } pos :=
  { sound with agent := trivial }

theorem Sound.transfer {scache rcache n : Node} (looked : f.agent = .looked rcache)
    (count : 1 ≤ scache.cnt ∧ scache.cnt ≤ eosPktPerEntry)
    (filled : (mcaTransfer scache rcache).2 = some n) : Sound { f with agent := .moved n } pos := by
  have held := sound.agent
  rw [looked] at held
  obtain ⟨room, buffers, index⟩ := held
  obtain ⟨cnt, idx, state, pointers⟩ := mcaTransfer_keeps filled
  refine { sound with agent := ⟨room, fun j => (pointers j).trans (buffers j), state, ?_, ?_, ?_⟩ }
  · rw [idx, index]
  · rw [cnt]
    exact count.1
  · rw [cnt]
    exact count.2

theorem Sound.store {rcache : Node} (moved : f.agent = .moved rcache) (count : Int) :
    (f.agentStore rcache count).Sound { pos with free := pos.free + 1 } := by
  have held := sound.agent
  rw [moved] at held
  obtain ⟨room, ready⟩ := held
  have stored := f.input.setNode_ofNat sound.inputFree rcache
  refine { sound with input := ?_, inputFree := ?_, agent := trivial }
  · change Cycle _ (f.input.setNode f.input.freeHead rcache).nodes _ _ _ _ _ _
    rw [stored]
    exact sound.input.produce room ready
  · change f.input.freeHead + 1 = _
    rw [sound.inputFree, ofNat_succ]

end

/-- The transmitter's node stays as it is while the others work on other nodes. -/
theorem PostedSound.frame {pos' : Positions} {posted : Option (Node × Nat)}
    (held : f.PostedSound pos posted) (taken : pos'.taken = pos.taken)
    (sent : pos.sent ≤ pos'.sent)
    (same : pos.taken < pos.sent → f'.output.nodes (pos.taken % eosRingSize) =
      f.output.nodes (pos.taken % eosRingSize)) : f'.PostedSound pos' posted := by
  cases posted with
  | none => trivial
  | some posted =>
    obtain ⟨some_ready, count, left⟩ := held
    refine ⟨by omega, count, ?_⟩
    rw [taken, same some_ready]
    exact left

section

variable (sound : f.Sound pos)

include sound

theorem Sound.ready_node (state : (f.output.nodes (pos.taken % eosRingSize)).state = .sentReady) :
    pos.taken < pos.sent := by
  apply sound.output.ready_of_cell (by decide)
  · rintro ⟨_, ⟨isDone, _⟩ | ⟨isDone, _⟩⟩
    all_goals
      simp only [cells] at isDone
      rw [state] at isDone
      cases isDone
  · rintro ⟨isFree, _⟩
    simp only [cells] at isFree
    rw [state] at isFree
    cases isFree

theorem Sound.take (posted : f.posted = none) (taken : f.take = some f') :
    f' = f ∨ f'.Sound { pos with taken := pos.taken + 1 } := by
  unfold Nf.take at taken
  rw [f.output.node_ofNat sound.outputTaken] at taken
  simp only at taken
  split_ifs at taken with other count
  · exact .inl (some_inj.mp taken).symm
  · right
    obtain rfl := some_inj.mp taken
    have some_ready := sound.ready_node (not_not.mp other)
    obtain ⟨buffers, _, _, none_sending⟩ := sound.output.ready pos.taken le_rfl some_ready
    refine { sound with output := ?_, outputTaken := ?_, posted := ?_ }
    · change Cycle _ (fun j => ((f.output.setState f.output.mcaHead .sentDone).nodes j,
        f.sending j)) _ _ _ _ _ _
      unfold Ring.setState
      rw [f.output.setNode_ofNat sound.outputTaken, f.output.node_ofNat sound.outputTaken,
        cells_setNode]
      exact sound.output.consume some_ready ⟨buffers, .inl ⟨rfl, none_sending⟩⟩
    · change f.output.mcaHead + 1 = _
      rw [sound.outputTaken, ofNat_succ]
    · change PostedSound _ _ f.posted
      rw [posted]
      trivial

theorem Sound.post : f.post.Sound pos := by
  unfold Nf.post
  rw [f.output.node_ofNat sound.outputTaken]
  simp only
  split_ifs with other
  · exact sound
  · have some_ready := sound.ready_node (not_not.mp other)
    obtain ⟨_, _, count, _⟩ := sound.output.ready pos.taken le_rfl some_ready
    refine { sound with posted := ⟨some_ready, count, ?_⟩ }
    simp only [cells] at count
    change (f.output.nodes (pos.taken % eosRingSize)).cnt = _
    omega

theorem Sound.sentEarly {scache : Node} {early : Nat}
    (posted : f.posted = some (scache, early + 1)) :
    Sound { f with
      output := cosTxCb f.output (ringIndex f.output.mcaHead)
      posted := some (scache, early) } pos := by
  have held := sound.posted
  rw [posted] at held
  obtain ⟨some_ready, count, left⟩ := held
  obtain ⟨buffers, state, positive, none_sending⟩ :=
    sound.output.ready pos.taken le_rfl some_ready
  simp only [cells] at state positive none_sending buffers
  have more : (f.output.nodes (pos.taken % eosRingSize)).cnt - 1 ≠ 0 := by omega
  rw [sound.outputTaken, ringIndex_ofNat]
  refine { sound with output := ?_, posted := ⟨some_ready, count, ?_⟩ }
  · change Cycle _ (fun j => ((cosTxCb f.output _).nodes j, f.sending j)) _ _ _ _ _ _
    unfold cosTxCb
    simp only
    rw [cells_setNode]
    apply sound.output.touch_ready le_rfl some_ready
    refine ⟨buffers, ?_, ?_, none_sending⟩
    · simp only [if_neg more, state]
    · simp only
      omega
  · simp only [cosTxCb, update_self]
    omega

theorem Sound.mark {scache : Node} {early : Nat} (posted : f.posted = some (scache, early)) :
    (f.mark scache (early + min 1 scache.cnt.toNat)).Sound
      { pos with taken := pos.taken + 1 } := by
  have held := sound.posted
  rw [posted] at held
  obtain ⟨some_ready, count, left⟩ := held
  obtain ⟨buffers, state, positive, none_sending⟩ :=
    sound.output.ready pos.taken le_rfl some_ready
  have last : min 1 scache.cnt.toNat = 1 := by omega
  have some_packet : scache.cnt ≠ 0 := by omega
  rw [last]
  refine { sound with output := ?_, outputTaken := ?_, posted := trivial }
  · unfold Nf.mark
    rw [if_pos some_packet]
    change Cycle _ (fun j => ((f.output.setState f.output.mcaHead .txing).nodes j,
      update f.sending _ _ j)) _ _ _ _ _ _
    unfold Ring.setState
    rw [f.output.setNode_ofNat sound.outputTaken, f.output.node_ofNat sound.outputTaken,
      sound.outputTaken, ringIndex_ofNat, update_pair]
    apply sound.output.consume some_ready
    refine ⟨buffers, .inr ⟨rfl, Nat.succ_ne_zero _, ?_⟩⟩
    simp only
    rw [left]
    norm_cast
  · change f.output.mcaHead + 1 = _
    rw [sound.outputTaken, ofNat_succ]

theorem Sound.sent {i : Nat} (inside : i < eosRingSize) (some_sending : f.sending i ≠ 0) :
    Sound { f with
      output := cosTxCb f.output i
      sending := update f.sending i (f.sending i - 1) } pos := by
  obtain ⟨position, low, high, rfl⟩ := exists_position pos.head inside
  have room := sound.output.room
  rcases sound.output.cases low high with
    ⟨before, buffers, ⟨_, zero⟩ | ⟨state, _, count⟩⟩ | ⟨_, _, _, _, _, zero⟩ | ⟨_, _, zero⟩
  · exact absurd zero some_sending
  · simp only [cells] at buffers state count
    refine { sound with output := ?_, posted := ?_ }
    · change Cycle _ (fun j => ((cosTxCb f.output _).nodes j, update f.sending _ _ j))
        _ _ _ _ _ _
      unfold cosTxCb
      simp only
      rw [update_pair]
      apply sound.output.touch_done low before
      refine ⟨buffers, ?_⟩
      simp only
      by_cases last : f.sending (position % eosRingSize) = 1
      · left
        rw [if_pos (by omega), last]
        exact ⟨rfl, rfl⟩
      · right
        rw [if_neg (by omega)]
        exact ⟨state, by omega, by omega⟩
    · apply sound.posted.frame rfl le_rfl
      intro some_ready
      simp only [cosTxCb]
      apply update_of_ne
      exact cell_ne pos.head sound.output.consumed_from (by omega) low high (by omega)
  · exact absurd zero some_sending
  · exact absurd zero some_sending

end

end Nf

end Composite.Eos
