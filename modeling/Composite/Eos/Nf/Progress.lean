import Composite.Eos.Nf.Rings

/-!
# A function that keeps up

When all rings are empty, a node comes in, its packet is received and sent, the node leaves the
output ring and is collected, and the rings are empty again one position further.
-/

namespace Composite.Eos

open Transition Window

def onePacket : Node :=
  { Node.zero with cnt := 1, pkts := fun j => ⟨.mbuf j, 64, 0⟩, state := .sentReady }

theorem mcaTransfer_onePacket (rn : Node) :
    ∃ n, (mcaTransfer onePacket rn).2 = some n ∧ n.cnt = 1 ∧ (n.pkts 0).pktLen = 64 := by
  refine ⟨_, rfl, rfl, ?_⟩
  rfl

namespace Nf

/-- No party holds a node, and the rings are empty at position `p`. -/
structure Quiet (f : Nf) (p : Nat) : Prop where
  sound : f.Sound ⟨p, p, p, p, p⟩
  idle : f.agent = .idle
  unposted : f.posted = none

structure Filled (f : Nf) (p : Nat) : Prop where
  sound : f.Sound ⟨p, p, p + 1, p, p⟩
  idle : f.agent = .idle
  unposted : f.posted = none
  one : (f.input.nodes (p % eosRingSize)).cnt = 1
  len : ((f.input.nodes (p % eosRingSize)).pkts 0).pktLen ≠ 0

structure Received (f : Nf) (p : Nat) : Prop where
  sound : f.Sound ⟨p, p + 1, p + 1, p, p⟩
  idle : f.agent = .idle
  unposted : f.posted = none
  finished : f.input.cached.cnt = f.input.cached.idx
  one_todo : ∃ pkt, f.todo = [pkt]

variable {f : Nf} {p : Nat}

theorem init_quiet : init.Quiet 0 := ⟨init_sound, rfl, rfl⟩

theorem lt_ringSize (p : Nat) : p < p + eosRingSize := Nat.lt_add_of_pos_right (by decide)

theorem Quiet.fill (quiet : f.Quiet p) :
    ∃ f₁, exec next f [.look, .transfer onePacket] = some f₁ ∧
      ∃ f₂, f₁.next (.store 1) = some f₂ ∧ f₂.Filled p := by
  obtain ⟨sound, idle, unposted⟩ := quiet
  obtain ⟨_, state, _, count⟩ := sound.input.free p (Nat.le_refl _) (lt_ringSize p)
  obtain ⟨n, filled, cnt, len⟩ := mcaTransfer_onePacket (f.input.nodes (p % eosRingSize))
  have look : f.next .look =
      some { f with agent := .looked (f.input.nodes (p % eosRingSize)) } := by
    simp only [next, idle, agentLook]
    rw [f.input.node_ofNat sound.inputFree]
    simp only [state, count, ne_eq, not_true_eq_false, if_false]
  have transfer : next { f with agent := .looked (f.input.nodes (p % eosRingSize)) }
      (.transfer onePacket) = some { f with agent := .moved n } := by
    simp only [next, filled, Option.map_some]
    exact if_pos (by decide)
  have looked := sound.look (show f.agentLook = _ by simpa only [next, idle] using look)
  have moved := looked.transfer rfl (by decide) filled
  refine ⟨{ f with agent := .moved n }, ?_, _, rfl, moved.store rfl 1, rfl, unposted, ?_, ?_⟩
  · simp only [exec, look, transfer, Option.bind_some]
  all_goals
    simp only [agentStore]
    rw [f.input.setNode_ofNat sound.inputFree, Function.update_self]
  · exact cnt
  · rw [len]
    decide

theorem Filled.recv (full : f.Filled p) :
    ∃ m input output, eosPktRecv f.input f.output = some (0, some m, input, output) ∧
      Received { f with input := input, output := output, todo := f.todo ++ [m.pkt] } p := by
  obtain ⟨sound, idle, unposted, one, len⟩ := full
  obtain ⟨buffers, state, index, _⟩ := sound.input.ready p (Nat.le_refl _) (Nat.lt_succ_self p)
  obtain ⟨finished, noCount, noPacket, nothing⟩ : f.input.cached.cnt = f.input.cached.idx ∧
      f.output.cached.cnt = 0 ∧ f.output.cached.idx = 0 ∧ f.todo = [] := by
    rcases sound.cache with ⟨_, noCount, noPacket, finished, nothing⟩ | ⟨_, _, _, ahead⟩
    · exact ⟨finished, noCount, noPacket, nothing⟩
    · simp only at ahead
      omega
  obtain ⟨input, output, opened, cached⟩ :=
    sound.recvSlow_ready finished noCount noPacket (Nat.lt_succ_self p)
  rcases sound.recvSlow opened with ⟨failed, _⟩ | ⟨_, unread, _, after⟩
  · exact absurd rfl failed
  · have pointer : (input.cached.pkts 0).pkt ≠ .null := by
      rw [cached, buffers 0]
      exact nodeBuffer_ne_null (by decide)
    have first : Eos.nextPkt input = some (input.cached.pkts 0,
        { input with cached := { input.cached with idx := 1 } }) := by
      unfold Eos.nextPkt
      rw [cached] at pointer ⊢
      simp only [index, Int.toNat_zero, pointer, len, or_self, if_false]
      rfl
    refine ⟨_, _, output, ?_, after.nextPkt unread first, idle, unposted, ?_, ?_⟩
    · unfold eosPktRecv
      rw [if_pos finished, opened]
      simp only [Option.bind_eq_bind, Option.bind_some, first]
      rfl
    · simp only [cached]
      exact one
    · rw [nothing]
      exact ⟨_, rfl⟩

theorem Sound.take_ready {pos : Positions} (sound : f.Sound pos) (unposted : f.posted = none)
    (some_ready : pos.taken < pos.sent) :
    ∃ f', f.next .take = some f' ∧ f'.Sound { pos with taken := pos.taken + 1 } ∧
      f'.agent = f.agent ∧ f'.posted = none ∧
      (f'.output.nodes (pos.taken % eosRingSize)).state = .sentDone := by
  obtain ⟨_, state, positive, _⟩ := sound.output.ready pos.taken (Nat.le_refl _) some_ready
  simp only [cells] at state positive
  have taken : f.take = some { f with
      output := { f.output.setState f.output.mcaHead .sentDone with
        mcaHead := f.output.mcaHead + 1
        pktCnt := f.output.pktCnt - (f.output.nodes (pos.taken % eosRingSize)).cnt } } := by
    unfold Nf.take
    simp only [f.output.node_ofNat sound.outputTaken]
    rw [if_neg (not_not.mpr state), if_neg (by omega)]
  have marked : ((f.output.setState f.output.mcaHead .sentDone).nodes
      (pos.taken % eosRingSize)).state = .sentDone := by
    unfold Ring.setState
    rw [f.output.setNode_ofNat sound.outputTaken, Function.update_self]
  have step : f.next .take = f.take := by
    simp only [next, unposted]
  refine ⟨_, step.trans taken, ?_, rfl, unposted, marked⟩
  rcases sound.take unposted taken with same | after
  · have unchanged := congrArg (fun g => (g.output.nodes (pos.taken % eosRingSize)).state) same
    simp only [state, marked] at unchanged
    cases unchanged
  · exact after

theorem Received.reply (received : f.Received p) :
    ∃ f', exec next f [.send 64 0, .take, .collect] = some f' ∧ f'.Quiet (p + 1) := by
  obtain ⟨sound, idle, unposted, finished, pkt, first⟩ := received
  obtain ⟨output, returned, sent, sentOne⟩ := sound.send first 64 0
  have send : f.next (.send 64 0) = some { f with output := output, todo := [] } := by
    simp only [next, Nf.send, first, returned]
    rfl
  -- the node had one packet, so that it is flushed
  obtain rfl : sent = p + 1 := by
    rcases sentOne.cache with ⟨same, _⟩ | ⟨_, _, _, _, receivedCount, receivedIndex, _, _, order, _,
      unfinished, _, _, _, pending⟩
    · exact same.symm
    · have none_left := congrArg List.length pending
      simp only [List.length_nil, List.length_map, List.length_range'] at none_left
      simp only at receivedCount receivedIndex
      omega
  obtain ⟨f₁, take, tookOne, stillIdle, stillUnposted, done⟩ :=
    sentOne.take_ready unposted (Nat.lt_succ_self p)
  obtain ⟨_, received⟩ := tookOne.input.done p (Nat.le_refl _) (Nat.lt_succ_self p)
  have ready : collectable f₁.input f₁.output := by
    apply decide_eq_true
    rw [f₁.input.node_ofNat tookOne.inputHead, f₁.output.node_ofNat tookOne.outputHead]
    exact ⟨.inr received, done⟩
  obtain ⟨input, output', collected, after⟩ := tookOne.collect ready
  refine ⟨{ f₁ with input := input, output := output' }, ?_, after, stillIdle.trans idle,
    stillUnposted⟩
  have collect : f₁.next .collect = some { f₁ with input := input, output := output' } := by
    simp only [next, Nf.collect, ready, if_true, collected]
    rfl
  simp only [exec, send, take, collect, Option.bind_some]

theorem Quiet.recv (quiet : f.Quiet p) :
    eosPktRecv f.input f.output = some (-eblock, none, f.input, f.output) := by
  obtain ⟨sound, _, _⟩ := quiet
  obtain ⟨_, state, _⟩ := sound.input.free p (Nat.le_refl _) (lt_ringSize p)
  have finished : f.input.cached.cnt = f.input.cached.idx := by
    rcases sound.cache with ⟨_, _, _, finished, _⟩ | ⟨_, _, _, ahead⟩
    · exact finished
    · simp only at ahead
      omega
  have slow : eosPktRecvSlow f.input f.output = some (-eblock, f.input, f.output) := by
    unfold eosPktRecvSlow
    rw [if_neg (not_not.mpr finished), skipEmpty_of_ne sound.tail_slot]
    simp only [f.input.node_ofNat sound.inputTail, state]
  unfold eosPktRecv
  rw [if_pos finished, slow]
  rfl

end Nf

end Composite.Eos
