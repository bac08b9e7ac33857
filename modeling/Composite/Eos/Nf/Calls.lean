import Composite.Eos.Nf.Steps

/-!
# The calls of a function keep its rings

Sending, receiving and collecting.
-/

namespace Composite.Eos

open Window Function Option

namespace Nf

variable {f f' : Nf} {pos : Positions} {ret : Int} {input output : Ring} {m : Option PktMeta}

/-! The calls of the function. -/

theorem flushTail_of_empty {r : Ring} (empty : (r.node r.tail).state = .empty) :
    flushTail r =
      (0, { r.setNode r.tail { r.cached with idx := 0 } with
        tail := r.tail + 1
        cached := { r.cached with idx := 0, cnt := 0 }
        pktCnt := r.pktCnt + 1 }) := by
  unfold flushTail
  rw [empty]

theorem eosPktSend_within {r : Ring} {count done : Nat} (cnt : r.cached.cnt = count)
    (idx : r.cached.idx = done) (unfinished : done < count) (fits : count ≤ eosPktPerEntry)
    (empty : (r.node r.tail).state = .empty) (m : PktMeta) :
    eosPktSend r m =
      some (0, if done + 1 = count then (flushTail (cachePkt r m)).2 else cachePkt r m) := by
  have cached : (cachePkt r m).cached.cnt = count ∧ (cachePkt r m).cached.idx = done + 1 := by
    exact ⟨cnt, congrArg (· + 1) idx⟩
  have flushed : flushTail (cachePkt r m) = (0, (flushTail (cachePkt r m)).2) := by
    rw [flushTail_of_empty
      (show ((cachePkt r m).node (cachePkt r m).tail).state = .empty from empty)]
  unfold eosPktSend
  rw [if_neg (by omega)]
  simp only [bind_eq_bind, bind_some, ne_eq, not_true_eq_false, if_false]
  by_cases last : done + 1 = count
  · rw [if_pos (by omega), if_pos last]
    unfold eosPktSendFlush
    rw [if_neg (by omega), if_neg (by omega), if_neg (by omega), flushed]
  · rw [if_neg (by omega), if_neg last]

theorem Sound.send (sound : f.Sound pos) {pkt : Buffer} {rest : List Buffer}
    (first : f.todo = pkt :: rest) (len port : Int32) :
    ∃ output, eosPktSend f.output ⟨pkt, len, port⟩ = some (0, output) ∧
      ∃ sent, Sound { f with output := output, todo := rest } { pos with sent := sent } := by
  rcases sound.cache with ⟨same, noCount, noPacket, finished, nothing⟩ |
    ⟨count, done, next, ahead, receivedCount, receivedIndex, sendingCount, sendingIndex, order,
      last, unfinished, fits, receivedBuffers, sendingBuffers, pending⟩
  · rw [nothing] at first
    cases first
  · have inputOrder := sound.input.produced_from
    have inputRoom := sound.input.room
    have outputOrder := sound.output.produced_from
    have outputLow := sound.output.consumed_from
    have space : pos.sent < pos.head + eosRingSize := by omega
    obtain ⟨empty, none_sending⟩ := sound.output.free pos.sent le_rfl space
    have slot := f.output.node_ofNat sound.outputSent
    have step := eosPktSend_within sendingCount sendingIndex unfinished fits
      (by rw [slot]; exact empty) ⟨pkt, len, port⟩
    refine ⟨_, step, ?_⟩
    -- the packet to send is the one at the index of the cache
    obtain ⟨left, more⟩ : ∃ left, next - done = left + 1 := by
      refine ⟨next - done - 1, ?_⟩
      rcases Nat.eq_zero_or_pos (next - done) with none_left | some_left
      · rw [pending, none_left] at first
        cases first
      · omega
    rw [pending, more, List.range'_succ, List.map_cons, List.cons.injEq] at first
    obtain ⟨rfl, rfl⟩ := first
    have pushed : HasBuffers pos.sent
        (f.output.cached.push ⟨nodeBuffer (pos.sent % eosRingSize) done, len, port⟩) := by
      intro j
      simp only [Node.push, sendingIndex, Int.toNat_natCast]
      by_cases here : j = done
      · rw [here, update_self]
      · rw [update_of_ne here]
        exact sendingBuffers j
    have index : (f.output.cached.push
        ⟨nodeBuffer (pos.sent % eosRingSize) done, len, port⟩).idx = (done + 1 : Nat) := by
      simp only [Node.push, sendingIndex]
      rfl
    have pendingAfter : next - (done + 1) = left := by omega
    by_cases flushes : done + 1 = count
    · rw [if_pos flushes, flushTail_of_empty (r := cachePkt f.output _)
        ((congrArg Node.state slot).trans empty)]
      refine ⟨pos.sent + 1,
        { sound with output := ?_, outputSent := ?_, posted := ?_, cache := ?_ }⟩
      · change Cycle _ (fun j => ((f.output.setNode f.output.tail _).nodes j, f.sending j))
          _ _ _ _ _ _
        rw [f.output.setNode_ofNat sound.outputSent, cells_setNode]
        refine sound.output.produce space ⟨pushed, sound.cachedState, ?_, none_sending⟩
        change 1 ≤ f.output.cached.cnt
        omega
      · change f.output.tail + 1 = _
        rw [sound.outputSent, ofNat_succ]
      · refine sound.posted.frame rfl (Nat.le_succ _) fun some_ready => ?_
        change (f.output.setNode f.output.tail _).nodes _ = _
        rw [f.output.setNode_ofNat sound.outputSent]
        apply update_of_ne
        exact cell_ne pos.head outputLow (by omega) (by omega) space (by omega)
      · have none_left : left = 0 := by omega
        refine .between (by simp only; omega) rfl rfl (by simp only; omega) ?_
        rw [none_left]
        rfl
    · rw [if_neg flushes]
      refine ⟨pos.sent, { sound with cache := ?_ }⟩
      refine .within count (done + 1) next ahead receivedCount receivedIndex sendingCount index
        (by omega) last (by omega) fits receivedBuffers pushed ?_
      rw [pendingAfter]

structure Opened (f : Nf) (pos : Positions) (input : Ring) : Prop where
  ready : pos.tail < pos.free
  cached : input.cached = f.input.nodes (pos.tail % eosRingSize)
  nodes : ∃ node, input.nodes = Function.update f.input.nodes (pos.tail % eosRingSize) node

theorem Sound.recvSlow (sound : f.Sound pos)
    (returned : eosPktRecvSlow f.input f.output = some (ret, input, output)) :
    ret ≠ 0 ∧ input = f.input ∧ output = f.output ∧ pos.tail = pos.free ∨
      ret = 0 ∧ input.cached.cnt ≠ input.cached.idx ∧ f.Opened pos input ∧
        Sound { f with input := input, output := output } { pos with tail := pos.tail + 1 } := by
  unfold eosPktRecvSlow at returned
  split_ifs at returned with finished
  rw [skipEmpty_of_ne sound.tail_slot] at returned
  simp only at returned
  rw [f.input.node_ofNat sound.inputTail] at returned
  have none_ready : (f.input.nodes (pos.tail % eosRingSize)).state ≠ .recvReady →
      pos.tail = pos.free := by
    intro other
    by_contra some_ready
    have order := sound.input.produced_from
    obtain ⟨_, state, _⟩ := sound.input.ready pos.tail le_rfl (by omega)
    exact other state
  split at returned
  · next state =>
    split_ifs at returned with failed
    simp only [some.injEq, Prod.mk.injEq] at returned
    obtain ⟨rfl, rfl, rfl⟩ := returned
    right
    simp only [not_or, ne_eq, not_not] at failed finished
    obtain ⟨_, _, noCount, noPacket⟩ := failed
    have some_ready : pos.tail < pos.free := by
      apply sound.input.ready_of_cell (by decide)
      · rintro ⟨_, isDone⟩
        rw [state] at isDone
        cases isDone
      · rintro ⟨_, isFree, _⟩
        rw [state] at isFree
        cases isFree
    obtain ⟨buffers, _, index, positive, fits⟩ :=
      sound.input.ready pos.tail le_rfl some_ready
    have caught_up : pos.tail = pos.sent ∧ f.todo = [] := by
      rcases sound.cache with ⟨same, _, _, _, nothing⟩
        | ⟨count, _, _, _, _, _, counted, _, _, _, unfinished⟩
      · exact ⟨same, nothing⟩
      · omega
    have opened : ∃ node, (f.input.setState f.input.tail .recvDone).nodes =
        update f.input.nodes (pos.tail % eosRingSize) node :=
      ⟨_, f.input.setNode_ofNat sound.inputTail _⟩
    refine ⟨rfl, by simp only; omega, ⟨some_ready, rfl, opened⟩, { sound with
      input := ?_
      inputTail := ?_
      posted := sound.posted.frame rfl le_rfl fun _ => rfl
      cache := ?_ }⟩
    · change Cycle _ (f.input.setState f.input.tail .recvDone).nodes _ _ _ _ _ _
      unfold Ring.setState
      rw [f.input.setNode_ofNat sound.inputTail, f.input.node_ofNat sound.inputTail]
      exact sound.input.consume some_ready ⟨buffers, rfl⟩
    · change f.input.tail + 1 = _
      rw [sound.inputTail, ofNat_succ]
    · rw [caught_up.1] at buffers index positive fits
      obtain ⟨count, counted⟩ := Int.eq_ofNat_of_zero_le
        (show 0 ≤ (f.input.nodes (pos.sent % eosRingSize)).cnt by omega)
      rw [caught_up.1]
      refine .within count 0 0 rfl counted index counted noPacket le_rfl (Nat.zero_le _)
        (by omega) (by omega) buffers buffers ?_
      rw [caught_up.2]
      rfl
  · next state =>
    simp only [some.injEq, Prod.mk.injEq] at returned
    obtain ⟨rfl, rfl, rfl⟩ := returned
    refine .inl ⟨by decide, rfl, rfl, none_ready ?_⟩
    rw [state]
    exact nofun
  · next other _ =>
    simp only [some.injEq, Prod.mk.injEq] at returned
    obtain ⟨rfl, rfl, rfl⟩ := returned
    exact .inl ⟨by decide, rfl, rfl, none_ready other⟩

theorem Sound.recvSlow_ready (sound : f.Sound pos)
    (finished : f.input.cached.cnt = f.input.cached.idx) (noCount : f.output.cached.cnt = 0)
    (noPacket : f.output.cached.idx = 0) (some_ready : pos.tail < pos.free) :
    ∃ input output, eosPktRecvSlow f.input f.output = some (0, input, output) ∧
      input.cached = f.input.nodes (pos.tail % eosRingSize) := by
  obtain ⟨_, state, index, positive, _⟩ := sound.input.ready pos.tail le_rfl some_ready
  have checks : ¬((f.input.nodes (pos.tail % eosRingSize)).cnt = 0 ∨
      (f.input.nodes (pos.tail % eosRingSize)).idx ≠ 0 ∨ f.output.cached.cnt ≠ 0 ∨
      f.output.cached.idx ≠ 0) := by
    omega
  unfold eosPktRecvSlow
  rw [if_neg (not_not.mpr finished), skipEmpty_of_ne sound.tail_slot]
  simp only [f.input.node_ofNat sound.inputTail, state, if_neg checks]
  exact ⟨_, _, rfl, rfl⟩

theorem Sound.nextPkt (sound : f.Sound pos) {m : PktMeta}
    (unread : f.input.cached.cnt ≠ f.input.cached.idx)
    (returned : Eos.nextPkt f.input = some (m, input)) :
    Sound { f with input := input, todo := f.todo ++ [m.pkt] } pos := by
  unfold Eos.nextPkt at returned
  simp only at returned
  split_ifs at returned with failed
  simp only [some.injEq, Prod.mk.injEq] at returned
  obtain ⟨rfl, rfl⟩ := returned
  rcases sound.cache with ⟨_, _, _, finished, _⟩ |
    ⟨count, done, next, ahead, receivedCount, receivedIndex, sendingCount, sendingIndex, order,
      last, unfinished, fits, receivedBuffers, sendingBuffers, pending⟩
  · exact absurd finished unread
  · refine { sound with
      posted := sound.posted.frame rfl le_rfl fun _ => rfl
      cache := ?_ }
    refine .within count done (next + 1) ahead receivedCount ?_ sendingCount sendingIndex
      (by omega) (by omega) unfinished fits receivedBuffers sendingBuffers ?_
    · simp only [receivedIndex]
      rfl
    · rw [receivedIndex, Int.toNat_natCast, receivedBuffers next, pending,
        show next + 1 - done = next - done + 1 by omega, List.range'_1_concat,
        List.map_append, show done + (next - done) = next by omega]
      rfl

theorem eosPktRecv_cases {ring sent : Ring}
    (returned : eosPktRecv ring sent = some (ret, m, input, output)) :
    ∃ opened, (if ring.cached.cnt = ring.cached.idx then eosPktRecvSlow ring sent
        else some (0, ring, sent)) = some (ret, opened, output) ∧
      (ret ≠ 0 ∧ m = none ∧ input = opened ∨
        ret = 0 ∧ ∃ packet, Eos.nextPkt opened = some (packet, input) ∧ m = some packet) := by
  have rest : ∀ ret' opened sent',
      (if ret' ≠ 0 then some (ret', none, opened, sent')
        else (Eos.nextPkt opened).bind fun next => some (0, some next.1, next.2, sent')) =
          some (ret, m, input, output) →
      (ret', opened, sent') = (ret, opened, output) ∧
        (ret ≠ 0 ∧ m = none ∧ input = opened ∨
          ret = 0 ∧ ∃ packet, Eos.nextPkt opened = some (packet, input) ∧ m = some packet) := by
    intro ret' opened sent' result
    by_cases error : ret' = 0
    · rw [if_neg (not_not.mpr error)] at result
      obtain ⟨⟨packet, after⟩, taken, done⟩ := bind_eq_some_iff.mp result
      simp only [some.injEq, Prod.mk.injEq] at done
      obtain ⟨rfl, rfl, rfl, rfl⟩ := done
      exact ⟨by rw [error], .inr ⟨rfl, packet, taken, rfl⟩⟩
    · rw [if_pos error] at result
      simp only [some.injEq, Prod.mk.injEq] at result
      obtain ⟨rfl, rfl, rfl, rfl⟩ := result
      exact ⟨rfl, .inl ⟨error, rfl, rfl⟩⟩
  unfold eosPktRecv at returned
  by_cases finished : ring.cached.cnt = ring.cached.idx
  · rw [if_pos finished] at returned
    rw [if_pos finished]
    obtain ⟨⟨ret', opened, sent'⟩, slow, result⟩ := bind_eq_some_iff.mp returned
    obtain ⟨same, outcome⟩ := rest ret' opened sent' result
    exact ⟨opened, slow.trans (congrArg some same), outcome⟩
  · rw [if_neg finished] at returned
    rw [if_neg finished]
    obtain ⟨same, outcome⟩ := rest 0 ring sent returned
    exact ⟨ring, congrArg some same, outcome⟩

theorem Sound.recv_error (sound : f.Sound pos) (error : ret ≠ 0)
    (returned : eosPktRecv f.input f.output = some (ret, m, input, output)) :
    m = none ∧ input = f.input ∧ output = f.output ∧ pos.tail = pos.free := by
  obtain ⟨opened, slow, ⟨_, rfl, rfl⟩ | ⟨zero, _⟩⟩ := eosPktRecv_cases returned
  · split_ifs at slow with finished
    · rcases sound.recvSlow slow with ⟨_, rfl, rfl, none_ready⟩ | ⟨zero, _⟩
      · exact ⟨rfl, rfl, rfl, none_ready⟩
      · exact absurd zero error
    · simp only [some.injEq, Prod.mk.injEq] at slow
      exact absurd slow.1.symm error
  · exact absurd zero error

theorem Sound.recv (sound : f.Sound pos)
    (returned : eosPktRecv f.input f.output = some (ret, m, input, output)) :
    ∃ tail, Sound
      { f with input := input, output := output, todo := f.todo ++ (m.map PktMeta.pkt).toList }
      { pos with tail := tail } := by
  by_cases error : ret = 0
  · obtain ⟨opened, slow, ⟨failed, _⟩ | ⟨_, packet, taken, rfl⟩⟩ := eosPktRecv_cases returned
    · exact absurd error failed
    · split_ifs at slow with finished
      · rcases sound.recvSlow slow with ⟨failed, _⟩ | ⟨_, unread, _, after⟩
        · exact absurd error failed
        · exact ⟨pos.tail + 1, after.nextPkt unread taken⟩
      · simp only [some.injEq, Prod.mk.injEq] at slow
        obtain ⟨_, rfl, rfl⟩ := slow
        exact ⟨pos.tail, sound.nextPkt finished taken⟩
  · obtain ⟨rfl, rfl, rfl, _⟩ := sound.recv_error error returned
    refine ⟨pos.tail, ?_⟩
    simpa using sound

/-- The assertions of the collection hold. -/
theorem Sound.collect (sound : f.Sound pos) (ready : collectable f.input f.output) :
    ∃ input output, eosPktCollectOne f.input f.output = some (input, output) ∧
      Sound { f with input := input, output := output } { pos with head := pos.head + 1 } := by
  have sent : (f.output.nodes (pos.head % eosRingSize)).state = .sentDone := by
    have both := of_decide_eq_true ready
    rw [f.output.node_ofNat sound.outputHead] at both
    exact both.2
  have some_done : pos.head < pos.taken := by
    apply sound.output.done_of_cell (by decide)
    · rintro ⟨_, isReady, _⟩
      simp only [cells] at isReady
      rw [sent] at isReady
      cases isReady
    · rintro ⟨isFree, _⟩
      simp only [cells] at isFree
      rw [sent] at isFree
      cases isFree
  have outputOrder := sound.output.produced_from
  have behind : pos.sent ≤ pos.tail := by
    rcases sound.cache with ⟨same⟩ | ⟨_, _, _, ahead⟩
    · omega
    · omega
  obtain ⟨inputBuffers, _⟩ := sound.input.done pos.head le_rfl (by omega)
  obtain ⟨outputBuffers, marked⟩ := sound.output.done pos.head le_rfl some_done
  have none_sending : f.sending (pos.head % eosRingSize) = 0 := by
    rcases marked with ⟨_, zero⟩ | ⟨txing, _⟩
    · exact zero
    · simp only [cells] at txing
      rw [sent] at txing
      cases txing
  have step : eosPktCollectOne f.input f.output = some
      ({ f.input.setNode f.input.head
          { f.output.node f.output.head with cnt := 0, idx := 0, state := .free } with
        head := f.input.head + 1 },
      { f.output.setState f.output.head .empty with head := f.output.head + 1 }) := by
    unfold eosPktCollectOne
    apply if_neg
    rintro (different | ⟨i, _, different⟩)
    · exact different (sound.inputHead.trans sound.outputHead.symm)
    · rw [f.input.node_ofNat sound.inputHead, f.output.node_ofNat sound.outputHead] at different
      exact different ((inputBuffers i).trans (outputBuffers i).symm)
  refine ⟨_, _, step, { sound with
    input := ?_
    output := ?_
    inputHead := ?_
    outputHead := ?_
    agent := ?_
    posted := ?_ }⟩
  · change Cycle _ (f.input.setNode f.input.head _).nodes _ _ _ _ _ _
    rw [f.input.setNode_ofNat sound.inputHead, f.output.node_ofNat sound.outputHead]
    exact sound.input.release (by omega) ⟨outputBuffers.next_round, rfl, rfl, rfl⟩
  · change Cycle _ (fun j => ((f.output.setState f.output.head .empty).nodes j, f.sending j))
      _ _ _ _ _ _
    unfold Ring.setState
    rw [f.output.setNode_ofNat sound.outputHead, cells_setNode]
    exact sound.output.release some_done ⟨rfl, none_sending⟩
  · change f.input.head + 1 = _
    rw [sound.inputHead, ofNat_succ]
  · change f.output.head + 1 = _
    rw [sound.outputHead, ofNat_succ]
  · have held := sound.agent
    change AgentSound pos.free (pos.head + 1 + eosRingSize) f.agent
    cases stage : f.agent with
    | idle => trivial
    | looked rcache =>
      rw [stage] at held
      exact ⟨by have := held.1; omega, held.2⟩
    | moved rcache =>
      rw [stage] at held
      exact ⟨by have := held.1; omega, held.2⟩
  · have outputRoom := sound.output.room
    refine sound.posted.frame rfl le_rfl fun some_ready => ?_
    change (f.output.setState f.output.head .empty).nodes _ = _
    unfold Ring.setState
    rw [f.output.setNode_ofNat sound.outputHead]
    apply update_of_ne
    exact cell_ne pos.head (by omega) (by omega) le_rfl (by omega) (by omega)

end Nf

end Composite.Eos
