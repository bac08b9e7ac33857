import Composite.Eos.Counters.Model
import Composite.Eos.Nf.Invariant

/-!
# Rings whose nodes are handed over

Between its positions a ring is a cycle of nodes that were consumed, nodes that were published and
nodes that are empty, whatever the counter of the ring says.
-/

namespace Composite.Eos

open Window Function

structure Span where
  head : Nat
  taken : Nat
  sent : Nat

def AllConsumed (r : Ring) (published : PktState) : Prop :=
  ∀ i < eosRingSize, (r.nodes i).state ≠ published

instance (r : Ring) (published : PktState) : Decidable (AllConsumed r published) := by
  unfold AllConsumed
  infer_instance

structure SentRing (r : Ring) (s : Span) : Prop where
  cycle : Cycle eosRingSize r.nodes s.head s.taken s.sent
    (fun _ n => n.state = .sentDone ∨ n.state = .txing) (fun _ n => n.state = .sentReady)
    (fun _ n => n.state = .empty)
  head : r.head = .ofNat s.head
  taken : r.mcaHead = .ofNat s.taken
  sent : r.tail = .ofNat s.sent

structure RecvRing (r : Ring) (s : Span) : Prop where
  cycle : Cycle eosRingSize r.nodes s.head s.taken s.sent
    (fun _ n => n.state = .recvDone) (fun _ n => n.state = .recvReady ∧ n.cnt = 1)
    (fun _ n => n.state = .free ∧ n.cnt = 0)
  head : r.head = .ofNat s.head
  taken : r.tail = .ofNat s.taken
  sent : r.freeHead = .ofNat s.sent

variable {r r' : Ring} {s : Span} {n : Node}

theorem eosRingSize_pos : 0 < eosRingSize := by decide

theorem Ring.setState_ofNat (r : Ring) {position : UInt32} {p : Nat} (at_p : position = .ofNat p)
    (state : PktState) : (r.setState position state).nodes =
      update r.nodes (p % eosRingSize) { r.nodes (p % eosRingSize) with state } := by
  unfold Ring.setState
  rw [r.setNode_ofNat at_p, r.node_ofNat at_p]

theorem Ring.node_marked (r : Ring) (position : UInt32) (state : PktState) :
    (r.setState position state).node (position + 1 - 1) = { r.node position with state } := by
  rw [UInt32.add_sub_cancel]
  exact update_self ..

theorem publishNode_eq (published : publishNode r n = some r') :
    (n.state = .sentReady ∧ 0 ≤ n.cnt) ∧ (r.node r.tail).state = .empty ∧
      r'.nodes = update r.nodes (ringIndex r.tail) { n with idx := 0 } ∧
      r'.head = r.head ∧ r'.mcaHead = r.mcaHead ∧ r'.tail = r.tail + 1 ∧ r'.pktCnt = r.pktCnt := by
  unfold publishNode at published
  split_ifs at published with sendable
  unfold eosPktSendFlushForce at published
  split_ifs at published with long short
  · simp [esent] at published
  · unfold flushTail at published
    simp only [Ring.node] at published
    split at published
    · next returned isSome =>
      split at isSome
      · next isEmpty =>
        simp only [Option.some.injEq, Prod.mk.injEq, true_and] at isSome published
        subst isSome
        subst published
        exact ⟨sendable, isEmpty, rfl, rfl, rfl, rfl, rfl⟩
      · simp [ecollet] at isSome
      · simp [eblock] at isSome
    · cases published

namespace SentRing

section

variable (ring : SentRing r s)

include ring

theorem consumed_iff : AllConsumed r .sentReady ↔ s.taken = s.sent := by
  refine ring.cycle.none_ready_iff eosRingSize_pos (fun n => n.state = .sentReady) ?_ ?_ ?_
  · rintro _ cell (done | txing) looks
    · rw [done] at looks
      cases looks
    · rw [txing] at looks
      cases looks
  · intro _ cell ready
    exact ready
  · intro _ cell free looks
    rw [free] at looks
    cases looks

/-- A position before `mca_head` that the window of the ring still covers is not ready: it lies
between `head` and `mca_head`, or it is the one of a free node one turn later. -/
theorem not_ready {position : Nat} (recent : s.sent ≤ position + eosRingSize)
    (before : position < s.taken) : (r.nodes (position % eosRingSize)).state ≠ .sentReady := by
  intro ready
  by_cases early : position < s.head
  · have later : (position + eosRingSize) % eosRingSize = position % eosRingSize :=
      Nat.add_mod_right ..
    have free := ring.cycle.free (position + eosRingSize) recent (by omega)
    rw [later, ready] at free
    cases free
  · rcases ring.cycle.done position (not_lt.mp early) before with done | txing
    · rw [done] at ready
      cases ready
    · rw [txing] at ready
      cases ready

theorem caught_up (other : (r.node r.mcaHead).state ≠ .sentReady) : r.mcaHead = r.tail := by
  rw [r.node_ofNat ring.taken] at other
  rw [ring.taken, ring.sent]
  refine congrArg UInt32.ofNat (le_antisymm ring.cycle.produced_from (not_lt.mp fun less => ?_))
  exact other (ring.cycle.ready s.taken le_rfl less)

theorem restate (states : ∀ i < eosRingSize, (r'.nodes i).state = (r.nodes i).state)
    (head : r'.head = r.head) (mcaHead : r'.mcaHead = r.mcaHead) (tail : r'.tail = r.tail) :
    SentRing r' s := by
  refine ⟨?_, head ▸ ring.head, mcaHead ▸ ring.taken, tail ▸ ring.sent⟩
  refine ring.cycle.congr eosRingSize_pos ?_ ?_ ?_ <;>
    · intro i inside _ cell
      rwa [states i inside]

theorem recount (nodes : r'.nodes = r.nodes) (head : r'.head = r.head)
    (mcaHead : r'.mcaHead = r.mcaHead) (tail : r'.tail = r.tail) : SentRing r' s :=
  ring.restate (fun i _ => by rw [nodes]) head mcaHead tail

theorem publish (published : publishNode r n = some r') :
    SentRing r' { s with sent := s.sent + 1 } := by
  obtain ⟨⟨ready, _⟩, isEmpty, nodes, head, taken, tail, _⟩ := publishNode_eq published
  rw [r.node_ofNat ring.sent] at isEmpty
  have space : s.sent < s.head + eosRingSize := by
    refine ring.cycle.room_of_cell eosRingSize_pos ?_ ?_
    · rw [isEmpty]
      simp
    · rw [isEmpty]
      simp
  refine ⟨?_, head ▸ ring.head, taken ▸ ring.taken, ?_⟩
  · rw [nodes, ring.sent, ringIndex_ofNat]
    exact ring.cycle.produce space ready
  · rw [tail, ring.sent, ofNat_succ]

/-- A node is marked as consumed. -/
theorem take (ready : (r.node r.mcaHead).state = .sentReady) {state : PktState}
    (marked : state = .sentDone ∨ state = .txing) :
    SentRing { r.setState r.mcaHead state with mcaHead := r.mcaHead + 1 }
        { s with taken := s.taken + 1 } ∧ s.taken < s.sent := by
  rw [r.node_ofNat ring.taken] at ready
  have some_ready : s.taken < s.sent := by
    refine ring.cycle.ready_of_cell eosRingSize_pos ?_ ?_
    · rw [ready]
      simp
    · rw [ready]
      simp
  refine ⟨⟨?_, ring.head, ?_, ring.sent⟩, some_ready⟩
  · show Cycle eosRingSize (r.setState r.mcaHead state).nodes _ _ _ _ _ _
    rw [r.setState_ofNat ring.taken]
    exact ring.cycle.consume some_ready marked
  · show r.mcaHead + 1 = _
    rw [ring.taken, ofNat_succ]

theorem collect (done : (r.node r.head).state = .sentDone) :
    SentRing { r.setState r.head .empty with head := r.head + 1 }
    { s with head := s.head + 1 } := by
  rw [r.node_ofNat ring.head] at done
  have some_done : s.head < s.taken := by
    refine ring.cycle.done_of_cell eosRingSize_pos ?_ ?_
    · rw [done]
      simp
    · rw [done]
      simp
  refine ⟨?_, ?_, ring.taken, ring.sent⟩
  · show Cycle eosRingSize (r.setState r.head .empty).nodes _ _ _ _ _ _
    rw [r.setState_ofNat ring.head]
    exact ring.cycle.release some_done rfl
  · show r.head + 1 = _
    rw [ring.head, ofNat_succ]

theorem complete {i : Nat} (inside : i < eosRingSize) (txing : (r.nodes i).state = .txing) :
    SentRing (cosTxCb r i) s := by
  refine ⟨?_, ring.head, ring.taken, ring.sent⟩
  obtain ⟨position, from_head, below, rfl⟩ := exists_position s.head inside
  rcases ring.cycle.cases from_head below with ⟨early, _⟩ | ⟨_, _, ready⟩ | ⟨_, free⟩
  · refine ring.cycle.touch_done from_head early ?_
    simp only [txing]
    split_ifs <;> simp
  · rw [txing] at ready
    cases ready
  · rw [txing] at free
    cases free

end

end SentRing

namespace RecvRing

section

variable (ring : RecvRing r s)

include ring

theorem consumed_iff : AllConsumed r .recvReady ↔ s.taken = s.sent := by
  refine ring.cycle.none_ready_iff eosRingSize_pos (fun n => n.state = .recvReady) ?_ ?_ ?_
  · intro _ cell done looks
    rw [done] at looks
    cases looks
  · intro _ cell ready
    exact ready.1
  · intro _ cell free looks
    rw [free.1] at looks
    cases looks

theorem recount (nodes : r'.nodes = r.nodes) (head : r'.head = r.head) (tail : r'.tail = r.tail)
    (freeHead : r'.freeHead = r.freeHead) : RecvRing r' s :=
  ⟨nodes ▸ ring.cycle, head ▸ ring.head, tail ▸ ring.taken, freeHead ▸ ring.sent⟩

theorem room (free : (r.node r.freeHead).state = .free) : s.sent < s.head + eosRingSize := by
  rw [r.node_ofNat ring.sent] at free
  refine ring.cycle.room_of_cell eosRingSize_pos ?_ ?_
  · rw [free]
    simp
  · rw [free]
    simp

theorem store (space : s.sent < s.head + eosRingSize) (ready : n.state = .recvReady)
    (one : n.cnt = 1) : RecvRing { r.setNode r.freeHead n with freeHead := r.freeHead + 1 }
      { s with sent := s.sent + 1 } := by
  refine ⟨?_, ring.head, ring.taken, ?_⟩
  · show Cycle eosRingSize (r.setNode r.freeHead n).nodes _ _ _ _ _ _
    rw [r.setNode_ofNat ring.sent]
    exact ring.cycle.produce space ⟨ready, one⟩
  · show r.freeHead + 1 = _
    rw [ring.sent, ofNat_succ]

theorem not_empty (position : UInt32) : (r.node position).state ≠ .empty := by
  have inside : ringIndex position < eosRingSize := by
    rw [← UInt32.ofNat_toNat (x := position), ringIndex_ofNat]
    exact Nat.mod_lt _ eosRingSize_pos
  intro isEmpty
  unfold Ring.node at isEmpty
  obtain ⟨place, from_head, below, same⟩ := exists_position s.head inside
  rw [← same] at isEmpty
  rcases ring.cycle.cases from_head below with ⟨_, done⟩ | ⟨_, _, ready, _⟩ | ⟨_, free, _⟩
  · rw [done] at isEmpty
    cases isEmpty
  · rw [ready] at isEmpty
    cases isEmpty
  · rw [free] at isEmpty
    cases isEmpty

theorem recv {sent sent' : Ring} (emptied : r.cached.cnt = r.cached.idx)
    (received : eosPktRecvSlow r sent = some (0, r', sent')) :
    RecvRing r' { s with taken := s.taken + 1 } ∧ s.taken < s.sent ∧
      (r'.node (r'.tail - 1)).cnt = 1 := by
  unfold eosPktRecvSlow at received
  rw [if_neg (not_not.mpr emptied), skipEmpty_of_ne (ring.not_empty r.tail)] at received
  simp only at received
  split at received
  · next ready =>
    split_ifs at received
    simp only [Option.some.injEq, Prod.mk.injEq, true_and] at received
    obtain ⟨rfl, -⟩ := received
    rw [r.node_ofNat ring.taken] at ready
    have some_ready : s.taken < s.sent := by
      refine ring.cycle.ready_of_cell eosRingSize_pos ?_ ?_
      · rw [ready]
        simp
      · rw [ready]
        simp
    have one := (ring.cycle.ready s.taken (Nat.le_refl _) some_ready).2
    have nodes := r.setState_ofNat ring.taken .recvDone
    refine ⟨⟨?_, ring.head, ?_, ring.sent⟩, some_ready, ?_⟩
    · show Cycle eosRingSize (r.setState r.tail .recvDone).nodes _ _ _ _ _ _
      rw [nodes]
      exact ring.cycle.consume some_ready rfl
    · show r.tail + 1 = _
      rw [ring.taken, ofNat_succ]
    · show ((r.setState r.tail .recvDone).nodes (ringIndex (r.tail + 1 - 1))).cnt = 1
      rw [UInt32.add_sub_cancel, nodes, ring.taken, ringIndex_ofNat, update_self]
      exact one
  · simp [ecollet] at received
  · simp [eblock] at received

/-- The node of the output ring comes back as a free one. -/
theorem collect (done : (r.node r.head).state = .recvDone) (free : n.state = .free)
    (none : n.cnt = 0) :
    RecvRing { r.setNode r.head n with head := r.head + 1 } { s with head := s.head + 1 } := by
  rw [r.node_ofNat ring.head] at done
  have some_done : s.head < s.taken := by
    refine ring.cycle.done_of_cell eosRingSize_pos ?_ ?_
    · rw [done]
      simp
    · rw [done]
      simp
  refine ⟨?_, ?_, ring.taken, ring.sent⟩
  · show Cycle eosRingSize (r.setNode r.head n).nodes _ _ _ _ _ _
    rw [r.setNode_ofNat ring.head]
    exact ring.cycle.release some_done ⟨free, none⟩
  · show r.head + 1 = _
    rw [ring.head, ofNat_succ]

end

end RecvRing

end Composite.Eos
