import Composite.Eos.Tx.Model

/-!
# The life of a node

What was written to a node since it was published, how many of its packets wait in the batches or
on the card, and what the transmitter is doing with it belong together.  The last packet of a node
is still in a batch when the node is marked.
-/

namespace Composite.Eos

open List

/-- What the transmitter is doing with a node: nothing, adding packet `i` of a copy with some
count, or emptying a batch before that. -/
inductive Passing where
  | no
  | adding (i : Nat) (cnt : Int)
  | posting (i : Nat) (cnt : Int)
  deriving DecidableEq

/-- The node, what happened to it, its packets in the batches and on the card, and what the
transmitter does with it agree. -/
inductive NodeSound (n : Node) (life : Life) (waiting card : Nat) : Passing → Prop where
  | unused (state : n.state = .empty) (nothing : waiting + card = 0) (size : life.size = 0) :
      NodeSound n life waiting card .no
  | ready (state : n.state = .sentReady) (nothing : waiting + card = 0)
      (cnt : n.cnt = life.size) (completed : life.completed = 0)
      (writes : life.writes = [.sentReady]) : NodeSound n life waiting card .no
  | adding (i : Nat) (state : n.state = .sentReady) (bound : i ≤ life.size)
      (added : waiting + card + life.completed = i) (cnt : n.cnt = life.size - life.completed)
      (writes : life.writes = [.sentReady])
      (last : i < life.size ∨ life.size = 0 ∨ 1 ≤ waiting) :
      NodeSound n life waiting card (.adding i life.size)
  | posting (i : Nat) (state : n.state = .sentReady) (bound : i < life.size)
      (added : waiting + card + life.completed = i) (cnt : n.cnt = life.size - life.completed)
      (writes : life.writes = [.sentReady]) :
      NodeSound n life waiting card (.posting i life.size)
  | txing (state : n.state = .txing) (cnt : n.cnt = life.size - life.completed)
      (left : waiting + card + life.completed = life.size) (some_left : 1 ≤ waiting + card)
      (writes : life.writes = [.sentReady, .txing]) : NodeSound n life waiting card .no
  | done (state : n.state = .sentDone) (nothing : waiting + card = 0)
      (completed : life.completed = life.size)
      (writes : life.writes =
        if life.size = 0 then [.sentReady, .sentDone] else [.sentReady, .txing, .sentDone]) :
      NodeSound n life waiting card .no
  | collected (state : n.state = .empty) (nothing : waiting + card = 0)
      (completed : life.completed = life.size)
      (writes : life.writes =
        if life.size = 0 then [.sentReady, .sentDone, .empty]
        else [.sentReady, .txing, .sentDone, .empty]) : NodeSound n life waiting card .no

namespace NodeSound

variable {n : Node} {life : Life} {waiting card : Nat} {passing : Passing} {i : Nat} {cnt : Int}

theorem nothing_of_empty (sound : NodeSound n life waiting card passing)
    (state : n.state = .empty) :
    waiting + card = 0 ∧ passing = .no := by
  cases sound with
  | unused _ nothing => exact ⟨nothing, rfl⟩
  | collected _ nothing => exact ⟨nothing, rfl⟩
  | ready other | adding _ other | posting _ other | txing other | done other =>
    rw [state] at other
    cases other

theorem left_of_txing (sound : NodeSound n life waiting card passing) (state : n.state = .txing) :
    1 ≤ waiting + card := by
  cases sound with
  | txing _ _ _ some_left => exact some_left
  | unused other | ready other | adding _ other | posting _ other | done other | collected other =>
    rw [state] at other
    cases other

theorem ready_of_adding (sound : NodeSound n life waiting card (.adding i cnt)) :
    n.state = .sentReady := by
  cases sound with
  | adding _ state => exact state

/-- Only a node that is marked can have its last packet reported. -/
theorem txing_of_last (sound : NodeSound n life waiting (card + 1) passing)
    (last : n.cnt - 1 = 0) : n.state = .txing := by
  cases sound with
  | txing state => exact state
  | adding _ _ bound added cnt _ more => omega
  | posting _ _ bound added cnt => omega
  | unused _ nothing | ready _ nothing | done _ nothing | collected _ nothing => omega

/-- The transmitter meets a node that is ready. -/
theorem meet (sound : NodeSound n life waiting card .no) (state : n.state = .sentReady) :
    NodeSound n life waiting card (.adding 0 n.cnt) := by
  cases sound with
  | ready _ nothing cnt completed writes =>
    rw [cnt]
    refine .adding 0 state (Nat.zero_le _) (by omega) (by rw [cnt, completed]; simp) writes ?_
    omega
  | unused other | txing other | done other | collected other =>
    rw [state] at other
    cases other

theorem add (sound : NodeSound n life waiting card (.adding i cnt)) (more : (i : Int) < cnt) :
    NodeSound n life (waiting + 1) card (.adding (i + 1) cnt) := by
  cases sound with
  | adding _ state bound added cnt writes last =>
    exact .adding (i + 1) state (by omega) (by omega) cnt writes (by omega)

theorem burst (sound : NodeSound n life waiting card (.adding i cnt)) (more : (i : Int) < cnt) :
    NodeSound n life waiting card (.posting i cnt) := by
  cases sound with
  | adding _ state bound added cnt writes last =>
    exact .posting i state (by omega) added cnt writes

theorem resume (sound : NodeSound n life waiting card (.posting i cnt)) :
    NodeSound n life waiting card (.adding i cnt) := by
  cases sound with
  | posting _ state bound added cnt writes =>
    exact .adding i state (by omega) added cnt writes (.inl bound)

/-- A packet goes from a batch to the card, while no packet is added. -/
theorem post (sound : NodeSound n life (waiting + 1) card passing)
    (still : ∀ i cnt, passing ≠ .adding i cnt) : NodeSound n life waiting (card + 1) passing := by
  cases sound with
  | unused _ nothing => omega
  | ready _ nothing => omega
  | adding i => exact absurd rfl (still i life.size)
  | posting i state bound added cnt writes => exact .posting i state bound (by omega) cnt writes
  | txing state cnt left some_left writes =>
    exact .txing state cnt (by omega) (by omega) writes
  | done _ nothing => omega
  | collected _ nothing => omega

/-- The node is marked: its last packet is still in a batch, if it has one. -/
theorem mark (sound : NodeSound n life waiting card (.adding i cnt)) (all : ¬(i : Int) < cnt) :
    NodeSound { n with state := if cnt ≠ 0 then .txing else .sentDone }
      { life with writes := life.writes ++ [if cnt ≠ 0 then .txing else .sentDone] }
      waiting card .no := by
  cases sound with
  | adding _ state bound added count writes last =>
    have complete : i = life.size := by omega
    by_cases empty : life.size = 0
    · simp only [empty, Int.natCast_zero, ne_eq, not_true_eq_false, if_false]
      refine .done rfl (by omega) (by simp only; omega) ?_
      simp only [writes, if_true, cons_append, nil_append]
    · have nonzero : (life.size : Int) ≠ 0 := by omega
      rw [if_pos nonzero]
      refine .txing rfl count (by simp only; omega) (by omega) ?_
      simp only [writes, cons_append, nil_append]

/-- The card reports a packet. -/
theorem complete (sound : NodeSound n life waiting (card + 1) passing) :
    NodeSound
      { n with cnt := n.cnt - 1, state := if n.cnt - 1 = 0 then .sentDone else n.state }
      { life with
        completed := life.completed + 1
        writes := if n.cnt - 1 = 0 then life.writes ++ [.sentDone] else life.writes }
      waiting card passing := by
  cases sound with
  | unused _ nothing => omega
  | ready _ nothing => omega
  | adding i state bound added cnt writes last =>
    have more : ¬n.cnt - 1 = 0 := by omega
    rw [if_neg more, if_neg more]
    exact .adding i state bound (by simp only; omega) (by simp only; omega) writes last
  | posting i state bound added cnt writes =>
    have more : ¬n.cnt - 1 = 0 := by omega
    rw [if_neg more, if_neg more]
    exact .posting i state bound (by simp only; omega) (by simp only; omega) writes
  | txing state cnt left some_left writes =>
    by_cases last : n.cnt - 1 = 0
    · rw [if_pos last, if_pos last]
      have size : life.size ≠ 0 := by omega
      refine .done rfl (by omega) (by simp only; omega) ?_
      simp only [writes, size, if_false, cons_append, nil_append]
    · rw [if_neg last, if_neg last]
      exact .txing state (by simp only; omega) (by simp only; omega) (by omega) writes
  | done _ nothing => omega
  | collected _ nothing => omega

theorem collect (sound : NodeSound n life waiting card passing) (state : n.state = .sentDone) :
    NodeSound { n with state := .empty } { life with writes := life.writes ++ [.empty] }
      waiting card passing := by
  cases sound with
  | done _ nothing completed writes =>
    refine .collected rfl nothing completed ?_
    simp only [writes]
    split <;> rfl
  | unused other | ready other | adding _ other | posting _ other | txing other | collected other =>
    rw [state] at other
    cases other

end NodeSound

end Composite.Eos
