import Composite.Eos.Nf.Progress
import Composite.Eos.Thread

/-!
# Wakeups of a network function

The agent queues one wakeup for each node that it stores in the input ring, and the core of the
function processes the wakeups in their order.  A function that finds no node ready blocks.
-/

namespace Composite.Eos

open Transition Window Option List

structure Sleeper where
  nf : Nf
  thd : SlThd
  requests : List Nat
  /-- The agent has stored a node and not yet queued the wakeup. -/
  waking : Bool
  /-- No packet was received since a receive returned `EBLOCK`, and the function has not
  blocked since then. -/
  eblocked : Bool

inductive SleeperEvent where
  /-- A step of the agent or of the consumer of the output ring, a send or a collection. -/
  | nf (event : NfEvent)
  | store (count : Int)
  | wakeup (deadline : Nat)
  | process
  | recv
  | block

namespace Sleeper

/-- `SCHEDP_PRIO_BLOCK` leaves the thread blocked, with no wakeup. -/
def init : Sleeper := ⟨.init, ⟨.blocked, false, 0, slEdfMaxDeadline, false⟩, [], false, false⟩

def enabled (s : Sleeper) : NfEvent → Bool
  | .send _ _ | .collect => s.thd.state = .runnable
  | .look | .leave | .transfer _ => !s.waking
  | .recv | .store _ => false
  | _ => true

def next (s : Sleeper) : SleeperEvent → Option Sleeper
  | .nf event =>
    if s.enabled event then (s.nf.next event).map fun nf => { s with nf := nf } else none
  | .store count =>
    if s.waking then none
    else (s.nf.next (.store count)).map fun nf => { s with nf := nf, waking := true }
  | .wakeup deadline =>
    if s.waking then some { s with requests := s.requests ++ [deadline], waking := false }
    else none
  | .process =>
    match s.requests with
    | [] => none
    | sp :: rest =>
      (slXcpuWakeupWithDl s.thd sp).map fun thd => { s with thd := thd, requests := rest }
  | .recv =>
    if s.thd.state ≠ .runnable then none
    else
      match eosPktRecv s.nf.input s.nf.output with
      | none => none
      | some (ret, m, input, output) =>
        some { s with
          nf := { s.nf with
            input := input
            output := output
            todo := s.nf.todo ++ (m.map PktMeta.pkt).toList }
          eblocked := ret = -eblock ∨ ret ≠ 0 ∧ s.eblocked }
  | .block =>
    if s.thd.state = .runnable ∧ s.eblocked then
      (slThdBlock s.thd).map fun thd => { s with thd := thd, eblocked := false }
    else none

end Sleeper

namespace Sleeper

def pending (s : Sleeper) : Int := s.requests.length + s.waking.toNat

structure Sound (s : Sleeper) (pos : Positions) : Prop where
  rings : s.nf.Sound pos
  thread : ThreadSound s.thd s.eblocked (pos.free - pos.tail) s.pending

def CountFits (s : Sleeper) : SleeperEvent → Prop
  | .process => s.thd.wakeupCnt < 2 ^ 31 - 1
  | _ => True

variable {s s' : Sleeper} {pos : Positions}

theorem Sound.step (sound : s.Sound pos) {event : SleeperEvent} (fits : s.CountFits event)
    (stepped : s.next event = some s') : ∃ pos', s'.Sound pos' := by
  obtain ⟨rings, thread⟩ := sound
  cases event with
  | nf event =>
    simp only [next] at stepped
    split_ifs at stepped with mayStep
    obtain ⟨nf, moved, rfl⟩ := map_eq_some_iff.mp stepped
    obtain ⟨pos', after, same⟩ := rings.step moved
    have other : ¬Nf.movesReady event := by
      cases event with
      | store => cases mayStep
      | recv => cases mayStep
      | _ => exact id
    obtain ⟨tail, free⟩ := same other
    refine ⟨pos', after, ?_⟩
    rw [tail, free]
    exact thread
  | store count =>
    simp only [next] at stepped
    split_ifs at stepped with waking
    obtain ⟨nf, moved, rfl⟩ := map_eq_some_iff.mp stepped
    simp only [Nf.next] at moved
    split at moved
    · next rcache full =>
      obtain rfl := some_inj.mp moved
      refine ⟨_, rings.store full count, thread.covers_more ?_⟩
      rw [Bool.not_eq_true] at waking
      simp only [pending, waking, Bool.toNat_true, Bool.toNat_false]
      push_cast
      omega
    · cases moved
  | wakeup deadline =>
    simp only [next] at stepped
    split_ifs at stepped with waking
    obtain rfl := some_inj.mp stepped
    refine ⟨pos, rings, thread.covers_more ?_⟩
    simp only [pending, waking, Bool.toNat_true, Bool.toNat_false, length_append,
      length_singleton]
    push_cast
    omega
  | process =>
    simp only [next] at stepped
    split at stepped
    · cases stepped
    · next sp rest queued =>
      have one_less : s.pending = { s with requests := rest : Sleeper }.pending + 1 := by
        simp only [pending, queued, length_cons]
        push_cast
        omega
      rw [one_less] at thread
      obtain ⟨thd, woken, after⟩ := thread.wakeup fits sp
      rw [woken] at stepped
      obtain rfl := some_inj.mp stepped
      exact ⟨pos, rings, after⟩
  | recv =>
    simp only [next] at stepped
    split_ifs at stepped with asleep
    split at stepped
    · cases stepped
    · next ret m input output returned =>
      obtain rfl := some_inj.mp stepped
      have awake : s.thd.state = .runnable := not_not.mp asleep
      by_cases error : ret = 0
      · obtain ⟨tail, after⟩ := rings.recv returned
        refine ⟨_, after, ?_⟩
        cases thread with
        | sleeping state =>
          rw [awake] at state
          cases state
        | running state fresh positive bounded queued covered =>
          refine .running state fresh positive bounded queued fun about => ?_
          simp [error, eblock] at about
      · obtain ⟨rfl, rfl, rfl, none_ready⟩ := rings.recv_error error returned
        refine ⟨pos, ?_, ?_⟩
        · simpa using rings
        · cases thread with
          | sleeping state =>
            rw [awake] at state
            cases state
          | running state fresh positive bounded queued covered =>
            refine .running state fresh positive bounded queued fun about => ?_
            have nonneg : 0 ≤ s.pending := by
              unfold pending
              omega
            rcases of_decide_eq_true about with blocked | ⟨_, still⟩
            · change (pos.free : Int) - pos.tail ≤ s.thd.wakeupCnt - 1 + s.pending
              omega
            · exact covered still
  | block =>
    simp only [next] at stepped
    split_ifs at stepped with mayBlock
    rw [mayBlock.2] at thread
    obtain ⟨thd, blocked, after⟩ := thread.block
    rw [blocked] at stepped
    obtain rfl := some_inj.mp stepped
    exact ⟨pos, rings, after⟩

theorem init_sound : init.Sound ⟨0, 0, 0, 0, 0⟩ :=
  ⟨Nf.init_sound, .sleeping rfl rfl rfl rfl rfl (by decide)⟩

instance (s : Sleeper) (event : SleeperEvent) : Decidable (s.CountFits event) := by
  unfold CountFits
  split <;> infer_instance

end Sleeper

/-- As long as the count of the thread has room for the wakeups, a function that sleeps with
no wakeup for it has no node that is ready, and a function that blocks passes the
assertions. -/
theorem no_lost_wakeup {events : List SleeperEvent} {s : Sleeper}
    (fits : Meets Sleeper.CountFits Sleeper.next .init events)
    (reached : exec Sleeper.next .init events = some s) :
    (s.thd.state = .blocked → s.requests = [] → s.waking = false →
      ∀ i < eosRingSize, (s.nf.input.nodes i).state ≠ .recvReady) ∧
    (s.thd.state = .runnable → s.eblocked = true →
      1 ≤ s.thd.wakeupCnt ∧ slThdBlock s.thd ≠ none) := by
  have kept : ∀ (s : Sleeper) (event : SleeperEvent) (s' : Sleeper), (∃ pos, s.Sound pos) →
      s.CountFits event → s.next event = some s' → ∃ pos, s'.Sound pos := by
    rintro s event s' ⟨pos, sound⟩ room stepped
    exact sound.step room stepped
  obtain ⟨pos, rings, thread⟩ := exec_invariant kept ⟨_, Sleeper.init_sound⟩ fits reached
  constructor
  · intro asleep none_queued none_waking i inside ready
    obtain ⟨position, low, high, rfl⟩ := exists_position pos.head inside
    cases thread with
    | running state =>
      rw [asleep] at state
      cases state
    | sleeping _ _ _ _ _ covered =>
      simp only [Sleeper.pending, none_queued, none_waking, List.length_nil,
        Bool.toNat_false] at covered
      rcases rings.input.cases low high with
        ⟨_, _, state⟩ | ⟨from_tail, below, _⟩ | ⟨_, _, state, _⟩
      · rw [ready] at state
        cases state
      · omega
      · rw [ready] at state
        cases state
  · intro awake about
    rw [about] at thread
    obtain ⟨thd, blocked, _⟩ := thread.block
    cases thread with
    | sleeping state =>
      rw [awake] at state
      cases state
    | running _ _ positive =>
      refine ⟨positive, ?_⟩
      rw [blocked]
      exact Option.some_ne_none _

namespace Sleeper

def serve : List SleeperEvent :=
  [.nf .look, .nf (.transfer onePacket), .store 1, .wakeup 1, .process, .recv,
    .nf (.send 64 0), .nf .take, .nf .collect]

end Sleeper

/-- A function that is woken for one node sleeps again with no wakeup left. -/
theorem no_lost_wakeup_one :
    ∃ s, exec Sleeper.next .init (Sleeper.serve ++ [.recv, .block]) = some s ∧
      s.thd.state = .blocked ∧ s.requests = [] ∧ s.waking = false ∧
      ∀ i < eosRingSize, (s.nf.input.nodes i).state ≠ .recvReady := by
  have run : (exec Sleeper.next .init (Sleeper.serve ++ [.recv, .block])).map
      (fun s => (s.thd.state, s.requests, s.waking)) = some (.blocked, [], false) := by
    decide +kernel
  have fits : Meets Sleeper.CountFits Sleeper.next .init (Sleeper.serve ++ [.recv, .block]) := by
    decide +kernel
  obtain ⟨s, reached, shown⟩ := Option.map_eq_some_iff.mp run
  simp only [Prod.mk.injEq] at shown
  obtain ⟨asleep, none_queued, none_waking⟩ := shown
  exact ⟨s, reached, asleep, none_queued, none_waking,
    (no_lost_wakeup fits reached).1 asleep none_queued none_waking⟩

/-! A function that finds several nodes before it blocks keeps wakeups that it does not need. -/

namespace Sleeper

/-- Nothing is under way at position `p`, and the thread has this many wakeups. -/
structure Rested (s : Sleeper) (p : Nat) (count : Int) : Prop where
  rings : s.nf.Quiet p
  none_queued : s.requests = []
  none_waking : s.waking = false
  counted : s.thd.wakeupCnt = count

variable {s s' : Sleeper} {p : Nat} {count : Int}

theorem exec_nf {events : List NfEvent} {nf : Nf} (mayStep : ∀ event ∈ events, s.enabled event)
    (moved : exec Nf.next s.nf events = some nf) :
    exec next s (events.map .nf) = some { s with nf := nf } := by
  induction events generalizing s with
  | nil =>
    obtain rfl := some_inj.mp moved
    rfl
  | cons event rest ih =>
    obtain ⟨middle, first, others⟩ := exec_cons_eq_some.mp moved
    have step : s.next (.nf event) = some { s with nf := middle } := by
      simp only [next, mayStep event (mem_cons_self ..), if_true, first, map_some]
    rw [map_cons, exec_cons_eq_some]
    refine ⟨_, step, ih (s := { s with nf := middle }) ?_ others⟩
    intro other member
    exact mayStep other (mem_cons_of_mem _ member)

theorem Rested.serve (rested : s.Rested p count) (positive : 0 ≤ count) :
    ∃ s', exec next s Sleeper.serve = some s' ∧ s'.Rested (p + 1) (cosFaa count 1) ∧
      s'.thd.state = .runnable := by
  obtain ⟨quiet, none_queued, none_waking, counted⟩ := rested
  obtain ⟨filling, looked, filled, stored, full⟩ := quiet.fill
  obtain ⟨m, input, output, returned, received⟩ := full.recv
  obtain ⟨after, replied, quietAgain⟩ := received.reply
  have woken := slXcpuWakeupWithDl_eq (t := s.thd) (by rw [counted]; exact positive) 1
  have agent : exec next s ([NfEvent.look, .transfer onePacket].map .nf) =
      some { s with nf := filling } := by
    apply exec_nf _ looked
    simp [enabled, none_waking]
  -- the node is stored, the thread is woken, and the packet is received
  have middle : exec next { s with nf := filling } [.store 1, .wakeup 1, .process, .recv] =
      some ⟨{ filled with
          input := input
          output := output
          todo := filled.todo ++ [m.pkt] },
        ⟨.runnable, false, cosFaa s.thd.wakeupCnt 1, schedParamValue 1, true⟩, [], false,
        false⟩ := by
    simp [exec, next, none_waking, none_queued, stored, woken, returned, eblock]
  have reply : exec next ⟨{ filled with
          input := input
          output := output
          todo := filled.todo ++ [m.pkt] },
        ⟨.runnable, false, cosFaa s.thd.wakeupCnt 1, schedParamValue 1, true⟩, [], false, false⟩
      ([NfEvent.send 64 0, .take, .collect].map .nf) =
      some ⟨after, ⟨.runnable, false, cosFaa s.thd.wakeupCnt 1, schedParamValue 1, true⟩, [],
        false, false⟩ := by
    apply exec_nf _ replied
    simp [enabled]
  refine ⟨⟨after, ⟨.runnable, false, cosFaa s.thd.wakeupCnt 1, schedParamValue 1, true⟩, [],
    false, false⟩, ?_, ⟨quietAgain, rfl, rfl, congrArg (cosFaa · 1) counted⟩, rfl⟩
  rw [show Sleeper.serve = [NfEvent.look, .transfer onePacket].map .nf ++
      ([.store 1, .wakeup 1, .process, .recv] ++
        [NfEvent.send 64 0, .take, .collect].map .nf) from rfl,
    exec_append, agent, bind_some, exec_append, middle, bind_some]
  exact reply

theorem Rested.recv (rested : s.Rested p count) (awake : s.thd.state = .runnable) :
    s.next .recv = some { s with eblocked := true } := by
  have returned := rested.rings.recv
  simp [next, awake, returned]

def serveTwo : List SleeperEvent := serve ++ (serve ++ [.recv, .block])

theorem Rested.serveTwo (rested : s.Rested p count) (positive : 0 ≤ count)
    (bounded : count + 2 < 2 ^ 31) :
    ∃ s', exec next s Sleeper.serveTwo = some s' ∧ s'.Rested (p + 2) (count + 1) := by
  have once : cosFaa count 1 = count + 1 := cosFaa_of_bounds (by omega) (by omega)
  have twice : cosFaa (count + 1) 1 = count + 2 := by
    rw [cosFaa_of_bounds (by omega) (by omega)]
    omega
  have less : cosFaa (count + 2) (-1) = count + 1 := by
    rw [cosFaa_of_bounds (by omega) (by omega)]
    omega
  obtain ⟨s₁, first, rested₁, _⟩ := rested.serve positive
  rw [once] at rested₁
  obtain ⟨s₂, second, rested₂, awake⟩ := rested₁.serve (by omega)
  rw [twice] at rested₂
  have blocked : slThdBlock s₂.thd = some { s₂.thd with wakeupCnt := count + 1 } := by
    simp only [slThdBlock, rested₂.counted, less]
    rw [if_neg (by omega), if_neg (by omega)]
  refine ⟨{ s₂ with thd := { s₂.thd with wakeupCnt := count + 1 }, eblocked := false }, ?_,
    ⟨rested₂.rings, rested₂.none_queued, rested₂.none_waking, rfl⟩⟩
  have block : next { s₂ with eblocked := true } .block =
      some { s₂ with thd := { s₂.thd with wakeupCnt := count + 1 }, eblocked := false } := by
    simp only [next, awake, blocked, and_self, if_true, map_some]
  rw [Sleeper.serveTwo, exec_append, first, bind_some, exec_append, second,
    bind_some, exec, rested₂.recv awake, bind_some, exec, block, bind_some,
    exec]

theorem count_reached (n : Nat) (bounded : (n : Int) + 1 < 2 ^ 31) :
    ∃ events s p, exec next init events = some s ∧ s.Rested p n := by
  induction n with
  | zero => exact ⟨[], init, 0, rfl, Nf.init_quiet, rfl, rfl, rfl⟩
  | succ n ih =>
    obtain ⟨events, s, p, reached, rested⟩ := ih (by omega)
    obtain ⟨s', served, rested'⟩ := rested.serveTwo (by omega) (by omega)
    refine ⟨events ++ Sleeper.serveTwo, s', p + 2, ?_, ?_⟩
    · rw [exec_append, reached, bind_some, served]
    · rw [Int.natCast_succ]
      exact rested'

end Sleeper

/-- The count wraps around, and a function that blocks then fails the assertion. -/
theorem no_lost_wakeup_wrapped :
    ∃ events s, exec Sleeper.next .init events = some s ∧ s.thd.state = .runnable ∧
      s.eblocked = true ∧ s.thd.wakeupCnt = -2 ^ 31 ∧ slThdBlock s.thd = none := by
  obtain ⟨events, s, p, reached, rested⟩ := Sleeper.count_reached 2147483646 (by omega)
  have last : cosFaa (2147483646 : Nat) 1 = 2147483647 := by
    rw [cosFaa_of_bounds (by omega) (by omega)]
    omega
  have beyond : cosFaa 2147483647 1 = -2 ^ 31 := by decide
  obtain ⟨s₁, first, rested₁, _⟩ := rested.serve (by omega)
  rw [last] at rested₁
  obtain ⟨s₂, second, rested₂, awake⟩ := rested₁.serve (by omega)
  rw [beyond] at rested₂
  have wrapped : s₂.thd.wakeupCnt = -2 ^ 31 := rested₂.counted
  refine ⟨events ++ (Sleeper.serve ++ (Sleeper.serve ++ [.recv])), { s₂ with eblocked := true },
    ?_, awake, rfl, wrapped, ?_⟩
  · rw [exec_append, reached, Option.bind_some, exec_append, first, Option.bind_some, exec_append,
      second, Option.bind_some, exec, rested₂.recv awake, Option.bind_some, exec]
  · simp only [slThdBlock, wrapped]
    exact if_pos (by omega)

end Composite.Eos
