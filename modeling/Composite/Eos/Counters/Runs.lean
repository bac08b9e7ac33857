import Composite.Eos.Counters.Rings
import Composite.Lib.Transition

/-!
# When the packet counters are right

A counter is the number of published nodes that wait, less the node that its sender has not counted
and more those that their consumer has not counted, as long as the agents take nodes of one packet
and nobody touches a ring between the hand-over of a node and its count.
-/

namespace Composite.Eos

open Transition Window Function Option

def AgentAt.busy : AgentAt → Bool
  | .idle => false
  | _ => true

/-! What has been handed over and not yet counted. -/

def AgentAt.owesSource : AgentAt → Nat
  | .marked _ | .stored => 1
  | _ => 0

def AgentAt.owesInput : AgentAt → Nat
  | .stored | .counted => 1
  | _ => 0

def FunctionAt.owesInput : FunctionAt → Nat
  | .received => 1
  | _ => 0

def FunctionAt.owesOutput : FunctionAt → Nat
  | .sent => 1
  | _ => 0

def TakerAt.owes : TakerAt → Nat
  | .idle => 0
  | .took => 1
  | .marking ret => ret

namespace Counters

/-- Nobody touches a ring between the hand-over of a node and its count, the agents take nodes of
one packet, and an operation of the function is processed when its input ring is empty. -/
def Guarded (c : Counters) : CountEvent → Prop
  | .publish _ | .collectSource | .recv => c.agent.busy = false
  | .transfer => c.sender = false ∧ c.function ≠ .received ∧
      (c.source.node c.source.mcaHead).cnt = 1
  | .send _ => c.taker = .idle
  | .collect => c.agent.busy = false ∧ c.taker = .idle
  | .take => c.function ≠ .sent ∧ (c.output.node c.output.mcaHead).cnt = 1
  | .txMark | .empty => c.function ≠ .sent
  | .op => c.function ≠ .sent ∧ AllConsumed c.input .recvReady
  | .countPublished | .store | .countSource | .countInput | .countReceived | .countSent
  | .countTaken | .txCount | .complete _ => True

instance (c : Counters) (event : CountEvent) : Decidable (c.Guarded event) := by
  cases event <;> unfold Guarded <;> infer_instance

variable {c c' : Counters} {src inp out : Span}

def AgentSound (c : Counters) (inp : Span) : AgentAt → Prop
  | .idle => True
  | .marked rcache => c.again = 1 ∧ inp.sent < inp.head + eosRingSize ∧
      rcache.state = .recvReady ∧ rcache.cnt = 1
  | .stored | .counted => c.again = 1 ∧ inp.taken < inp.sent

def FunctionSound (c : Counters) (out : Span) : FunctionAt → Prop
  | .idle => True
  | .received => c.agent.busy = false ∧ (c.input.node (c.input.tail - 1)).cnt = 1
  | .sent => c.taker = .idle ∧ out.taken < out.sent

structure Sound (c : Counters) (src inp out : Span) : Prop where
  source : SentRing c.source src
  input : RecvRing c.input inp
  output : SentRing c.output out
  sourceCnt : c.source.pktCnt =
    (src.sent : Int) - src.taken - c.sender.toNat + c.agent.owesSource
  inputCnt : c.input.pktCnt =
    (inp.sent : Int) - inp.taken - c.agent.owesInput + c.function.owesInput
  outputCnt : c.output.pktCnt =
    (out.sent : Int) - out.taken - c.function.owesOutput + c.taker.owes
  sender : c.sender = true → c.agent.busy = false ∧ src.taken < src.sent
  agent : AgentSound c inp c.agent
  function : FunctionSound c out c.function
  taker : c.taker = .took → c.consumer = .agent ∧
    (c.output.node (c.output.mcaHead - 1)).cnt = 1 ∧
    (c.output.node (c.output.mcaHead - 1)).state = .sentDone

theorem initial_sound (consumer : Consumer) (table : InfoTable) (tid : Nat) :
    (initial consumer table tid).Sound ⟨0, 0, 0⟩ ⟨0, 0, 0⟩ ⟨0, 0, 0⟩ := by
  have sent : SentRing .outputInit ⟨0, 0, 0⟩ := by
    refine ⟨⟨le_rfl, le_rfl, Nat.zero_le _, Covers.empty _ _ _, Covers.empty _ _ _, ?_⟩,
      rfl, rfl, rfl⟩
    intro position _ _
    rfl
  have received : RecvRing .inputInit ⟨0, 0, 0⟩ := by
    refine ⟨⟨le_rfl, le_rfl, Nat.zero_le _, Covers.empty _ _ _, Covers.empty _ _ _, ?_⟩,
      rfl, rfl, rfl⟩
    intro position _ _
    exact ⟨rfl, rfl⟩
  exact ⟨sent, received, sent, rfl, rfl, rfl, nofun, trivial, trivial, nofun⟩

theorem idle_of_not_busy {agent : AgentAt} (free : agent.busy = false) : agent = .idle := by
  cases agent with
  | idle => rfl
  | _ => cases free

/-! The sender. -/

section

variable (sound : c.Sound src inp out)

include sound

theorem Sound.publish {n : Node} (free : c.agent.busy = false) (published : c.publish n = some c') :
    c'.Sound { src with sent := src.sent + 1 } inp out := by
  unfold Counters.publish at published
  split_ifs at published with owes
  obtain ⟨ring, isPublished, rfl⟩ := map_eq_some_iff.mp published
  have order := sound.source.cycle.produced_from
  have idle := idle_of_not_busy free
  refine { sound with
    source := sound.source.publish isPublished
    sourceCnt := ?_
    sender := fun _ => ⟨free, Nat.lt_succ_of_le order⟩
    agent := ?_ }
  · have same : ring.pktCnt = c.source.pktCnt := (publishNode_eq isPublished).2.2.2.2.2.2
    have count := sound.sourceCnt
    simp only [owes, Bool.toNat_false, Bool.toNat_true] at count ⊢
    push_cast
    omega
  · show AgentSound _ _ c.agent
    rw [idle]
    trivial

theorem Sound.countPublished (owes : c.sender = true) :
    Sound { c with source := { c.source with pktCnt := c.source.pktCnt + 1 }, sender := false }
      src inp out := by
  refine { sound with
    source := sound.source.recount rfl rfl rfl rfl
    sourceCnt := ?_
    sender := nofun }
  have count := sound.sourceCnt
  simp only [owes, Bool.toNat_false, Bool.toNat_true] at count ⊢
  omega

theorem Sound.collectSource (free : c.agent.busy = false) (collected : c.collectSource = some c') :
    c'.Sound { src with head := src.head + 1 } inp out := by
  unfold Counters.collectSource at collected
  split_ifs at collected with done
  obtain rfl := some.inj collected
  refine { sound with
    source := sound.source.collect done
    agent := ?_ }
  show AgentSound _ _ c.agent
  rw [idle_of_not_busy free]
  trivial

/-! The agent. -/

theorem Sound.not_received (busy : c.agent.busy = true) : c.function ≠ .received := by
  intro received
  have holds := sound.function
  rw [received] at holds
  rw [holds.1] at busy
  cases busy

theorem Sound.not_published (busy : c.agent.busy = true) : ¬c.sender = true := by
  intro owes
  rw [(sound.sender owes).1] at busy
  cases busy

theorem Sound.function_of_taker (notReceived : c.function ≠ .received)
    (taker : c'.taker = c.taker) : FunctionSound c' out c.function := by
  have holds := sound.function
  cases isFunction : c.function with
  | idle => trivial
  | received => exact absurd isFunction notReceived
  | sent =>
    rw [isFunction] at holds
    exact ⟨taker.trans holds.1, holds.2⟩

theorem Sound.transfer (uncounted : c.sender = false) (notReceived : c.function ≠ .received)
    (one : (c.source.node c.source.mcaHead).cnt = 1) (moved : c.transfer = some c') :
    c'.Sound { src with taken := src.taken + 1 } inp out := by
  unfold Counters.transfer at moved
  simp only at moved
  split at moved
  · next idle =>
    split_ifs at moved with ready counts
    obtain ⟨rcache, filled, rfl⟩ := map_eq_some_iff.mp moved
    obtain ⟨sent, free⟩ := not_or.mp ready
    obtain ⟨sameCnt, _, isReady, _⟩ := mcaTransfer_keeps filled
    obtain ⟨taken, waiting⟩ := sound.source.take (not_not.mp sent) (.inl rfl)
    refine { sound with
      source := taken
      sourceCnt := ?_
      inputCnt := ?_
      sender := fun owes => absurd owes (by rw [uncounted]; decide)
      agent := ⟨?_, sound.input.room (not_not.mp free), isReady, sameCnt.trans one⟩
      function := sound.function_of_taker notReceived rfl }
    · have count := sound.sourceCnt
      simp only [idle, AgentAt.owesSource] at count ⊢
      push_cast
      exact count.trans (by omega)
    · have count := sound.inputCnt
      rw [idle] at count
      exact count
    · show ((c.source.setState c.source.mcaHead .sentDone).node (c.source.mcaHead + 1 - 1)).cnt = 1
      rw [c.source.node_marked]
      exact one
  · cases moved

theorem Sound.store (stored : c.store = some c') :
    c'.Sound src { inp with sent := inp.sent + 1 } out := by
  unfold Counters.store at stored
  split at stored
  · next rcache marked =>
    obtain rfl := some.inj stored
    have busy : c.agent.busy = true := by rw [marked]; rfl
    have holds := sound.agent
    rw [marked] at holds
    obtain ⟨again, space, ready, one⟩ := holds
    have order := sound.input.cycle.produced_from
    refine { sound with
      input := sound.input.store space ready one
      sourceCnt := ?_
      inputCnt := ?_
      sender := fun owes => absurd owes (sound.not_published busy)
      agent := ⟨again, Nat.lt_succ_of_le order⟩
      function := sound.function_of_taker (sound.not_received busy) rfl }
    · have count := sound.sourceCnt
      rw [marked] at count
      exact count
    · have count := sound.inputCnt
      simp only [marked, AgentAt.owesInput] at count ⊢
      push_cast
      exact count.trans (by omega)
  · cases stored

theorem Sound.countSource (counted : c.countSource = some c') : c'.Sound src inp out := by
  unfold Counters.countSource at counted
  split at counted
  · next stored =>
    obtain rfl := some.inj counted
    have busy : c.agent.busy = true := by rw [stored]; rfl
    have holds := sound.agent
    rw [stored] at holds
    obtain ⟨again, waiting⟩ := holds
    refine { sound with
      source := sound.source.recount rfl rfl rfl rfl
      sourceCnt := ?_
      inputCnt := ?_
      sender := fun owes => absurd owes (sound.not_published busy)
      agent := ⟨again, waiting⟩
      function := sound.function_of_taker (sound.not_received busy) rfl }
    · have count := sound.sourceCnt
      simp only [stored, AgentAt.owesSource, again] at count ⊢
      omega
    · have count := sound.inputCnt
      rw [stored] at count
      exact count
  · cases counted

theorem Sound.countInput (counted : c.countInput = some c') : c'.Sound src inp out := by
  unfold Counters.countInput at counted
  split at counted
  · next isCounted =>
    obtain rfl := some.inj counted
    have busy : c.agent.busy = true := by rw [isCounted]; rfl
    have holds := sound.agent
    rw [isCounted] at holds
    refine { sound with
      input := sound.input.recount rfl rfl rfl rfl
      sourceCnt := ?_
      inputCnt := ?_
      sender := fun owes => absurd owes (sound.not_published busy)
      agent := trivial
      function := sound.function_of_taker (sound.not_received busy) rfl }
    · have count := sound.sourceCnt
      rw [isCounted] at count
      exact count
    · have count := sound.inputCnt
      simp only [isCounted, AgentAt.owesInput, holds.1] at count ⊢
      omega
  · cases counted

/-! The function. -/

theorem Sound.recv (free : c.agent.busy = false) (received : c.recv = some c') :
    c'.Sound src { inp with taken := inp.taken + 1 } out := by
  have idle := idle_of_not_busy free
  unfold Counters.recv at received
  split_ifs at received with resting
  split at received
  · next ring sent returned =>
    obtain rfl := some.inj received
    have empty : RecvRing { c.input with cached := .zero } inp :=
      sound.input.recount rfl rfl rfl rfl
    obtain ⟨taken, waiting, one⟩ := empty.recv rfl returned
    refine { sound with
      input := taken.recount rfl rfl rfl rfl
      inputCnt := ?_
      outputCnt := ?_
      agent := ?_
      function := ⟨free, one⟩ }
    · have count := sound.inputCnt
      simp only [not_not.mp resting, FunctionAt.owesInput] at count ⊢
      push_cast
      exact count.trans (by omega)
    · have count := sound.outputCnt
      rw [not_not.mp resting] at count
      exact count
    · show AgentSound _ _ c.agent
      rw [idle]
      trivial
  · cases received

theorem Sound.countReceived (counted : c.countReceived = some c') : c'.Sound src inp out := by
  unfold Counters.countReceived at counted
  split_ifs at counted with owes
  obtain rfl := some.inj counted
  have holds := sound.function
  rw [owes] at holds
  refine { sound with
    input := sound.input.recount rfl rfl rfl rfl
    inputCnt := ?_
    outputCnt := ?_
    function := trivial }
  · have count := sound.inputCnt
    simp only [owes, FunctionAt.owesInput, holds.2] at count ⊢
    omega
  · have count := sound.outputCnt
    rw [owes] at count
    exact count

theorem Sound.send {n : Node} (idle : c.taker = .idle) (published : c.send n = some c') :
    c'.Sound src inp { out with sent := out.sent + 1 } := by
  unfold Counters.send at published
  split_ifs at published with resting
  obtain ⟨ring, isPublished, rfl⟩ := map_eq_some_iff.mp published
  have order := sound.output.cycle.produced_from
  refine { sound with
    output := sound.output.publish isPublished
    inputCnt := ?_
    outputCnt := ?_
    function := ⟨idle, Nat.lt_succ_of_le order⟩
    taker := fun took => absurd took (by show c.taker ≠ _; rw [idle]; decide) }
  · have count := sound.inputCnt
    rw [not_not.mp resting] at count
    exact count
  · have same : ring.pktCnt = c.output.pktCnt := (publishNode_eq isPublished).2.2.2.2.2.2
    have count := sound.outputCnt
    simp only [not_not.mp resting, FunctionAt.owesOutput] at count ⊢
    push_cast
    omega

theorem Sound.countSent (owes : c.function = .sent) :
    Sound { c with output := { c.output with pktCnt := c.output.pktCnt + 1 }, function := .idle }
      src inp out := by
  refine { sound with
    output := sound.output.recount rfl rfl rfl rfl
    inputCnt := ?_
    outputCnt := ?_
    function := trivial }
  · have count := sound.inputCnt
    rw [owes] at count
    exact count
  · have count := sound.outputCnt
    simp only [owes, FunctionAt.owesOutput] at count ⊢
    omega

theorem Sound.collect (free : c.agent.busy = false) (idle : c.taker = .idle)
    (collected : c.collect = some c') :
    c'.Sound src { inp with head := inp.head + 1 } { out with head := out.head + 1 } := by
  unfold Counters.collect at collected
  split_ifs at collected with ready
  obtain ⟨resting, isCollectable⟩ := ready
  obtain ⟨rings, isCollected, rfl⟩ := map_eq_some_iff.mp collected
  unfold eosPktCollectOne at isCollected
  simp only at isCollected
  split_ifs at isCollected
  obtain rfl := some.inj isCollected
  unfold collectable at isCollectable
  obtain ⟨received, sent⟩ := of_decide_eq_true isCollectable
  have done := received.resolve_left (sound.input.not_empty _)
  refine { sound with
    input := sound.input.collect done rfl rfl
    output := sound.output.collect sent
    agent := ?_
    function := ?_
    taker := fun took => absurd took (by show c.taker ≠ _; rw [idle]; decide) }
  · show AgentSound _ _ c.agent
    rw [idle_of_not_busy free]
    trivial
  · show FunctionSound _ _ c.function
    rw [resting]
    trivial

/-! The consumer of the output ring. -/

theorem Sound.sent_waits (sent : c.function = .sent) : c.taker = .idle ∧ out.taken < out.sent := by
  have holds := sound.function
  rw [sent] at holds
  exact holds

theorem Sound.function_of_input {out' : Span} (agent : c'.agent = c.agent)
    (input : c'.input = c.input)
    (sent : c.function = .sent → c'.taker = .idle ∧ out'.taken < out'.sent) :
    FunctionSound c' out' c.function := by
  have holds := sound.function
  cases isFunction : c.function with
  | idle => trivial
  | received =>
    rw [isFunction] at holds
    unfold FunctionSound
    rw [agent, input]
    exact holds
  | sent => exact sent isFunction

theorem Sound.take (notSent : c.function ≠ .sent) (one : (c.output.node c.output.mcaHead).cnt = 1)
    (took : c.take = some c') : c'.Sound src inp { out with taken := out.taken + 1 } := by
  unfold Counters.take at took
  simp only at took
  split_ifs at took with ready
  obtain ⟨isAgent, idle, isReady, _⟩ := ready
  obtain rfl := some.inj took
  obtain ⟨taken, waiting⟩ := sound.output.take isReady (.inl rfl)
  refine { sound with
    output := taken
    outputCnt := ?_
    function := ?_
    taker := fun _ => ⟨isAgent, ?_⟩ }
  · have count := sound.outputCnt
    simp only [idle, TakerAt.owes] at count ⊢
    push_cast
    exact count.trans (by omega)
  · exact sound.function_of_input rfl rfl fun sent => absurd sent notSent
  · show ((c.output.setState c.output.mcaHead .sentDone).node (c.output.mcaHead + 1 - 1)).cnt = 1 ∧
      ((c.output.setState c.output.mcaHead .sentDone).node (c.output.mcaHead + 1 - 1)).state =
        .sentDone
    rw [c.output.node_marked]
    exact ⟨one, rfl⟩

theorem Sound.countTaken (counted : c.countTaken = some c') : c'.Sound src inp out := by
  unfold Counters.countTaken at counted
  split_ifs at counted with took
  obtain rfl := some.inj counted
  obtain ⟨_, one, _⟩ := sound.taker took
  refine { sound with
    output := sound.output.recount rfl rfl rfl rfl
    outputCnt := ?_
    function := ?_
    taker := nofun }
  · have count := sound.outputCnt
    simp only [took, TakerAt.owes, one] at count ⊢
    omega
  · exact sound.function_of_input rfl rfl fun sent => ⟨rfl, (sound.sent_waits sent).2⟩

theorem Sound.txMark (notSent : c.function ≠ .sent) (marked : c.txMark = some c') :
    c'.Sound src inp { out with taken := out.taken + 1 } := by
  unfold Counters.txMark at marked
  simp only at marked
  by_cases ready : c.consumer = .card ∧ (c.output.node c.output.mcaHead).state = .sentReady
  swap
  · rw [if_neg ready] at marked
    cases marked
  rw [if_pos ready] at marked
  obtain rfl := some.inj marked
  obtain ⟨isCard, isReady⟩ := ready
  have mark : (if (c.output.node c.output.mcaHead).cnt ≠ 0 then PktState.txing else .sentDone) =
      .sentDone ∨ (if (c.output.node c.output.mcaHead).cnt ≠ 0 then PktState.txing else .sentDone) =
      .txing := by
    split_ifs <;> simp
  have owed : c.taker.owes = TakerAt.ret c.taker := by
    cases isTaker : c.taker with
    | idle => rfl
    | took =>
      rw [(sound.taker isTaker).1] at isCard
      cases isCard
    | marking ret => rfl
  obtain ⟨taken, waiting⟩ := sound.output.take isReady mark
  refine { sound with
    output := taken
    outputCnt := ?_
    function := ?_
    taker := nofun }
  · have count := sound.outputCnt
    rw [owed] at count
    show c.output.pktCnt = _
    simp only [TakerAt.owes]
    push_cast
    omega
  · exact sound.function_of_input rfl rfl fun sent => absurd sent notSent

theorem Sound.txCount (counted : c.txCount = some c') : c'.Sound src inp out := by
  unfold Counters.txCount at counted
  split at counted
  · next ret marking =>
    obtain rfl := some.inj counted
    refine { sound with
      output := sound.output.recount rfl rfl rfl rfl
      outputCnt := ?_
      function := ?_
      taker := nofun }
    · have count := sound.outputCnt
      simp only [marking, TakerAt.owes] at count ⊢
      omega
    · exact sound.function_of_input rfl rfl fun sent => ⟨rfl, (sound.sent_waits sent).2⟩
  · cases counted

theorem Sound.complete {i : Nat} (inside : i < eosRingSize) (completed : c.complete i = some c') :
    c'.Sound src inp out := by
  unfold Counters.complete at completed
  split_ifs at completed with txing
  obtain rfl := some.inj completed
  refine { sound with
    output := sound.output.complete inside txing
    function := ?_
    taker := fun took => ?_ }
  · exact sound.function_of_input rfl rfl sound.sent_waits
  · obtain ⟨isAgent, one, done⟩ := sound.taker took
    have different : ringIndex (c.output.mcaHead - 1) ≠ i := by
      intro same
      unfold Ring.node at done
      rw [same, txing] at done
      cases done
    have unchanged : (cosTxCb c.output i).node (c.output.mcaHead - 1) =
        c.output.node (c.output.mcaHead - 1) := update_of_ne different ..
    show _ ∧ ((cosTxCb c.output i).node (c.output.mcaHead - 1)).cnt = 1 ∧
      ((cosTxCb c.output i).node (c.output.mcaHead - 1)).state = .sentDone
    rw [unchanged]
    exact ⟨isAgent, one, done⟩

/-! The deadline. -/

theorem Sound.op (processed : c.op = some c') : c'.Sound src inp out := by
  unfold Counters.op at processed
  split at processed
  · next idle =>
    obtain ⟨table, _, rfl⟩ := map_eq_some_iff.mp processed
    exact { sound with }
  · cases processed

theorem Sound.empty (looked : c.empty = some c') : c'.Sound src inp out := by
  unfold Counters.empty at looked
  split at looked
  · next idle =>
    obtain rfl := some.inj looked
    exact { sound with }
  · cases looked

theorem Sound.next {event : CountEvent} (guarded : c.Guarded event)
    (taken : c.next event = some c') : ∃ src' inp' out', c'.Sound src' inp' out' := by
  cases event with
  | publish n => exact ⟨_, _, _, sound.publish guarded taken⟩
  | countPublished =>
    simp only [Counters.next] at taken
    split_ifs at taken with owes
    obtain rfl := some.inj taken
    exact ⟨_, _, _, sound.countPublished owes⟩
  | collectSource => exact ⟨_, _, _, sound.collectSource guarded taken⟩
  | transfer => exact ⟨_, _, _, sound.transfer guarded.1 guarded.2.1 guarded.2.2 taken⟩
  | store => exact ⟨_, _, _, sound.store taken⟩
  | countSource => exact ⟨_, _, _, sound.countSource taken⟩
  | countInput => exact ⟨_, _, _, sound.countInput taken⟩
  | recv => exact ⟨_, _, _, sound.recv guarded taken⟩
  | countReceived => exact ⟨_, _, _, sound.countReceived taken⟩
  | send n => exact ⟨_, _, _, sound.send guarded taken⟩
  | countSent =>
    simp only [Counters.next] at taken
    split_ifs at taken with owes
    obtain rfl := some.inj taken
    exact ⟨_, _, _, sound.countSent owes⟩
  | collect => exact ⟨_, _, _, sound.collect guarded.1 guarded.2 taken⟩
  | take => exact ⟨_, _, _, sound.take guarded.1 guarded.2 taken⟩
  | countTaken => exact ⟨_, _, _, sound.countTaken taken⟩
  | txMark => exact ⟨_, _, _, sound.txMark guarded taken⟩
  | txCount => exact ⟨_, _, _, sound.txCount taken⟩
  | complete node => exact ⟨_, _, _, sound.complete node.isLt taken⟩
  | op => exact ⟨_, _, _, sound.op taken⟩
  | empty => exact ⟨_, _, _, sound.empty taken⟩

theorem Sound.nonneg : 0 ≤ c.source.pktCnt ∧ 0 ≤ c.input.pktCnt ∧ 0 ≤ c.output.pktCnt := by
  have sourceOrder := sound.source.cycle.produced_from
  have inputOrder := sound.input.cycle.produced_from
  have outputOrder := sound.output.cycle.produced_from
  rw [sound.sourceCnt, sound.inputCnt, sound.outputCnt]
  refine ⟨?_, ?_, ?_⟩
  · cases owes : c.sender with
    | false =>
      simp only [Bool.toNat_false]
      omega
    | true =>
      have waiting := (sound.sender owes).2
      simp only [Bool.toNat_true]
      omega
  · have holds := sound.agent
    cases isAgent : c.agent with
    | idle | marked =>
      simp only [AgentAt.owesInput]
      omega
    | stored | counted =>
      rw [isAgent] at holds
      have waiting := holds.2
      simp only [AgentAt.owesInput]
      omega
  · cases isFunction : c.function with
    | idle | received =>
      simp only [FunctionAt.owesOutput]
      omega
    | sent =>
      have waiting := (sound.sent_waits isFunction).2
      simp only [FunctionAt.owesOutput]
      omega

end

variable {event : CountEvent}

theorem next_table (taken : c.next event = some c') :
    event = .op ∨ event = .empty ∨ c'.table = c.table := by
  cases event with
  | op => exact .inl rfl
  | empty => exact .inr (.inl rfl)
  | _ =>
    refine .inr (.inr ?_)
    simp only [Counters.next, Counters.publish, Counters.collectSource, Counters.transfer,
      Counters.store, Counters.countSource, Counters.countInput, Counters.recv,
      Counters.countReceived, Counters.send, Counters.collect, Counters.take,
      Counters.countTaken, Counters.txMark, Counters.txCount, Counters.complete] at taken
    grind [map_eq_some_iff]

theorem table_of_next (taken : c.next event = some c')
    (changed : (c'.table c.slot).deadline ≠ (c.table c.slot).deadline) :
    c.agent.busy = false ∧ (event = .op ∧ c.output.pktCnt ≤ 0 ∨
      event = .empty ∧ c.output.pktCnt = 0 ∧ c.input.pktCnt = 0) := by
  rcases next_table taken with rfl | rfl | same
  · simp only [Counters.next, Counters.op] at taken
    split at taken
    · next idle =>
      obtain ⟨table, processed, rfl⟩ := map_eq_some_iff.mp taken
      refine ⟨by rw [idle]; rfl, .inl ⟨rfl, Int.not_lt.mp fun positive => changed ?_⟩⟩
      unfold mcaXcpuOp at processed
      simp only [gt_iff_lt, positive, if_true] at processed
      split_ifs at processed
      obtain rfl := some.inj processed
      show (update c.table c.slot _ c.slot).deadline = _
      rw [update_self]
      rfl
    · cases taken
  · simp only [Counters.next, Counters.empty] at taken
    split at taken
    · next idle =>
      obtain rfl := some.inj taken
      unfold resetEmpty at changed
      simp only at changed
      split_ifs at changed with zero
      · exact ⟨by rw [idle]; rfl, .inr ⟨rfl, zero.2⟩⟩
      · exact absurd rfl changed
    · cases taken
  · rw [same] at changed
    exact absurd rfl changed

theorem Sound.reset (sound : c.Sound src inp out) (guarded : c.Guarded event)
    (taken : c.next event = some c')
    (changed : (c'.table c.slot).deadline ≠ (c.table c.slot).deadline) :
    AllConsumed c.input .recvReady ∧ AllConsumed c.output .sentReady := by
  have inputOrder := sound.input.cycle.produced_from
  have outputOrder := sound.output.cycle.produced_from
  have inputCnt := sound.inputCnt
  have outputCnt := sound.outputCnt
  have settled : c.function ≠ .sent → c.output.pktCnt ≤ 0 → AllConsumed c.output .sentReady := by
    intro notSent zero
    have owes : c.function.owesOutput = 0 := by
      cases isFunction : c.function with
      | idle | received => rfl
      | sent => exact absurd isFunction notSent
    rw [owes] at outputCnt
    exact sound.output.consumed_iff.mpr (by omega)
  obtain ⟨free, ⟨rfl, low⟩ | ⟨rfl, outputZero, inputZero⟩⟩ := table_of_next taken changed
  · exact ⟨guarded.2, settled guarded.1 low⟩
  · rw [idle_of_not_busy free] at inputCnt
    refine ⟨sound.input.consumed_iff.mpr ?_, settled guarded (Int.le_of_eq outputZero)⟩
    simp only [AgentAt.owesInput] at inputCnt
    omega

/-- In a run of guarded steps no counter is negative, a counter that nobody has still to change is
zero exactly when every published node of its ring has been consumed, and the agent forgets the
deadline of the function only when the rings of the function are empty. -/
theorem counters_exact {consumer : Consumer} {table : InfoTable} {tid : Nat}
    {events : List CountEvent} {c : Counters}
    (meets : Meets Guarded Counters.next (initial consumer table tid) events)
    (reached : exec Counters.next (initial consumer table tid) events = some c) :
    (0 ≤ c.source.pktCnt ∧ 0 ≤ c.input.pktCnt ∧ 0 ≤ c.output.pktCnt) ∧
      (c.sender = false → c.agent.owesSource = 0 →
        (c.source.pktCnt = 0 ↔ AllConsumed c.source .sentReady)) ∧
      (c.agent.owesInput = 0 → c.function.owesInput = 0 →
        (c.input.pktCnt = 0 ↔ AllConsumed c.input .recvReady)) ∧
      (c.function.owesOutput = 0 → c.taker.owes = 0 →
        (c.output.pktCnt = 0 ↔ AllConsumed c.output .sentReady)) ∧
      ∀ event c', c.Guarded event → c.next event = some c' →
        (c'.table c.slot).deadline ≠ (c.table c.slot).deadline →
        AllConsumed c.input .recvReady ∧ AllConsumed c.output .sentReady := by
  have kept : ∀ (before : Counters) (event : CountEvent) (after : Counters),
      (∃ src inp out, before.Sound src inp out) → before.Guarded event →
      before.next event = some after → ∃ src inp out, after.Sound src inp out := by
    rintro before event after ⟨_, _, _, sound⟩ guarded taken
    exact sound.next guarded taken
  obtain ⟨src, inp, out, sound⟩ :=
    exec_invariant kept ⟨_, _, _, initial_sound consumer table tid⟩ meets reached
  have sourceCnt := sound.sourceCnt
  have inputCnt := sound.inputCnt
  have outputCnt := sound.outputCnt
  refine ⟨sound.nonneg, fun counted owes => ?_, fun owes owes' => ?_, fun owes owes' => ?_,
    fun event c' guarded taken changed => sound.reset guarded taken changed⟩
  · rw [sound.source.consumed_iff]
    rw [counted, owes, Bool.toNat_false] at sourceCnt
    omega
  · rw [sound.input.consumed_iff]
    rw [owes, owes'] at inputCnt
    omega
  · rw [sound.output.consumed_iff]
    rw [owes, owes'] at outputCnt
    omega

def nodeOf (cnt : Nat) : Node :=
  ⟨cnt, cnt, 7, 3, fun j => ⟨nodeBuffer 0 j, 64, 0⟩, .sentReady⟩

def working : InfoTable := fun slot => ⟨5, slot, true, false⟩

def onePacket : List CountEvent :=
  [.publish (nodeOf 1), .countPublished, .transfer, .store, .countSource, .countInput,
    .collectSource,
    .recv, .countReceived, .send (nodeOf 1), .countSent, .txMark, .txCount,
    .complete ⟨0, eosRingSize_pos⟩, .collect]

theorem counters_exact_one :
    ∃ c, exec Counters.next (initial .card working 0) onePacket = some c ∧
      (0 ≤ c.source.pktCnt ∧ 0 ≤ c.input.pktCnt ∧ 0 ≤ c.output.pktCnt) ∧
      AllConsumed c.source .sentReady ∧ AllConsumed c.output .sentReady := by
  have run : (exec Counters.next (initial .card working 0) onePacket).map (fun c =>
      (c.source.pktCnt, c.output.pktCnt, c.sender, c.agent.owesSource, c.function.owesOutput,
        c.taker.owes)) = some (0, 0, false, 0, 0, 0) := by decide +kernel
  obtain ⟨c, reached, seen⟩ := Option.map_eq_some_iff.mp run
  simp only [Prod.mk.injEq] at seen
  obtain ⟨source, output, counted, agent, function, taker⟩ := seen
  obtain ⟨nonneg, sourceZero, _, outputZero, _⟩ := counters_exact (by decide +kernel) reached
  exact ⟨c, reached, nonneg, (sourceZero counted agent).mp source,
    (outputZero function taker).mp output⟩

def twoPackets : List CountEvent :=
  [.publish (nodeOf 2), .countPublished, .transfer, .store, .countSource]

def uncounted : List CountEvent := [.publish (nodeOf 1), .transfer, .store, .countSource]

def oneWaits : List CountEvent :=
  [.publish (nodeOf 2), .countPublished, .publish (nodeOf 1), .countPublished, .transfer, .store,
    .countSource, .countInput]

def inputWaits : List CountEvent :=
  [.publish (nodeOf 1), .countPublished, .transfer, .store, .countSource, .countInput]

/-- A counter is negative, with a node of two packets and with a count that comes late; it is zero
although a node waits; and a deadline is forgotten although a node waits in the input ring. -/
theorem counters_exact_wrong :
    (∃ c, exec Counters.next (initial .card working 0) twoPackets = some c ∧
      c.source.pktCnt = -1) ∧
    (∃ c, exec Counters.next (initial .card working 0) uncounted = some c ∧
      c.source.pktCnt = -1) ∧
    (∃ c, exec Counters.next (initial .card working 0) oneWaits = some c ∧
      c.sender = false ∧ c.agent.owesSource = 0 ∧ c.source.pktCnt = 0 ∧
      ¬AllConsumed c.source .sentReady) ∧
    ∃ c c', exec Counters.next (initial .card working 0) inputWaits = some c ∧
      c.next .op = some c' ∧ (c.table c.slot).deadline = 5 ∧
      (c'.table c.slot).deadline = eosMaxDeadline ∧ ¬AllConsumed c.input .recvReady := by
  refine ⟨?_, ?_, ?_, ?_⟩
  · exact Option.map_eq_some_iff.mp (show (exec Counters.next (initial .card working 0)
      twoPackets).map (fun c => c.source.pktCnt) = some (-1) by decide +kernel)
  · exact Option.map_eq_some_iff.mp (show (exec Counters.next (initial .card working 0)
      uncounted).map (fun c => c.source.pktCnt) = some (-1) by decide +kernel)
  · have run : (exec Counters.next (initial .card working 0) oneWaits).map (fun c =>
        (c.sender, c.agent.owesSource, c.source.pktCnt, decide (AllConsumed c.source .sentReady))) =
        some (false, 0, 0, false) := by decide +kernel
    obtain ⟨c, reached, seen⟩ := Option.map_eq_some_iff.mp run
    simp only [Prod.mk.injEq, decide_eq_false_iff_not] at seen
    exact ⟨c, reached, seen⟩
  · obtain ⟨c, c', reached, processed, seen⟩ := observed
      (show ((exec Counters.next (initial .card working 0) inputWaits).bind fun c =>
        (c.next .op).map fun c' => ((c.table c.slot).deadline, (c'.table c.slot).deadline,
          decide (AllConsumed c.input .recvReady))) = some (5, eosMaxDeadline, false) by
            decide +kernel)
    simp only [Prod.mk.injEq, decide_eq_false_iff_not] at seen
    exact ⟨c, c', reached, processed, seen⟩

end Counters

end Composite.Eos
