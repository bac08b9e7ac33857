import Composite.Eos.Counters.Rings
import Composite.Eos.Tx.Life
import Composite.Lib.Transition
import Mathlib.Algebra.BigOperators.Fin

/-!
# Every node is sent once

Each step of the transmitter, of the functions and of the card keeps the lives of the nodes in
order, so that no report can be overwritten by a later mark.
-/

namespace Composite.Eos

open Transition Function List

namespace Tx

def waiting (s : Tx) (p : NodeRef) : Nat := ∑ port, (s.batches port).countP (·.rn = p)

def passing (s : Tx) (p : NodeRef) : Passing :=
  match s.stage with
  | .adding ring i => if p = s.current ring then .adding i s.scache.cnt else .no
  | .posting _ (.add ring i) => if p = s.current ring then .posting i s.scache.cnt else .no
  | _ => .no

def NodeSoundAt (s : Tx) (p : NodeRef) : Prop :=
  NodeSound (s.node p) (s.life p) (s.waiting p) (s.card.count p) (s.passing p)

variable {s s' : Tx} {n : Node} {ring i : Nat} {port : Fin numNicPorts} {r : Ring}

theorem NodeSoundAt.of_eq {p : NodeRef} {life : Life} {waiting card : Nat} {passing : Passing}
    (sound : NodeSound n life waiting card passing) (node : s.node p = n)
    (lived : s.life p = life) (waits : s.waiting p = waiting) (posted : s.card.count p = card)
    (passed : s.passing p = passing) : s.NodeSoundAt p := by
  unfold NodeSoundAt
  rw [node, lived, waits, posted, passed]
  exact sound

def Flushed (s : Tx) (port : Fin numNicPorts) : Prop :=
  match s.stage with
  | .idle => True
  | .flush k => port < k
  | .posting k .flush => port < k
  | _ => False

/-- In every ring the nodes before `mca_head` are marked, and those from there on are ready. -/
def Lined (s : Tx) : Prop := ∀ ring, ∃ span, SentRing (s.rings ring) span

structure Sound (s : Tx) : Prop where
  nodes : ∀ p, s.NodeSoundAt p
  rings : s.Lined
  flushed : ∀ port, s.Flushed port → s.batches port = []

structure OnlyAt (s s' : Tx) (target : NodeRef) : Prop where
  node : ∀ p, p ≠ target → s'.node p = s.node p
  life : ∀ p, p ≠ target → s'.life p = s.life p
  waiting : ∀ p, p ≠ target → s'.waiting p = s.waiting p
  card : ∀ p, p ≠ target → s'.card.count p = s.card.count p
  passing : ∀ p, p ≠ target → s'.passing p = s.passing p

theorem OnlyAt.nodes {target : NodeRef} (only : OnlyAt s s' target) (nodes : ∀ p, s.NodeSoundAt p)
    (there : s'.NodeSoundAt target) : ∀ p, s'.NodeSoundAt p := by
  intro p
  by_cases same : p = target
  · subst same
    exact there
  · unfold NodeSoundAt
    rw [only.node p same, only.life p same, only.waiting p same, only.card p same,
      only.passing p same]
    exact nodes p

theorem node_setRing {cell : Nat} (nodes : r.nodes = update (s.rings ring).nodes cell n)
    (p : NodeRef) : (s.setRing ring r).node p = if p = ⟨ring, cell⟩ then n else s.node p := by
  obtain ⟨i, j⟩ := p
  unfold node setRing
  simp only [NodeRef.mk.injEq]
  by_cases here : i = ring
  · subst here
    rw [update_self, nodes, update_apply]
    simp only [true_and]
  · rw [update_of_ne here, if_neg fun both => here both.1]

theorem current_setRing (head : r.mcaHead = (s.rings ring).mcaHead) (other : Nat) :
    (s.setRing ring r).current other = s.current other := by
  simp only [current, setRing]
  by_cases here : other = ring
  · subst here
    rw [update_self, head]
  · rw [update_of_ne here]

theorem waiting_update (s : Tx) (port : Fin numNicPorts) (batch : List TxPkt) (p : NodeRef) :
    { s with batches := update s.batches port batch }.waiting p +
        (s.batches port).countP (·.rn = p) =
      s.waiting p + batch.countP (·.rn = p) := by
  unfold waiting
  rw [← Finset.add_sum_erase _ _ (Finset.mem_univ port),
    ← Finset.add_sum_erase _ _ (Finset.mem_univ port)]
  have others : ∑ q ∈ Finset.univ.erase port,
      (update s.batches port batch q).countP (·.rn = p) =
      ∑ q ∈ Finset.univ.erase port, (s.batches q).countP (·.rn = p) := by
    refine Finset.sum_congr rfl fun q member => ?_
    rw [update_of_ne (Finset.ne_of_mem_erase member)]
  rw [others]
  simp only [update_self]
  omega

/-- A step that writes a node of a ring and its life, and nothing that the transmitter has. -/
theorem OnlyAt.write (s : Tx) (ring cell : Nat) (r : Ring) (life : Life)
    (nodes : r.nodes = update (s.rings ring).nodes cell n)
    (head : r.mcaHead = (s.rings ring).mcaHead) :
    OnlyAt s ((s.setRing ring r).setLife ⟨ring, cell⟩ life) ⟨ring, cell⟩ ∧
      ((s.setRing ring r).setLife ⟨ring, cell⟩ life).node ⟨ring, cell⟩ = n ∧
      ((s.setRing ring r).setLife ⟨ring, cell⟩ life).passing = s.passing := by
  have passed : ((s.setRing ring r).setLife ⟨ring, cell⟩ life).passing = s.passing := by
    funext p
    unfold Tx.passing
    have same : ∀ other, ((s.setRing ring r).setLife ⟨ring, cell⟩ life).current other =
        s.current other := current_setRing head
    simp only [same]
    rfl
  refine ⟨⟨fun p other => ?_, fun p other => ?_, fun _ _ => rfl, fun _ _ => rfl,
    fun p _ => by rw [passed]⟩, ?_, passed⟩
  · exact (node_setRing nodes p).trans (if_neg other)
  · exact update_of_ne other ..
  · exact (node_setRing nodes _).trans (if_pos rfl)

theorem setLife_self (s : Tx) (p : NodeRef) (life : Life) : (s.setLife p life).life p = life :=
  update_self ..

theorem Lined.set (lined : s.Lined) {span : Span} (there : SentRing r span) :
    (s.setRing ring r).Lined := by
  intro other
  by_cases here : other = ring
  · subst here
    exact ⟨span, by simpa only [setRing, update_self] using there⟩
  · simpa only [setRing, update_of_ne here] using lined other

theorem Sound.publish (sound : s.Sound) (stepped : s.next (.publish ring n) = some s') :
    s'.Sound := by
  obtain ⟨r', published, rfl⟩ := Option.map_eq_some_iff.mp stepped
  obtain ⟨span, lined⟩ := sound.rings ring
  obtain ⟨⟨ready, counted⟩, isEmpty, nodes, -, head, -, -⟩ := publishNode_eq published
  obtain ⟨only, node, passed⟩ := OnlyAt.write s ring (ringIndex (s.rings ring).tail)
    { r' with pktCnt := r'.pktCnt + 1 } ⟨n.cnt.toNat, 0, [.sentReady]⟩ nodes head
  obtain ⟨nothing, still⟩ :=
    (sound.nodes ⟨ring, ringIndex (s.rings ring).tail⟩).nothing_of_empty isEmpty
  refine ⟨only.nodes sound.nodes ?_, ?_, sound.flushed⟩
  · refine .of_eq (.ready (n := { n with idx := 0 }) ready nothing
      (Int.toNat_of_nonneg counted).symm rfl rfl) node (setLife_self ..) rfl rfl ?_
    rw [passed, still]
  · exact sound.rings.set ((lined.publish published).recount rfl rfl rfl rfl)

theorem Sound.collect (sound : s.Sound) (stepped : s.next (.collect ring) = some s') :
    s'.Sound := by
  simp only [next] at stepped
  split at stepped
  · next state =>
    cases stepped
    let p : NodeRef := ⟨ring, ringIndex (s.rings ring).head⟩
    obtain ⟨span, lined⟩ := sound.rings ring
    obtain ⟨only, node, passed⟩ := OnlyAt.write s ring _
      { (s.rings ring).setState (s.rings ring).head .empty with head := (s.rings ring).head + 1 }
      { s.life p with writes := (s.life p).writes ++ [.empty] } rfl rfl
    refine ⟨only.nodes sound.nodes ?_, sound.rings.set (lined.collect state), sound.flushed⟩
    exact .of_eq ((sound.nodes p).collect state) node (setLife_self ..) rfl rfl (congrFun passed p)
  · cases stepped

theorem Sound.complete {p : NodeRef} (sound : s.Sound) (stepped : s.next (.complete p) = some s') :
    s'.Sound := by
  simp only [next, Tx.complete] at stepped
  split at stepped
  · next member =>
    cases stepped
    obtain ⟨span, lined⟩ := sound.rings p.ring
    obtain ⟨only, node, passed⟩ := OnlyAt.write s p.ring p.cell (cosTxCb (s.rings p.ring) p.cell)
      { s.life p with
        completed := (s.life p).completed + 1
        writes := if (s.node p).cnt - 1 = 0 then (s.life p).writes ++ [.sentDone]
          else (s.life p).writes } rfl rfl
    have counted : s.card.count p = (s.card.erase p).count p + 1 := by
      rw [count_erase_self]
      have positive := count_pos_iff.mpr member
      omega
    have others : OnlyAt s
        { (s.setRing p.ring _).setLife p _ with card := s.card.erase p } p :=
      ⟨only.node, only.life, only.waiting, fun _ other => count_erase_of_ne other, only.passing⟩
    have before := sound.nodes p
    unfold NodeSoundAt at before
    rw [counted] at before
    refine ⟨others.nodes sound.nodes ?_, ?_, sound.flushed⟩
    · exact .of_eq before.complete node (setLife_self _ p _) rfl rfl (congrFun passed p)
    · by_cases last : p.cell < eosRingSize ∧ (s.node p).cnt - 1 = 0
      · exact sound.rings.set (lined.complete last.1 (before.txing_of_last last.2))
      · refine sound.rings.set (lined.restate (fun i inside => ?_) rfl rfl rfl)
        -- the state changes only with the last packet
        unfold cosTxCb
        simp only [update_apply]
        split
        · next here =>
          subst here
          exact if_neg fun zero => last ⟨inside, zero⟩
        · rfl
  · cases stepped

/-! The steps of the transmitter. -/

theorem passing_scanning (stage : s.stage = .scanning ring) (p : NodeRef) : s.passing p = .no := by
  unfold passing
  rw [stage]

theorem passing_adding (stage : s.stage = .adding ring i) (p : NodeRef) :
    s.passing p = if p = s.current ring then .adding i s.scache.cnt else .no := by
  unfold passing
  rw [stage]

theorem Sound.scan (sound : s.Sound) (stage : s.stage = .scanning ring) (stepped : s.go = some s') :
    s'.Sound := by
  simp only [go, stage] at stepped
  split at stepped
  · cases stepped
    have keep : ∀ p, (s.setRing ring { s.rings ring with
        pktCnt := (s.rings ring).pktCnt - s.ret }).node p = s.node p := by
      intro p
      simp only [node, setRing, update_apply]
      split
      · next here => rw [here]
      · rfl
    obtain ⟨span, lined⟩ := sound.rings ring
    refine ⟨fun p => ?_, sound.rings.set (lined.recount rfl rfl rfl rfl),
      fun port past => absurd past (Nat.not_lt_zero _)⟩
    exact .of_eq (sound.nodes p) (keep p) rfl rfl rfl (passing_scanning stage p).symm
  · next ready =>
    cases stepped
    have state := not_not.mp ready
    have only : OnlyAt s { s with
        scache := (s.rings ring).node (s.rings ring).mcaHead
        stage := .adding ring 0 } (s.current ring) :=
      ⟨fun _ _ => rfl, fun _ _ => rfl, fun _ _ => rfl, fun _ _ => rfl, fun p other =>
        (if_neg other).trans (passing_scanning stage p).symm⟩
    refine ⟨only.nodes sound.nodes ?_, sound.rings, fun port past => past.elim⟩
    have before := sound.nodes (s.current ring)
    unfold NodeSoundAt at before
    rw [passing_scanning stage] at before
    exact .of_eq (before.meet state) rfl rfl rfl rfl (if_pos rfl)

theorem Sound.burst (sound : s.Sound) (stage : s.stage = .adding ring i)
    (more : (i : Int) < s.scache.cnt) (stepped : s.startBurst port (.add ring i) = some s') :
    s'.Sound := by
  unfold startBurst at stepped
  split at stepped
  · cases stepped
    have only : OnlyAt s { s with stage := .posting port (.add ring i) } (s.current ring) :=
      ⟨fun _ _ => rfl, fun _ _ => rfl, fun _ _ => rfl, fun _ _ => rfl, fun p other => by
        rw [passing_adding stage, if_neg other]
        exact if_neg other⟩
    refine ⟨only.nodes sound.nodes ?_, sound.rings, fun port past => past.elim⟩
    have before := sound.nodes (s.current ring)
    unfold NodeSoundAt at before
    rw [passing_adding stage, if_pos rfl] at before
    exact .of_eq (before.burst more) rfl rfl rfl rfl (if_pos rfl)
  · cases stepped

theorem Sound.addPkt (port : Fin numNicPorts) (sound : s.Sound) (stage : s.stage = .adding ring i)
    (more : (i : Int) < s.scache.cnt) :
    { s with
      batches := update s.batches port (s.batches port ++ [TxPkt.mk (s.current ring) i])
      stage := .adding ring (i + 1) }.Sound := by
  have counts := waiting_update s port (s.batches port ++ [TxPkt.mk (s.current ring) i])
  have only : OnlyAt s { s with
      batches := update s.batches port (s.batches port ++ [TxPkt.mk (s.current ring) i])
      stage := .adding ring (i + 1) } (s.current ring) := by
    refine ⟨fun _ _ => rfl, fun _ _ => rfl, fun p other => ?_, fun _ _ => rfl, fun p other => ?_⟩
    · have count := counts p
      rw [countP_append, countP_singleton, if_neg (by simpa using other.symm)] at count
      exact Nat.add_right_cancel count
    · rw [passing_adding stage, if_neg other]
      exact if_neg other
  refine ⟨only.nodes sound.nodes ?_, sound.rings, fun port past => past.elim⟩
  have before := sound.nodes (s.current ring)
  unfold NodeSoundAt at before
  rw [passing_adding stage, if_pos rfl] at before
  refine .of_eq (before.add more) rfl rfl ?_ rfl (if_pos rfl)
  have count := counts (s.current ring)
  rw [countP_append, countP_singleton, if_pos (by simp)] at count
  exact Nat.add_right_cancel (count.trans (by omega))

section

variable (sound : s.Sound)

include sound

/-- A packet goes from its batch to the card. -/
theorem Sound.post {back : BurstFrom} {e : TxPkt} {rest : List TxPkt}
    (stage : s.stage = .posting port back) (batch : s.batches port = e :: rest) :
    { s with batches := update s.batches port rest, card := e.rn :: s.card }.Sound := by
  have counts := waiting_update s port rest
  have still : ∀ p i cnt, s.passing p ≠ .adding i cnt := by
    intro p i cnt
    unfold passing
    rw [stage]
    cases back with
    | flush => exact Passing.noConfusion
    | add ring j => simp only; split <;> exact Passing.noConfusion
  have only : OnlyAt s { s with
      batches := update s.batches port rest, card := e.rn :: s.card } e.rn := by
    refine ⟨fun _ _ => rfl, fun _ _ => rfl, fun p other => ?_, fun p other => ?_, fun _ _ => rfl⟩
    · have count := counts p
      rw [batch, countP_cons, if_neg (by simpa using other.symm)] at count
      exact Nat.add_right_cancel count
    · exact count_cons_of_ne other.symm
  refine ⟨only.nodes sound.nodes ?_, sound.rings, fun other past => ?_⟩
  · have before := sound.nodes e.rn
    unfold NodeSoundAt at before
    have count := counts e.rn
    rw [batch, countP_cons, if_pos (by simp)] at count
    rw [show s.waiting e.rn = { s with batches := update s.batches port rest }.waiting e.rn + 1
      by omega] at before
    exact .of_eq (before.post (still e.rn)) rfl rfl rfl count_cons_self rfl
  · -- the ports that the flush has passed are not the one it is at
    have empty := sound.flushed other past
    by_cases same : other = port
    · rw [same, batch] at empty
      cases empty
    · exact (update_of_ne same ..).trans empty

/-- A step that only moves the transmitter, from no node to no node. -/
theorem Sound.move (stage : TxStage) (ret : Nat) (idle : ∀ p, s.passing p = .no)
    (idle' : ∀ p, { s with stage := stage, ret := ret }.passing p = .no)
    (flushed : ∀ port, { s with stage := stage, ret := ret }.Flushed port → s.batches port = []) :
    { s with stage := stage, ret := ret }.Sound :=
  ⟨fun p => .of_eq (sound.nodes p) rfl rfl rfl rfl ((idle' p).trans (idle p).symm), sound.rings,
    flushed⟩

theorem Sound.posted {back : BurstFrom} (stage : s.stage = .posting port back)
    (stepped : s.go = some s') : s'.Sound := by
  simp only [go, stage] at stepped
  cases batch : s.batches port with
  | cons e rest =>
    simp only [batch, Option.some.injEq] at stepped
    have posted := sound.post stage batch
    rw [stage, stepped] at posted
    exact posted
  | nil =>
    cases back with
    | add ring i =>
      simp only [batch, Option.some.injEq] at stepped
      subst stepped
      have only : OnlyAt s { s with stage := .adding ring i } (s.current ring) := by
        refine ⟨fun _ _ => rfl, fun _ _ => rfl, fun _ _ => rfl, fun _ _ => rfl, fun p other => ?_⟩
        unfold passing
        rw [stage]
        exact (if_neg other).trans (if_neg other).symm
      refine ⟨only.nodes sound.nodes ?_, sound.rings, fun port past => past.elim⟩
      have before := sound.nodes (s.current ring)
      have passed : s.passing (s.current ring) = .posting i s.scache.cnt := by
        unfold passing
        rw [stage]
        exact if_pos rfl
      unfold NodeSoundAt at before
      rw [passed] at before
      exact .of_eq before.resume rfl rfl rfl rfl (if_pos rfl)
    | flush =>
      simp only [batch, Option.some.injEq] at stepped
      subst stepped
      refine sound.move _ s.ret (fun p => by unfold passing; rw [stage]) (fun _ => rfl) ?_
      intro other past
      have reached : (other : Nat) < port + 1 := past
      by_cases same : other = port
      · rw [same, batch]
      · refine sound.flushed other ?_
        unfold Flushed
        rw [stage]
        exact Fin.lt_def.mpr (by have := Fin.val_ne_of_ne same; omega)

theorem Sound.flush {port : Nat} (stage : s.stage = .flush port) (stepped : s.go = some s') :
    s'.Sound := by
  have idle : ∀ p, s.passing p = .no := fun p => by unfold passing; rw [stage]
  have before : ∀ other : Fin numNicPorts, (other : Nat) < port → s.batches other = [] := by
    intro other past
    refine sound.flushed other ?_
    unfold Flushed
    rw [stage]
    exact past
  simp only [go, stage] at stepped
  split at stepped
  · next inside =>
    split at stepped
    · next empty =>
      cases stepped
      refine sound.move _ s.ret idle (fun _ => rfl) fun other past => ?_
      have reached : (other : Nat) < port + 1 := past
      by_cases same : (other : Nat) = port
      · subst same
        exact empty
      · exact before other (by omega)
    · unfold startBurst at stepped
      split at stepped
      · cases stepped
        exact sound.move _ s.ret idle (fun _ => rfl) fun other past => before other past
      · cases stepped
  · next outside =>
    cases stepped
    refine sound.move _ s.ret idle (fun _ => rfl) fun other _ => ?_
    exact before other (Nat.lt_of_lt_of_le other.isLt (Nat.not_lt.mp outside))

theorem Sound.mark (stage : s.stage = .adding ring i) (all : ¬(i : Int) < s.scache.cnt) :
    (s.mark ring).Sound := by
  have before := sound.nodes (s.current ring)
  unfold NodeSoundAt at before
  rw [passing_adding stage, if_pos rfl] at before
  have written := node_setRing (s := s) (n := { s.node (s.current ring) with
    state := if s.scache.cnt ≠ 0 then .txing else .sentDone })
    (r := { (s.rings ring).setState (s.rings ring).mcaHead
      (if s.scache.cnt ≠ 0 then .txing else .sentDone) with
        mcaHead := (s.rings ring).mcaHead + 1 }) rfl
  have only : OnlyAt s (s.mark ring) (s.current ring) := by
    refine ⟨fun p other => (written p).trans (if_neg other), fun p other => ?_, fun _ _ => rfl,
      fun _ _ => rfl, fun p other => ?_⟩
    · exact update_of_ne other ..
    · rw [passing_adding stage, if_neg other]
      rfl
  obtain ⟨span, lined⟩ := sound.rings ring
  refine ⟨only.nodes sound.nodes ?_, sound.rings.set (lined.take before.ready_of_adding ?_).1,
    fun port past => past.elim⟩
  · exact .of_eq (before.mark all) ((written _).trans (if_pos rfl)) (update_self ..) rfl rfl rfl
  · split
    · exact .inr rfl
    · exact .inl rfl

theorem Sound.go (stepped : s.go = some s') : s'.Sound := by
  cases stage : s.stage with
  | idle =>
    simp only [Tx.go, stage] at stepped
    cases stepped
  | scanning ring => exact sound.scan stage stepped
  | posting port back => exact sound.posted stage stepped
  | flush port => exact sound.flush stage stepped
  | adding ring i =>
    simp only [Tx.go, stage] at stepped
    split at stepped
    · next more =>
      split at stepped
      · cases stepped
      · next port _ =>
        split at stepped
        · exact sound.burst stage more stepped
        · split at stepped
          · cases stepped
          · cases stepped
            exact sound.addPkt port stage more
    · next all =>
      cases stepped
      exact sound.mark stage all

theorem Sound.next {event : TxEvent} (stepped : s.next event = some s') : s'.Sound := by
  cases event with
  | publish ring n => exact sound.publish stepped
  | collect ring => exact sound.collect stepped
  | go => exact sound.go stepped
  | complete p => exact sound.complete stepped
  | process ring =>
    simp only [Tx.next] at stepped
    split at stepped
    · next stage =>
      cases stepped
      exact sound.move _ 0 (fun p => by unfold passing; rw [stage]) (fun _ => rfl)
        fun port past => past.elim
    · cases stepped

end

theorem initial_sound : initial.Sound := by
  refine ⟨fun p => ?_, fun _ => ⟨⟨0, 0, 0⟩, ?_⟩, fun _ _ => rfl⟩
  · refine .of_eq (.unused rfl rfl rfl) rfl rfl ?_ rfl rfl
    exact Finset.sum_eq_zero fun _ _ => rfl
  · exact ⟨⟨le_rfl, le_rfl, Nat.zero_le _, .empty _ _ _, .empty _ _ _, fun _ _ _ => rfl⟩, rfl, rfl,
      rfl⟩

theorem reached_sound {events : List TxEvent} (reached : exec next initial events = some s) :
    s.Sound := by
  have kept : ∀ state event after, Sound state → True → next state event = some after →
    after.Sound :=
    fun _ _ _ sound _ stepped => sound.next stepped
  exact exec_invariant kept initial_sound (.of_forall (fun _ _ => trivial) _ _) reached

end Tx

def nodeStates : List PktState := [.sentReady, .txing, .sentDone, .empty]

/-- What a life says about a node with packets. -/
theorem NodeSound.states {n : Node} {life : Life} {waiting card : Nat} {passing : Passing}
    (sound : NodeSound n life waiting card passing) (packets : 1 ≤ life.size) :
    life.writes <+: nodeStates ∧ life.writes.getLast? = some n.state ∧
      (.sentDone ∈ life.writes → life.completed = life.size) ∧
      (n.state ≠ .sentReady → .txing ∈ life.writes) := by
  have nonzero : life.size ≠ 0 := by omega
  cases sound with
  | unused _ _ size => exact absurd size nonzero
  | ready state _ _ _ writes | adding _ state _ _ _ writes | posting _ state _ _ _ writes =>
    rw [writes, state]
    exact ⟨by decide, rfl, fun member => absurd member (by decide), fun other => absurd rfl other⟩
  | txing state _ _ _ writes =>
    rw [writes, state]
    exact ⟨by decide, rfl, fun member => absurd member (by decide), fun _ => by decide⟩
  | done state _ completed writes | collected state _ completed writes =>
    rw [if_neg nonzero] at writes
    rw [writes, state]
    exact ⟨by decide, rfl, fun _ => completed, fun _ => by decide⟩

/-- In every state that is reached, with any ports, any batches and any reports of the card: the
states written to a node with packets since it was published are the first ones of
`SENT_READY`, `TXING`, `SENT_DONE` and, once it is collected, `EMPTY`; `SENT_DONE` is among them
only if every packet was reported, and `TXING` is unless the node lies between `mca_head` and
`tail`; the transmitter leaves a ring only when these two are equal; and when it has returned and
the card has nothing left, no node is `TXING`. -/
theorem transmitted_nodes (events : List TxEvent) (s : Tx)
    (reached : exec Tx.next .initial events = some s) :
    (∀ p, 1 ≤ (s.life p).size →
      (s.life p).writes <+: nodeStates ∧
      (s.life p).writes.getLast? = some (s.node p).state ∧
      (.sentDone ∈ (s.life p).writes → (s.life p).completed = (s.life p).size)) ∧
    (∀ ring, ∃ head taken sent, head ≤ taken ∧ taken ≤ sent ∧ sent ≤ head + eosRingSize ∧
      (s.rings ring).mcaHead = .ofNat taken ∧ (s.rings ring).tail = .ofNat sent ∧
      ∀ position, sent ≤ position + eosRingSize → position < taken →
        1 ≤ (s.life ⟨ring, position % eosRingSize⟩).size →
        .txing ∈ (s.life ⟨ring, position % eosRingSize⟩).writes) ∧
    (∀ ring s', s.stage = .scanning ring → s.go = some s' → s'.stage = .flush 0 →
      (s.rings ring).mcaHead = (s.rings ring).tail) ∧
    (s.stage = .idle → s.card = [] → ∀ p, (s.node p).state ≠ .txing) := by
  have sound := Tx.reached_sound reached
  refine ⟨fun p packets => ?_, fun ring => ?_, fun ring s' stage left flush => ?_,
    fun idle nothing p state => ?_⟩
  · obtain ⟨writes, last, completed, -⟩ := (sound.nodes p).states packets
    exact ⟨writes, last, completed⟩
  · obtain ⟨span, lined⟩ := sound.rings ring
    refine ⟨span.head, span.taken, span.sent, lined.cycle.consumed_from, lined.cycle.produced_from,
      lined.cycle.room, lined.taken, lined.sent, fun position recent before packets => ?_⟩
    refine ((sound.nodes ⟨ring, position % eosRingSize⟩).states packets).2.2.2 fun ready => ?_
    exact lined.not_ready recent before ready
  · obtain ⟨span, lined⟩ := sound.rings ring
    simp only [Tx.go, stage] at left
    split at left
    · next other => exact lined.caught_up other
    · cases left
      cases flush
  · have batches : s.waiting p = 0 := by
      refine Finset.sum_eq_zero fun port _ => ?_
      rw [sound.flushed port (by unfold Tx.Flushed; rw [idle]; trivial)]
      rfl
    have left := (sound.nodes p).left_of_txing state
    rw [batches, nothing] at left
    exact absurd left (by simp)

def twoPorts : Node :=
  { Node.zero with
    cnt := 2, idx := 2, deadline := 1, state := .sentReady
    pkts := fun i => ⟨.null, 64, if i = 0 then 0 else 1⟩ }

def onePort : Node := { twoPorts with cnt := 1, idx := 1 }

def twoNodesEvents : List TxEvent :=
  [.publish 0 twoPorts, .publish 0 onePort, .process 0] ++ List.replicate 18 .go ++
    [.complete ⟨0, 0⟩, .complete ⟨0, 1⟩, .complete ⟨0, 0⟩]

theorem transmitted_nodes_two :
    ∃ s, exec Tx.next .initial twoNodesEvents = some s ∧
      s.life ⟨0, 0⟩ = ⟨2, 2, [.sentReady, .txing, .sentDone]⟩ ∧
      s.life ⟨0, 1⟩ = ⟨1, 1, [.sentReady, .txing, .sentDone]⟩ ∧
      (s.life ⟨0, 0⟩).writes <+: nodeStates ∧ ∀ p, (s.node p).state ≠ .txing := by
  have run : (exec Tx.next .initial twoNodesEvents).map
      (fun s => (s.life ⟨0, 0⟩, s.life ⟨0, 1⟩, s.stage, s.card)) =
      some (⟨2, 2, [.sentReady, .txing, .sentDone]⟩, ⟨1, 1, [.sentReady, .txing, .sentDone]⟩,
        .idle, []) := by decide +kernel
  obtain ⟨s, reached, seen⟩ := Option.map_eq_some_iff.mp run
  simp only [Prod.mk.injEq] at seen
  obtain ⟨first, second, idle, nothing⟩ := seen
  have conclusion := transmitted_nodes twoNodesEvents s reached
  exact ⟨s, reached, first, second, (conclusion.1 ⟨0, 0⟩ (by rw [first]; decide)).1,
    conclusion.2.2.2 idle nothing⟩

end Composite.Eos
