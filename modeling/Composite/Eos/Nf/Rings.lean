import Mathlib.Data.Set.Basic
import Composite.Lib.Transition
import Composite.Eos.Nf.Calls

/-!
# A function never meets an error

In every state that a function, the agents and the transmitter reach, the output ring has
place for what the function sends, the two rings are collected in step, and the buffers stay
with their nodes.
-/

namespace Composite.Eos

open Transition Window Option

namespace Nf

variable {f f' : Nf} {pos : Positions}

/-! Whole runs. -/

def movesReady : NfEvent → Prop
  | .store _ => True
  | .recv => True
  | _ => False

theorem Sound.step (sound : f.Sound pos) {event : NfEvent} (stepped : f.next event = some f') :
    ∃ pos', f'.Sound pos' ∧
      (¬movesReady event → pos'.tail = pos.tail ∧ pos'.free = pos.free) := by
  cases event with
  | look =>
    simp only [next] at stepped
    split at stepped
    · exact ⟨pos, sound.look stepped, fun _ => ⟨rfl, rfl⟩⟩
    · cases stepped
  | leave =>
    simp only [next] at stepped
    split at stepped
    · obtain rfl := some_inj.mp stepped
      exact ⟨pos, sound.leave, fun _ => ⟨rfl, rfl⟩⟩
    · cases stepped
  | transfer scache =>
    simp only [next] at stepped
    split at stepped
    · next rcache looked =>
      split_ifs at stepped with count
      obtain ⟨n, filled, rfl⟩ := map_eq_some_iff.mp stepped
      exact ⟨pos, sound.transfer looked count filled, fun _ => ⟨rfl, rfl⟩⟩
    · cases stepped
  | store count =>
    simp only [next] at stepped
    split at stepped
    · next rcache moved =>
      obtain rfl := some_inj.mp stepped
      exact ⟨_, sound.store moved count, fun other => absurd trivial other⟩
    · cases stepped
  | recv =>
    obtain ⟨⟨ret, m, input, output⟩, returned, rest⟩ := bind_eq_some_iff.mp stepped
    obtain rfl := some_inj.mp rest
    obtain ⟨tail, after⟩ := sound.recv returned
    exact ⟨_, after, fun other => absurd trivial other⟩
  | send len port =>
    simp only [next, Nf.send] at stepped
    split at stepped
    · cases stepped
    · next pkt rest first =>
      obtain ⟨output, returned, sent, after⟩ := sound.send first len port
      rw [returned] at stepped
      obtain rfl := some_inj.mp stepped
      exact ⟨_, after, fun _ => ⟨rfl, rfl⟩⟩
  | collect =>
    simp only [next, Nf.collect] at stepped
    split_ifs at stepped with ready
    · obtain ⟨input, output, collected, after⟩ := sound.collect ready
      rw [collected] at stepped
      obtain rfl := some_inj.mp stepped
      exact ⟨_, after, fun _ => ⟨rfl, rfl⟩⟩
    · obtain rfl := some_inj.mp stepped
      exact ⟨pos, sound, fun _ => ⟨rfl, rfl⟩⟩
  | take =>
    simp only [next] at stepped
    split at stepped
    · next posted =>
      rcases sound.take posted stepped with rfl | after
      · exact ⟨pos, sound, fun _ => ⟨rfl, rfl⟩⟩
      · exact ⟨_, after, fun _ => ⟨rfl, rfl⟩⟩
    · cases stepped
  | post =>
    simp only [next] at stepped
    split at stepped
    · obtain rfl := some_inj.mp stepped
      exact ⟨pos, sound.post, fun _ => ⟨rfl, rfl⟩⟩
    · cases stepped
  | sentEarly =>
    simp only [next] at stepped
    split at stepped
    · next posted =>
      obtain rfl := some_inj.mp stepped
      exact ⟨pos, sound.sentEarly posted, fun _ => ⟨rfl, rfl⟩⟩
    · cases stepped
  | mark =>
    simp only [next] at stepped
    split at stepped
    · cases stepped
    · next posted =>
      obtain rfl := some_inj.mp stepped
      exact ⟨_, sound.mark posted, fun _ => ⟨rfl, rfl⟩⟩
  | sent node =>
    simp only [next] at stepped
    split_ifs at stepped with nothing
    obtain rfl := some_inj.mp stepped
    exact ⟨pos, sound.sent node.isLt nothing, fun _ => ⟨rfl, rfl⟩⟩

theorem reached_sound {events : List NfEvent} (reached : exec next init events = some f) :
    ∃ pos, f.Sound pos := by
  have kept : ∀ (f : Nf) (event : NfEvent) (f' : Nf), (∃ pos, f.Sound pos) → True →
      f.next event = some f' → ∃ pos, f'.Sound pos := by
    rintro f event f' ⟨pos, sound⟩ _ stepped
    obtain ⟨pos', after, _⟩ := sound.step stepped
    exact ⟨pos', after⟩
  exact exec_invariant kept ⟨_, init_sound⟩ (.of_forall (fun _ _ => trivial) _ _) reached

end Nf

def Node.Holds (n : Node) (buffer : Buffer) : Prop :=
  ∃ j < eosPktPerEntry, (n.pkts j).pkt = buffer

namespace Nf

variable {f : Nf} {pos : Positions}

/-- The buffers of the packets that are in the function's hands, in its cache, in the output
ring or with the agent. -/
def inFlight (f : Nf) : Set Buffer :=
  { buffer | buffer ∈ f.todo ∨
      f.output.cached.cnt ≠ 0 ∧ f.output.cached.Holds buffer ∨
      (∃ i < eosRingSize, (f.output.nodes i).state ≠ .empty ∧
        (f.output.nodes i).Holds buffer) ∨
      ∃ rcache, (f.agent = .looked rcache ∨ f.agent = .moved rcache) ∧ rcache.Holds buffer }

def reachable (f : Nf) : Set Buffer :=
  { buffer | ∃ i < eosRingSize, (f.input.nodes i).Holds buffer }

/-- The buffers that `eos_rings_init` gives out. -/
def allBuffers : Set Buffer :=
  { buffer | ∃ i < eosRingSize, ∃ j < eosPktPerEntry, nodeBuffer i j = buffer }

theorem Sound.reachable (sound : f.Sound pos) : f.reachable = allBuffers := by
  ext buffer
  constructor
  · rintro ⟨i, inside, j, below, rfl⟩
    exact ⟨i, inside, j, below, ((sound.input_slot inside).2 j).symm⟩
  · rintro ⟨i, inside, j, below, rfl⟩
    exact ⟨i, inside, j, below, (sound.input_slot inside).2 j⟩

theorem holds_allBuffers {position : Nat} {n : Node} {buffer : Buffer}
    (buffers : HasBuffers position n) (held : n.Holds buffer) : buffer ∈ allBuffers := by
  obtain ⟨j, below, rfl⟩ := held
  exact ⟨position % eosRingSize, Nat.mod_lt _ (by decide), j, below, (buffers j).symm⟩

theorem Sound.inFlight (sound : f.Sound pos) : f.inFlight ⊆ allBuffers := by
  rintro buffer (waiting | ⟨counted, held⟩ | ⟨i, inside, occupied, held⟩ | ⟨rcache, stage, held⟩)
  · rcases sound.cache with ⟨_, _, _, _, nothing⟩ |
      ⟨count, done, next, _, _, _, _, _, _, last, _, fits, _, _, pending⟩
    · rw [nothing] at waiting
      cases waiting
    · rw [pending, List.mem_map] at waiting
      obtain ⟨j, member, rfl⟩ := waiting
      rw [List.mem_range'_1] at member
      exact ⟨pos.sent % eosRingSize, Nat.mod_lt _ (by decide), j, by omega, rfl⟩
  · rcases sound.cache with ⟨_, noCount⟩ | ⟨_, _, _, _, _, _, _, _, _, _, _, _, _, buffers⟩
    · exact absurd noCount counted
    · exact holds_allBuffers buffers held
  · obtain ⟨position, low, high, rfl⟩ := exists_position pos.head inside
    rcases sound.output.cases low high with
      ⟨_, buffers, _⟩ | ⟨_, _, buffers, _⟩ | ⟨_, state, _⟩
    · exact holds_allBuffers buffers held
    · exact holds_allBuffers buffers held
    · exact absurd state occupied
  · have fits := sound.agent
    rcases stage with stage | stage
    · rw [stage] at fits
      exact holds_allBuffers fits.2.1 held
    · rw [stage] at fits
      exact holds_allBuffers fits.2.1 held

end Nf

/-- In every state that a function and its neighbours reach, the next packet is sent without
an error, a collection meets its assertions, no node of the input ring is empty, and the
buffers are those of the beginning. -/
theorem function_rings {events : List NfEvent} {f : Nf}
    (reached : exec Nf.next .init events = some f) :
    (∀ pkt rest len port, f.todo = pkt :: rest →
      ∃ output, eosPktSend f.output ⟨pkt, len, port⟩ = some (0, output)) ∧
    (collectable f.input f.output → eosPktCollectOne f.input f.output ≠ none) ∧
    (∀ i < eosRingSize, (f.input.nodes i).state ≠ .empty) ∧
    f.reachable ∪ f.inFlight = Nf.init.reachable ∪ Nf.init.inFlight := by
  obtain ⟨pos, sound⟩ := Nf.reached_sound reached
  refine ⟨fun pkt rest len port first => ?_, fun ready => ?_, fun i inside => ?_, ?_⟩
  · obtain ⟨output, returned, _⟩ := sound.send first len port
    exact ⟨output, returned⟩
  · obtain ⟨input, output, collected, _⟩ := sound.collect ready
    rw [collected]
    exact Option.some_ne_none _
  · exact (sound.input_slot inside).1
  · rw [sound.reachable, Nf.init_sound.reachable, Set.union_eq_left.mpr sound.inFlight,
      Set.union_eq_left.mpr Nf.init_sound.inFlight]

def twoPackets : Node :=
  { Node.zero with cnt := 2, pkts := fun j => ⟨.mbuf j, 64, 0⟩, state := .sentReady }

/-- Two packets come in, and the first of them is sent back already. -/
theorem function_rings_forward :
    ∃ f, exec Nf.next .init [.look, .transfer twoPackets, .store 2, .recv, .recv, .send 64 0] =
        some f ∧
      f.todo = [.pkt 0 1] ∧
      ∃ output, eosPktSend f.output ⟨.pkt 0 1, 64, 0⟩ = some (0, output) := by
  have run : (exec Nf.next .init
      [.look, .transfer twoPackets, .store 2, .recv, .recv, .send 64 0]).map Nf.todo =
        some [.pkt 0 1] := by
    decide +kernel
  obtain ⟨f, reached, todo⟩ := Option.map_eq_some_iff.mp run
  exact ⟨f, reached, todo, (function_rings reached).1 _ _ 64 0 todo⟩

end Composite.Eos
