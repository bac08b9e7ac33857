import Mathlib.Algebra.Order.Ring.Int

/-!
# Runs of a deterministic labelled transition system

A system is a partial function `next` from a state and a label to the next
state.  A run is a list of labels; `exec` carries it out.  A condition on the
steps of a run speaks about the state before the step and its label, and the
induction over runs is done once, in `exec_invariant`.
-/

namespace Transition

universe u v

variable {State : Type u} {Label : Type v} {allowed : State → Label → Prop}
    {next : State → Label → Option State} {labels : List Label} {state final : State}

def exec (next : State → Label → Option State) : State → List Label → Option State
  | state, [] => some state
  | state, label :: rest => (next state label).bind fun middle => exec next middle rest

/-- Every step of the run meets `allowed`, as long as the run goes on. -/
def Meets (allowed : State → Label → Prop) (next : State → Label → Option State) :
    State → List Label → Prop
  | _, [] => True
  | state, label :: rest =>
    allowed state label ∧ ∀ middle, next state label = some middle → Meets allowed next middle rest

theorem Meets.of_forall (always : ∀ state label, allowed state label) (state : State)
    (labels : List Label) : Meets allowed next state labels := by
  induction labels generalizing state with
  | nil => trivial
  | cons label rest ih =>
    exact ⟨always state label, fun middle _ => ih middle⟩

theorem Meets.of_mem {allowed : Label → Prop} (every : ∀ label ∈ labels, allowed label)
    (state : State) : Meets (fun _ => allowed) next state labels := by
  induction labels generalizing state with
  | nil => trivial
  | cons label rest ih =>
    refine ⟨every label (List.mem_cons_self ..), fun middle _ => ?_⟩
    exact ih (fun other member => every other (List.mem_cons_of_mem _ member)) middle

theorem Meets.and {first second : State → Label → Prop}
    (meetsFirst : Meets first next state labels) (meetsSecond : Meets second next state labels) :
    Meets (fun state label => first state label ∧ second state label) next state labels := by
  induction labels generalizing state with
  | nil => trivial
  | cons label rest ih =>
    refine ⟨⟨meetsFirst.1, meetsSecond.1⟩, fun middle stepped => ?_⟩
    exact ih (meetsFirst.2 middle stepped) (meetsSecond.2 middle stepped)

instance decidableMeets {allowed : State → Label → Prop} {next : State → Label → Option State}
    [∀ state label, Decidable (allowed state label)] :
    ∀ state labels, Decidable (Meets allowed next state labels)
  | _, [] => .isTrue trivial
  | state, label :: rest =>
    match reached : next state label with
    | none => decidable_of_iff (allowed state label) (by simp [Meets, reached])
    | some middle =>
      have : Decidable (Meets allowed next middle rest) := decidableMeets middle rest
      decidable_of_iff (allowed state label ∧ Meets allowed next middle rest)
        (by simp [Meets, reached])

@[simp]
theorem exec_nil (next : State → Label → Option State) (state : State) :
    exec next state [] = some state := rfl

theorem exec_cons_eq_some {label : Label} {rest : List Label} :
    exec next state (label :: rest) = some final ↔
      ∃ middle, next state label = some middle ∧ exec next middle rest = some final := by
  simp [exec, Option.bind_eq_some_iff]

theorem exec_append (first second : List Label) :
    exec next state (first ++ second) =
      (exec next state first).bind fun middle => exec next middle second := by
  induction first generalizing state with
  | nil => rfl
  | cons label rest ih =>
    simp only [List.cons_append, exec, Option.bind_assoc, ih]

/-- What holds at the start and is kept by every allowed step holds at the end
of every run whose steps are all allowed. -/
theorem exec_invariant {invariant : State → Prop}
    (kept : ∀ state label after, invariant state → allowed state label →
      next state label = some after → invariant after)
    {labels : List Label} {state final : State} (initially : invariant state)
    (meets : Meets allowed next state labels)
    (executed : exec next state labels = some final) : invariant final := by
  induction labels generalizing state with
  | nil =>
    simp only [exec_nil, Option.some.injEq] at executed
    exact executed ▸ initially
  | cons label rest ih =>
    obtain ⟨middle, stepped, remaining⟩ := exec_cons_eq_some.mp executed
    exact ih (kept state label middle initially meets.1 stepped)
      (meets.2 middle stepped) remaining

def trace {Record : Type*} (next : State → Label → Option State)
    (update : State → Label → Record → Record) : State → List Label → Record → Record
  | _, [], record => record
  | state, label :: rest, record =>
    match next state label with
    | none => record
    | some middle => trace next update middle rest (update state label record)

/-- The invariant rule for a property that relates the state to a record kept
along the run. -/
theorem exec_invariant_trace {Record : Type*} {update : State → Label → Record → Record}
    {invariant : State → Record → Prop}
    (kept : ∀ state label after record, invariant state record → allowed state label →
      next state label = some after → invariant after (update state label record))
    {record : Record} (initially : invariant state record)
    (meets : Meets allowed next state labels) (executed : exec next state labels = some final) :
    invariant final (trace next update state labels record) := by
  induction labels generalizing state record with
  | nil =>
    simp only [exec_nil, Option.some.injEq] at executed
    exact executed ▸ initially
  | cons label rest ih =>
    obtain ⟨middle, stepped, remaining⟩ := exec_cons_eq_some.mp executed
    simp only [trace, stepped]
    exact ih (kept state label middle record initially meets.1 stepped)
      (meets.2 middle stepped) remaining

/-- What is seen of a call in the state that a run leads to. -/
theorem observed {Output : Type*} {Seen : Type*} {run : Option State} {call : State → Option Output}
    {view : State → Output → Seen} {seen : Seen}
    (runs : (run.bind fun state => (call state).map (view state)) = some seen) :
    ∃ state output, run = some state ∧ call state = some output ∧ view state output = seen := by
  obtain ⟨state, reached, rest⟩ := Option.bind_eq_some_iff.mp runs
  obtain ⟨output, returned, viewed⟩ := Option.map_eq_some_iff.mp rest
  exact ⟨state, output, reached, returned, viewed⟩

end Transition
