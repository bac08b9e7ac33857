import Mathlib.Order.Defs.Unbundled

/-!
# Procedures with early returns

A procedure reads and changes a state.  It may fault, after which nothing is
known, or return early with a code, which keeps the changes made so far.  What a
procedure ensures is said about the runs that do not fault; the rules below take
a procedure apart along its text.
-/

def Procedure (Fault State Value : Type) : Type :=
  State → Except Fault (Except Int Value × State)

namespace Procedure

variable {Fault State Value Result : Type}

instance instMonad : Monad (Procedure Fault State) where
  pure value := fun state => .ok (.ok value, state)
  bind first rest := fun state =>
    match first state with
    | .error fault => .error fault
    | .ok (.error code, middle) => .ok (.error code, middle)
    | .ok (.ok value, middle) => rest value middle

def read (part : State → Value) : Procedure Fault State Value :=
  fun state => .ok (.ok (part state), state)

def update (change : State → State) : Procedure Fault State Unit :=
  fun state => .ok (.ok (), change state)

def leave (code : Int) : Procedure Fault State Value :=
  fun state => .ok (.error code, state)

def fault (found : Fault) : Procedure Fault State Value := fun _ => .error found

def leaveIf (condition : Prop) [Decidable condition] (code : Int) :
    Procedure Fault State Unit :=
  if condition then leave code else pure ()

def require (condition : Prop) [Decidable condition] (otherwise : Fault) :
    Procedure Fault State Unit :=
  if condition then pure () else fault otherwise

def orLeave (code : Int) : Option Value → Procedure Fault State Value
  | none => leave code
  | some value => pure value

def orFault (otherwise : Fault) : Option Value → Procedure Fault State Value
  | none => fault otherwise
  | some value => pure value

def attempt (callee : Procedure Fault State Value) :
    Procedure Fault State (Except Int Value) :=
  fun state => (callee state).map fun (outcome, after) => (.ok outcome, after)

def code (callee : Procedure Fault State Unit) : Procedure Fault State Int :=
  fun state => (callee state).map fun
    | (.ok (), after) => (.ok 0, after)
    | (.error code, after) => (.ok code, after)

def Yields (procedure : Procedure Fault State Value) (state : State) (value : Value) : Prop :=
  ∃ after, procedure state = .ok (.ok value, after)

theorem Yields.outcome {procedure : Procedure Fault State Value} {state after : State}
    {value : Value} {outcome : Except Int Value} (yields : procedure.Yields state value)
    (ran : procedure state = .ok (outcome, after)) : outcome = .ok value := by
  obtain ⟨other, yields⟩ := yields
  rw [yields] at ran
  cases ran
  rfl

theorem leaveIf_of_not {condition : Prop} [Decidable condition] {code : Int}
    (fails : ¬condition) (rest : Unit → Procedure Fault State Value) :
    (leaveIf condition code >>= rest) = rest () := by
  rw [leaveIf, if_neg fails]
  rfl

/-- A run that ends in view of something. -/
theorem exists_of_view {Result : Type} {procedure : Procedure Fault State Value} {state : State}
    {view : Except Int Value → State → Result} {seen : Result}
    (viewed : (procedure state).toOption.map (fun (outcome, after) => view outcome after) =
      some seen) :
    ∃ outcome after, procedure state = .ok (outcome, after) ∧ view outcome after = seen := by
  cases ran : procedure state with
  | error found => simp [ran, Except.toOption] at viewed
  | ok reached =>
    obtain ⟨outcome, after⟩ := reached
    simp only [ran, Except.toOption, Option.map_some, Option.some.injEq] at viewed
    exact ⟨outcome, after, rfl, viewed⟩

/-- Every run from the state that does not fault ends as `post` says. -/
def Ensures (procedure : Procedure Fault State Value) (state : State)
    (post : Except Int Value → State → Prop) : Prop :=
  ∀ outcome after, procedure state = .ok (outcome, after) → post outcome after

section Rules

variable {state : State} {post : Except Int Value → State → Prop}

theorem Ensures.mono {procedure : Procedure Fault State Value}
    {weaker : Except Int Value → State → Prop} (ensures : procedure.Ensures state post)
    (implies : ∀ outcome after, post outcome after → weaker outcome after) :
    procedure.Ensures state weaker :=
  fun outcome after ran => implies outcome after (ensures outcome after ran)

@[simp]
theorem ensures_pure {value : Value} :
    Ensures (pure value : Procedure Fault State Value) state post ↔ post (.ok value) state := by
  constructor
  · exact fun ensures => ensures _ _ rfl
  · rintro holds outcome after ⟨⟩
    exact holds

theorem ensures_bind {first : Procedure Fault State Value}
    {rest : Value → Procedure Fault State Result}
    {post : Except Int Result → State → Prop} :
    Ensures (first >>= rest) state post ↔
      first.Ensures state fun outcome middle =>
        match outcome with
        | .ok value => (rest value).Ensures middle post
        | .error code => post (.error code) middle := by
  constructor
  · intro ensures outcome middle ran
    cases outcome with
    | error code => exact ensures _ _ (by simp [bind, ran])
    | ok value =>
      intro outcome after continued
      exact ensures outcome after (by simp [bind, ran, continued])
  · intro ensures outcome after ran
    cases began : first state with
    | error fault => simp [bind, began] at ran
    | ok reached =>
      obtain ⟨result, middle⟩ := reached
      have held := ensures result middle began
      cases result with
      | error code =>
        simp only [bind, began, Except.ok.injEq, Prod.mk.injEq] at ran
        obtain ⟨rfl, rfl⟩ := ran
        exact held
      | ok value =>
        simp only [bind, began] at ran
        exact held outcome after ran

@[simp]
theorem ensures_leave {code : Int} :
    Ensures (leave code : Procedure Fault State Value) state post ↔ post (.error code) state := by
  constructor
  · exact fun ensures => ensures _ _ rfl
  · rintro holds outcome after ⟨⟩
    exact holds

@[simp]
theorem ensures_fault {found : Fault} :
    Ensures (fault found : Procedure Fault State Value) state post :=
  fun _ _ ran => by cases ran

@[simp]
theorem ensures_read {part : State → Value} :
    Ensures (read part : Procedure Fault State Value) state post ↔
      post (.ok (part state)) state := by
  constructor
  · exact fun ensures => ensures _ _ rfl
  · rintro holds outcome after ⟨⟩
    exact holds

@[simp]
theorem ensures_update {change : State → State} {post : Except Int Unit → State → Prop} :
    Ensures (update change : Procedure Fault State Unit) state post ↔
      post (.ok ()) (change state) := by
  constructor
  · exact fun ensures => ensures _ _ rfl
  · rintro holds outcome after ⟨⟩
    exact holds

theorem ensures_ite {condition : Prop} [Decidable condition]
    {first second : Procedure Fault State Value} :
    Ensures (if condition then first else second) state post ↔
      (condition → first.Ensures state post) ∧ (¬condition → second.Ensures state post) := by
  split <;> simp [*]

@[simp]
theorem ensures_leaveIf {condition : Prop} [Decidable condition] {code : Int}
    {post : Except Int Unit → State → Prop} :
    Ensures (leaveIf condition code : Procedure Fault State Unit) state post ↔
      (condition → post (.error code) state) ∧ (¬condition → post (.ok ()) state) := by
  simp [leaveIf, ensures_ite]

@[simp]
theorem ensures_require {condition : Prop} [Decidable condition] {otherwise : Fault}
    {post : Except Int Unit → State → Prop} :
    Ensures (require condition otherwise : Procedure Fault State Unit) state post ↔
      (condition → post (.ok ()) state) := by
  simp [require, ensures_ite]

@[simp]
theorem ensures_orLeave {code : Int} {found : Option Value} :
    Ensures (orLeave code found : Procedure Fault State Value) state post ↔
      (found = none → post (.error code) state) ∧
        ∀ value, found = some value → post (.ok value) state := by
  cases found <;> simp [orLeave]

@[simp]
theorem ensures_orFault {otherwise : Fault} {found : Option Value} :
    Ensures (orFault otherwise found : Procedure Fault State Value) state post ↔
      ∀ value, found = some value → post (.ok value) state := by
  cases found <;> simp [orFault]

theorem ensures_attempt {callee : Procedure Fault State Value}
    {post : Except Int (Except Int Value) → State → Prop} :
    Ensures (attempt callee) state post ↔
      callee.Ensures state fun outcome after => post (.ok outcome) after := by
  constructor
  · exact fun ensures outcome after ran => ensures _ _ (by simp [attempt, ran, Except.map])
  · intro ensures outcome after ran
    cases began : callee state with
    | error fault => simp [attempt, began, Except.map] at ran
    | ok reached =>
      simp only [attempt, began, Except.map, Except.ok.injEq, Prod.mk.injEq] at ran
      obtain ⟨rfl, rfl⟩ := ran
      exact ensures _ _ began

def returned : Except Int Unit → Int
  | .ok () => 0
  | .error code => code

theorem ensures_code {callee : Procedure Fault State Unit}
    {post : Except Int Int → State → Prop} :
    Ensures (code callee) state post ↔
      callee.Ensures state fun outcome after => post (.ok (returned outcome)) after := by
  constructor
  · intro ensures outcome after ran
    refine ensures _ _ ?_
    cases outcome <;> simp [code, ran, Except.map, returned]
  · intro ensures outcome after ran
    cases began : callee state with
    | error fault => simp [code, began, Except.map] at ran
    | ok reached =>
      obtain ⟨result, middle⟩ := reached
      have held := ensures result middle began
      cases result <;>
      · simp only [code, began, Except.map, Except.ok.injEq, Prod.mk.injEq] at ran
        obtain ⟨rfl, rfl⟩ := ran
        exact held

/-! The rules for a call that is followed by others. -/

variable {result : Except Int Result → State → Prop} {rest : Value → Procedure Fault State Result}
  {next : Unit → Procedure Fault State Result}

theorem Ensures.bind {first : Procedure Fault State Value} (begins : first.Ensures state post)
    (continues : ∀ outcome middle, post outcome middle →
      match outcome with
      | .ok value => (rest value).Ensures middle result
      | .error code => result (.error code) middle) : Ensures (first >>= rest) state result :=
  ensures_bind.mpr (begins.mono continues)

theorem leaveIf_bind {condition : Prop} [Decidable condition] {code : Int}
    (leaves : condition → result (.error code) state)
    (stays : ¬condition → (next ()).Ensures state result) :
    Ensures (leaveIf condition code >>= next) state result :=
  ensures_bind.mpr (ensures_leaveIf.mpr ⟨leaves, stays⟩)

theorem orLeave_bind {code : Int} {found : Option Value}
    (leaves : found = none → result (.error code) state)
    (stays : ∀ value, found = some value → (rest value).Ensures state result) :
    Ensures (orLeave code found >>= rest) state result :=
  ensures_bind.mpr (ensures_orLeave.mpr ⟨leaves, stays⟩)

theorem orLeave_none_bind {code : Int} (leaves : result (.error code) state) :
    Ensures (orLeave code none >>= rest) state result :=
  ensures_bind.mpr (ensures_leave.mpr leaves)

theorem orLeave_some_bind {code : Int} {value : Value}
    (stays : (rest value).Ensures state result) :
    Ensures (orLeave code (some value) >>= rest) state result :=
  ensures_bind.mpr (ensures_pure.mpr stays)

theorem require_bind {condition : Prop} [Decidable condition] {otherwise : Fault}
    (holds : condition → (next ()).Ensures state result) :
    Ensures (require condition otherwise >>= next) state result :=
  ensures_bind.mpr (ensures_require.mpr holds)

theorem read_bind {part : State → Value} (holds : (rest (part state)).Ensures state result) :
    Ensures (read part >>= rest) state result :=
  ensures_bind.mpr (ensures_read.mpr holds)

theorem update_bind {change : State → State} (holds : (next ()).Ensures (change state) result) :
    Ensures (update change >>= next) state result :=
  ensures_bind.mpr (ensures_update.mpr holds)

end Rules

def Keeps (relation : State → State → Prop) (procedure : Procedure Fault State Value) : Prop :=
  ∀ state, procedure.Ensures state fun _ after => relation state after

section Keeps

variable {relation : State → State → Prop} [IsPreorder State relation]

theorem keeps_pure (value : Value) :
    Keeps relation (pure value : Procedure Fault State Value) :=
  fun state => ensures_pure.mpr (refl_of relation state)

theorem keeps_leave (code : Int) :
    Keeps relation (leave code : Procedure Fault State Value) :=
  fun state => ensures_leave.mpr (refl_of relation state)

omit [IsPreorder State relation] in
theorem keeps_fault (found : Fault) :
    Keeps relation (fault found : Procedure Fault State Value) :=
  fun _ => ensures_fault

theorem keeps_read (part : State → Value) :
    Keeps relation (read part : Procedure Fault State Value) :=
  fun state => ensures_read.mpr (refl_of relation state)

omit [IsPreorder State relation] in
theorem keeps_update {change : State → State} (related : ∀ state, relation state (change state)) :
    Keeps relation (update change : Procedure Fault State Unit) :=
  fun state => ensures_update.mpr (related state)

theorem Keeps.bind {first : Procedure Fault State Value}
    {rest : Value → Procedure Fault State Result} (begins : Keeps relation first)
    (continues : ∀ value, Keeps relation (rest value)) : Keeps relation (first >>= rest) := by
  intro state
  refine ensures_bind.mpr ((begins state).mono fun outcome middle reached => ?_)
  cases outcome with
  | error code => exact reached
  | ok value =>
    exact (continues value middle).mono fun _ _ continued => trans_of relation reached continued

omit [IsPreorder State relation] in
/-- After a procedure that keeps a relation, what is known of the state is the relation. -/
theorem Keeps.ensures_bind {first : Procedure Fault State Value}
    {rest : Value → Procedure Fault State Result} {post : Except Int Result → State → Prop}
    (keeps : Keeps relation first) {state : State}
    (early : ∀ code middle, relation state middle → post (.error code) middle)
    (continues : ∀ value middle, relation state middle → (rest value).Ensures middle post) :
    Ensures (first >>= rest) state post := by
  refine Procedure.ensures_bind.mpr ((keeps state).mono fun outcome middle reached => ?_)
  cases outcome with
  | error code => exact early code middle reached
  | ok value => exact continues value middle reached

omit [IsPreorder State relation] in
theorem Keeps.ite {condition : Prop} [Decidable condition]
    {first second : Procedure Fault State Value} (holds : condition → Keeps relation first)
    (fails : ¬condition → Keeps relation second) :
    Keeps relation (if condition then first else second) := by
  split
  · exact holds ‹_›
  · exact fails ‹_›

theorem keeps_leaveIf (condition : Prop) [Decidable condition] (code : Int) :
    Keeps relation (leaveIf condition code : Procedure Fault State Unit) :=
  .ite (fun _ => keeps_leave code) fun _ => keeps_pure ()

theorem keeps_require (condition : Prop) [Decidable condition] (otherwise : Fault) :
    Keeps relation (require condition otherwise : Procedure Fault State Unit) :=
  .ite (fun _ => keeps_pure ()) fun _ => keeps_fault otherwise

theorem keeps_orLeave (code : Int) (found : Option Value) :
    Keeps relation (orLeave code found : Procedure Fault State Value) := by
  cases found with
  | none => exact keeps_leave code
  | some value => exact keeps_pure value

theorem keeps_orFault (otherwise : Fault) (found : Option Value) :
    Keeps relation (orFault otherwise found : Procedure Fault State Value) := by
  cases found with
  | none => exact keeps_fault otherwise
  | some value => exact keeps_pure value

omit [IsPreorder State relation] in
theorem Keeps.code {callee : Procedure Fault State Unit} (keeps : Keeps relation callee) :
    Keeps relation (code callee) :=
  fun state => ensures_code.mpr (keeps state)

end Keeps

end Procedure
