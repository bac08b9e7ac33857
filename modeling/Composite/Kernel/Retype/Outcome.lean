import Composite.Kernel.Retype.Atomicity

/-!
# What the return value of a retype to frame says

Along a run a ledger keeps what all calls have produced and, for every core,
what all calls but the one that core is running have produced.  The two agree
as long as a `retypetbl_retype2frame` has not committed.
-/

namespace Composite.RetypeProtocol

open Finset Option

/-- The core is inside `retypetbl_retype2frame`. -/
def Pc.inFrame : Pc → Bool
  | .frameRead | .frameLock .. | .frameLoad .. | .frameCas .. | .frameUnmap ..
  | .frameClearCnt .. | .frameClearType .. | .frameRestore .. | .frameRestoreCas .. => true
  | _ => false

structure Ledger where
  total : SetView
  others : Nat → SetView

namespace Ledger

def boot : Ledger := ⟨.boot, fun _ => .boot⟩

/-- A call starts with what has been produced before it; the steps of a core
count for every core but itself. -/
def record (m : Machine) (event : Event) (ledger : Ledger) : Ledger where
  total := effect m event ledger.total
  others := fun c =>
    match event with
    | .call d _ => if d = c then ledger.total else ledger.others c
    | .step d => if d = c then ledger.others c else effect m event (ledger.others c)
    | _ => ledger.others c

end Ledger

structure Accounted (m : Machine) (ledger : Ledger) : Prop where
  invariant : Invariant m ledger.total
  pending : ∀ c < numCpu, (m.pc c).inFrame = true → ledger.others c = ledger.total

namespace Machine

theorem instr_pc_other {m m' : Machine} {c d : Nat} (stepped : m.instr c = some m')
    (different : d ≠ c) : m'.pc d = m.pc d := by
  cases stands : m.pc c with
  | idle | returned | died => simp [instr, stands] at stepped
  | frameRestore oldType cpu ret =>
    cases cpu <;> simp only [instr, stands] at stepped
    · split_ifs at stepped <;> cases stepped <;> simp [goto, setGlb, different]
    · cases stepped
      simp [goto, different]
  | _ =>
    simp only [instr, stands] at stepped
    first
      | cases stepped
        simp [goto, setEntry, different]
      | split_ifs at stepped <;> cases stepped <;>
          simp [goto, setEntry, setGlb, different]

end Machine

theorem inFrame_of_instr {m m' : Machine} {c : Nat} (stepped : m.instr c = some m')
    (after : (m'.pc c).inFrame = true) : (m.pc c).inFrame = true := by
  cases stands : m.pc c with
  | refLoad | retypeRead =>
    simp only [Machine.instr, stands] at stepped
    cases stepped
    rw [Machine.goto_pc_self] at after
    split_ifs at after <;> cases after
  | refStamp =>
    simp only [Machine.instr, stands] at stepped
    cases stepped
    simp [Pc.inFrame] at after
  | refCas | retypeCas | retypeWrite =>
    simp only [Machine.instr, stands] at stepped
    split_ifs at stepped <;> cases stepped <;> simp [Pc.inFrame] at after
  | idle | returned | died => simp [Machine.instr, stands] at stepped
  | _ => rfl

theorem effect_of_inFrame {m m' : Machine} {view : SetView} {c : Nat}
    (inFrame : (m.pc c).inFrame = true) (stepped : m.instr c = some m')
    (unfinished : m'.pc c ≠ .returned 0) (alive : m'.pc c ≠ .died) :
    effect m (.step c) view = view := by
  cases stands : m.pc c with
  | frameClearCnt cpu =>
    simp only [effect, stands]
    split_ifs with remaining
    · rfl
    · simp only [Machine.instr, stands, remaining, if_false] at stepped
      split_ifs at stepped <;> cases stepped <;> simp at unfinished alive
  | _ => first | (simp [stands, Pc.inFrame] at inFrame; done) | simp [effect, stands]

theorem Accounted.step {m m' : Machine} {ledger : Ledger} {event : Event}
    (accounted : Accounted m ledger) (stepped : next m event = some m') :
    Accounted m' (ledger.record m event) := by
  refine ⟨accounted.invariant.step stepped, ?_⟩
  intro c bounded inFrame
  cases event with
  | call d call =>
    simp only [next, ite_none_right_eq_some, some.injEq] at stepped
    obtain ⟨-, rfl⟩ := stepped
    by_cases same : d = c
    · simp [Ledger.record, effect, same]
    · rw [Machine.goto_pc_other _ _ (Ne.symm same)] at inFrame
      simpa [Ledger.record, effect, same] using accounted.pending c bounded inFrame
  | step d =>
    simp only [next, ite_none_right_eq_some] at stepped
    obtain ⟨-, stepped⟩ := stepped
    by_cases same : d = c
    · subst same
      have unfinished : m'.pc d ≠ .returned 0 := fun returned => by
        simp [returned, Pc.inFrame] at inFrame
      have alive : m'.pc d ≠ .died := fun died => by simp [died, Pc.inFrame] at inFrame
      have before := inFrame_of_instr stepped inFrame
      simp only [Ledger.record, if_true, effect_of_inFrame before stepped unfinished alive]
      exact accounted.pending d bounded before
    · rw [Machine.instr_pc_other stepped (Ne.symm same)] at inFrame
      have before := accounted.pending c bounded inFrame
      simp [Ledger.record, same, before]
  | tick =>
    simp only [next, some.injEq] at stepped
    subst stepped
    exact accounted.pending c bounded inFrame
  | periodicFlush d time =>
    simp only [next, ite_none_right_eq_some, some.injEq] at stepped
    obtain ⟨-, rfl⟩ := stepped
    exact accounted.pending c bounded inFrame
  | mandatoryFlush d time =>
    simp only [next, ite_none_right_eq_some, some.injEq] at stepped
    obtain ⟨-, rfl⟩ := stepped
    exact accounted.pending c bounded inFrame

theorem Accounted.boot (tlb : Nat → TlbQuiescence) (tsc : Nat) :
    Accounted (boot tlb tsc) .boot where
  invariant := .boot tlb tsc
  pending := fun _ _ inFrame => by cases inFrame

/-- The call of core `c` has moved the set to untyped: it held the lock, no
reference was left, and every unmapping is covered by a flush of the TLB. -/
structure Commits (m m' : Machine) (ledger : Ledger) (c : Nat) : Prop where
  held : (m.pc c).inside = true ∧ m.glbType = .retyping
  unreferenced : ∑ k ∈ range numCpu, ledger.total.refCnt k = 0
  flushed : ∀ k < numCpu, ledger.total.lastUnmap k ≤ (m.tlb c).lastPeriodicFlush ∨
    ∀ i < numCpuCos, ledger.total.lastUnmap k ≤ (m.tlb i).lastMandatoryFlush
  untyped : m'.glbType = .untyped ∧ ∀ k < numCpu, m'.atom k = ⟨.untyped, 0⟩

/-- Zero means that the call has committed; with an error the table is what the
other calls have produced. -/
structure Outcome (m m' : Machine) (ledger : Ledger) (c : Nat) (ret : Int) : Prop where
  success : ret = 0 → Commits m m' ledger c
  failure : ret ≠ 0 → Produced m' ((ledger.record m (.step c)).others c)

/-- The step does not lose the race for the lock in `retypetbl_retype2frame`. -/
def LockWins (m : Machine) : Event → Prop
  | .step c => ∀ oldType, m.pc c = .frameLock oldType → m.glbType = oldType
  | _ => True

instance (m : Machine) (event : Event) : Decidable (LockWins m event) :=
  match event with
  | .step c =>
    match stands : m.pc c with
    | .frameLock oldType =>
      decidable_of_iff (m.glbType = oldType) (by simp [LockWins, stands])
    | .idle | .returned _ | .died | .refLoad .. | .refStamp _ | .refCas .. | .retypeRead ..
    | .retypeCas _ | .retypeWrite .. | .frameRead | .frameLoad .. | .frameCas ..
    | .frameUnmap .. | .frameClearCnt _ | .frameClearType _ | .frameRestore ..
    | .frameRestoreCas .. => .isTrue (by simp [LockWins, stands])
  | .call .. | .tick | .periodicFlush .. | .mandatoryFlush .. => .isTrue trivial

section Returns

variable {m m' : Machine} {ledger : Ledger} {c : Nat} {ret : Int}

theorem Accounted.produced_of_failure (accounted : Accounted m ledger) (bounded : c < numCpu)
    (inFrame : (m.pc c).inFrame = true) (stepped : m.instr c = some m')
    (returned : m'.pc c = .returned ret) (failed : ret ≠ 0) :
    Produced m' ((ledger.record m (.step c)).others c) := by
  have unfinished : m'.pc c ≠ .returned 0 := by
    rw [returned]
    simpa using failed
  have alive : m'.pc c ≠ .died := by simp [returned]
  have quiet : effect m (.step c) ledger.total = ledger.total :=
    effect_of_inFrame inFrame stepped unfinished alive
  have kept := (accounted.invariant.instr bounded stepped).toProduced
  rw [quiet] at kept
  simpa [Ledger.record, accounted.pending c bounded inFrame] using kept

theorem committing_of_success (invariant : Invariant m ledger.total) (bounded : c < numCpu)
    (wins : LockWins m (.step c)) (inFrame : (m.pc c).inFrame = true)
    (stepped : m.instr c = some m') (returned : m'.pc c = .returned 0) :
    m.pc c = .frameClearCnt numCpu ∧ m' = (m.setGlb .untyped).goto c (.returned 0) := by
  have facts := invariant.facts c bounded
  cases stands : m.pc c with
  | frameRead =>
    simp only [Machine.instr, stands] at stepped
    cases stepped
    rw [Machine.goto_pc_self] at returned
    split_ifs at returned
    simp [Errno.eperm] at returned
  | frameLock oldType =>
    simp only [Machine.instr, stands, wins oldType stands, if_true] at stepped
    cases stepped
    simp at returned
  | frameLoad oldType cpu refSum lastUnmap =>
    simp only [Machine.instr, stands] at stepped
    cases stepped
    rw [Machine.goto_pc_self] at returned
    split_ifs at returned
  | frameUnmap | frameClearType =>
    simp only [Machine.instr, stands] at stepped
    cases stepped
    simp at returned
  | frameCas | frameRestoreCas =>
    simp only [Machine.instr, stands] at stepped
    split_ifs at stepped <;> cases stepped <;> simp at returned
  | frameRestore oldType cpu ret =>
    rw [stands] at facts
    cases cpu <;> simp only [Machine.instr, stands] at stepped
    · split_ifs at stepped <;> cases stepped
      · simp only [Machine.goto_pc_self, Pc.returned.injEq] at returned
        exact absurd returned facts.2.2.2
      · simp at returned
    · cases stepped
      simp at returned
  | frameClearCnt cpu =>
    rw [stands] at facts
    simp only [Machine.instr, stands] at stepped
    split_ifs at stepped with remaining locked
    · cases stepped
      simp at returned
    · obtain rfl : cpu = numCpu := by
        have within := facts.1
        omega
      cases stepped
      exact ⟨rfl, rfl⟩
    · cases stepped
      simp at returned
  | _ => simp [stands, Pc.inFrame] at inFrame

theorem Accounted.outcome (accounted : Accounted m ledger) (wins : LockWins m (.step c))
    (stepped : next m (.step c) = some m') (inFrame : (m.pc c).inFrame = true)
    (returned : m'.pc c = .returned ret) : Outcome m m' ledger c ret := by
  simp only [next, ite_none_right_eq_some] at stepped
  obtain ⟨bounded, stepped⟩ := stepped
  refine ⟨?_, accounted.produced_of_failure bounded inFrame stepped returned⟩
  rintro rfl
  obtain ⟨stands, rfl⟩ :=
    committing_of_success accounted.invariant bounded wins inFrame stepped returned
  have inside : (m.pc c).inside = true := by rw [stands]; rfl
  obtain ⟨global, atoms⟩ := accounted.invariant.locked c bounded inside
  have facts := accounted.invariant.facts c bounded
  rw [stands] at facts atoms
  refine ⟨⟨inside, global⟩, facts.2.1, ?_, rfl, ?_⟩
  · intro k boundedK
    exact (tlbQuiescenceCheck_iff _ _ _).mp (facts.2.2 k boundedK)
  · intro k boundedK
    rw [Machine.goto_atom, Machine.setGlb_atom, atoms k boundedK]
    simp [overlay, boundedK]

end Returns

/-- In every run in which no retype to frame loses the race for the lock: the
table is what the calls have produced, a global type that is not being changed
is the type on every core, and the return value of a retype to frame says what
the call has done. -/
theorem retype2frame_outcome (tlb : Nat → TlbQuiescence) (tsc : Nat) (events : List Event)
    (m : Machine) (wins : Transition.Meets LockWins next (boot tlb tsc) events)
    (executed : Transition.exec next (boot tlb tsc) events = some m) :
    let ledger := Transition.trace next Ledger.record (boot tlb tsc) events .boot
    Produced m ledger.total ∧
      (m.glbType ≠ .retyping → ∀ k < numCpu, (m.atom k).type = m.glbType) ∧
      ∀ c m' ret, LockWins m (.step c) → next m (.step c) = some m' →
        (m.pc c).inFrame = true → m'.pc c = .returned ret → Outcome m m' ledger c ret := by
  intro ledger
  have accounted : Accounted m ledger :=
    Transition.exec_invariant_trace
      (fun _ _ _ _ accounted _ stepped => accounted.step stepped)
      (Accounted.boot tlb tsc) wins executed
  refine ⟨accounted.invariant.toProduced, ?_, ?_⟩
  · intro free k bounded
    have unlocked := accounted.invariant.unlocked_of_glbType free
    obtain ⟨global, atoms⟩ := accounted.invariant.unlocked unlocked
    rw [atoms k bounded, global]
    rfl
  · intro c m' ret winsLast stepped inFrame returned
    exact accounted.outcome winsLast stepped inFrame returned

def typedRun : List Event := .call 0 .retype2user :: List.replicate 19 (.step 0)

def untypingRun : List Event :=
  typedRun ++ .call 0 .retype2frame :: List.replicate 83 (.step 0)

theorem retype2frame_outcome_commit :
    ∃ m ∈ Transition.exec next (boot (fun _ => ⟨0, 0⟩) 0) untypingRun, ∃ m' ∈ next m (.step 0),
      Outcome m m'
        (Transition.trace next Ledger.record (boot (fun _ => ⟨0, 0⟩) 0) untypingRun .boot) 0 0 := by
  obtain ⟨m, ran, m', stepped, wins, inFrame, returned⟩ :
      ∃ m ∈ Transition.exec next (boot (fun _ => ⟨0, 0⟩) 0) untypingRun,
        ∃ m' ∈ next m (.step 0), LockWins m (.step 0) ∧ (m.pc 0).inFrame = true ∧
          m'.pc 0 = .returned 0 := by decide +kernel
  have outcome := retype2frame_outcome (fun _ => ⟨0, 0⟩) 0 untypingRun m (by decide +kernel) ran
  exact ⟨m, ran, m', stepped, outcome.2.2 0 m' 0 wins stepped inFrame returned⟩

def lostRun : List Event :=
  typedRun ++ [.call 1 .ref, .step 1, .step 1, .call 0 .retype2frame, .call 1 .retype2frame,
    .step 0, .step 1, .step 1]

/-- The call that loses the race returns zero while the set is referenced. -/
theorem retype2frame_lost_lock :
    ∃ m ∈ Transition.exec next (boot (fun _ => ⟨0, 0⟩) 0) lostRun, ∃ m' ∈ next m (.step 0),
      (m.pc 0).inFrame = true ∧ m'.pc 0 = .returned 0 ∧ m'.glbType ≠ .untyped ∧
        m'.atom 1 = ⟨.user, 1⟩ := by
  decide +kernel

end Composite.RetypeProtocol
