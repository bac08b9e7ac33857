import Mathlib.Data.Set.BooleanAlgebra
import Mathlib.Order.CompletePartialOrder
import Composite.KernelApi.Capids.Frontiers

/-!
# Ids are given out once

Over every run of allocations the ids of a component do not overlap and lie where
its table has nodes, as long as its frontier does not start at 0, or at the end of
the range that it presupposes.
-/

namespace Composite

namespace Capids

def Granted (w : World) (op : Allocation) : Prop :=
  ∀ frontier ∈ frontierOf op.cap op.cpu, Expands w op.ci frontier →
    op.answers = .granted ∧ Room w op.ci ∧
      (¬w.selfResources op.ci → Expands w (w.comps op.ci).memsrc (.cap32 op.cpu) →
        op.managerAnswers = .granted ∧ Room w (w.comps op.ci).memsrc)

instance (w : World) (op : Allocation) : Decidable (Granted w op) :=
  inferInstanceAs (Decidable (∀ _ ∈ _, _))

/-- The frontiers are those of lines in the tables, but not 0, and a component that
manages its own resources does not start where its table ends. -/
structure Fit (frontiers memsrc : Nat → Nat) : Prop where
  managers : ∀ ci, memsrc (memsrc ci) = memsrc ci
  lines : ∀ ci, frontiers ci % capmaxEntrySz = 0
  inTable : ∀ ci, frontiers ci + captblExpandSz ≤ captblMaxid
  positive : ∀ ci, frontiers ci ≠ 0
  inRange : ∀ ci, memsrc ci = ci → frontiers ci % (captblExpandSz * 2) ≠ captblExpandSz

def ids (piece : Frontier × Nat) : Set Nat := Set.Ico piece.2 (piece.2 + piece.1.idsz)

/-- The ids that were given out.  The line reserved for the next node of a table is the
one before an odd multiple of the node size. -/
structure GivenOnce (w : World) : Prop where
  disjoint : ∀ ci, (w.given ci).Pairwise fun piece earlier => Disjoint (ids piece) (ids earlier)
  oneSize : ∀ ci, ∀ piece ∈ w.given ci, ∀ other ∈ w.given ci, ∀ i ∈ ids piece, ∀ j ∈ ids other,
    i / capmaxEntrySz = j / capmaxEntrySz → piece.1.idsz = other.1.idsz
  constructed : ∀ ci, ∀ piece ∈ w.given ci, ∀ i ∈ ids piece, i / captblExpandSz ∈ w.nodes ci
  reserve : ∀ ci, w.selfResources ci →
    w.limit ci % (captblExpandSz * 2) = captblExpandSz - capmaxEntrySz
  reserved : ∀ ci, w.selfResources ci → ∀ piece ∈ w.given ci, ∀ i ∈ ids piece,
    i / capmaxEntrySz * capmaxEntrySz % (captblExpandSz * 2) ≠ captblExpandSz - capmaxEntrySz

section Components

variable {w w' : World} {ci : Nat}

theorem alloc_taken (inv : Inv w) {answers : Nat → Answers} {cpu levels : Nat} {cap : CapType}
    {frontier : Frontier} (chosen : frontierOf cap cpu = some frontier)
    (granted : Expands w ci frontier → answers levels = .granted ∧ Room w ci ∧
      (¬w.selfResources ci → ∃ cap w₁, NodeCap
        (fun w => capidBumpAlloc answers cpu levels w (w.comps ci).memsrc .captbl) w ci cap w₁)) :
    ∃ ret w', capidBumpAlloc answers cpu (levels + 1) w ci cap = .ok (ret, w') ∧ ret ≠ 0 ∧ Inv w' ∧
      (w.selfResources ci → ∀ other ≠ ci, Same w w' other) := by
  unfold capidBumpAlloc
  rw [chosen]
  simp only
  generalize (fun w => capidBumpAlloc answers cpu levels w (w.comps ci).memsrc .captbl) = nodeCap
    at granted ⊢
  have expanded : (w.comps ci).szFrontier frontier % 4 = 0 → ∃ w₁,
      captblCheckExpand nodeCap (answers levels) w ci = .ok w₁ ∧
        (Inv w₁ ∧ (w.selfResources ci → ∀ other ≠ ci, Same w w₁ other)) ∧ Kept w₁ ci ∧
        (w₁.comps ci).capFrontier ≠ w₁.limit ci := by
    intro opens
    obtain ⟨w₁, result, inv₁, left, others⟩ :=
      checkExpand_leaves inv fun atLimit => granted ⟨opens, atLimit⟩
    exact ⟨w₁, result, ⟨inv₁, others⟩, inv₁.kept ci, left⟩
  obtain ⟨w₁, start, capFrontier, ⟨inv₁, others⟩, nonzero, result, kept⟩ :=
    @generic_taken w ci (captblCheckExpand nodeCap (answers levels) · ci) frontier
      (fun w₁ => Inv w₁ ∧ (w.selfResources ci → ∀ other ≠ ci, Same w w₁ other)) (inv.kept ci)
      ⟨inv, fun _ _ _ => ⟨rfl, rfl, rfl⟩⟩ expanded
  refine ⟨start, _, result, nonzero, inv₁.change (memsrc_taken w₁ ci · _ _ _) kept
    fun other different =>
    taken_other w₁ different _ _ _, fun self other different => ?_⟩
  have before := others self other different
  have after := taken_other w₁ different frontier start capFrontier
  exact ⟨after.comps.trans before.comps, after.nodes.trans before.nodes,
    after.given.trans before.given⟩

theorem run_granted (inv : Inv w) {op : Allocation} (granted : Granted w op) :
    ∃ ret w', op.run w = .ok (ret, w') ∧ Inv w' := by
  unfold Allocation.run
  cases chosen : frontierOf op.cap op.cpu with
  | none =>
    unfold capidBumpAlloc
    rw [chosen]
    exact ⟨_, w, rfl, inv⟩
  | some frontier =>
    have needs := granted frontier chosen
    have answered : Expands w op.ci frontier → op.answers = .granted ∧ Room w op.ci ∧
        (¬w.selfResources op.ci → ∃ cap w₁, NodeCap (fun w => capidBumpAlloc
          (fun level => if level = 0 then op.managerAnswers else op.answers) op.cpu 1 w
          (w.comps op.ci).memsrc .captbl) w op.ci cap w₁) := by
      intro expands
      obtain ⟨answers, room, managers⟩ := needs expands
      refine ⟨answers, room, fun managed => ?_⟩
      have different : op.ci ≠ (w.comps op.ci).memsrc := fun same => managed same.symm
      obtain ⟨cap, w₁, given, nonzero, inv₁, others⟩ :=
        @alloc_taken w (w.comps op.ci).memsrc inv
          (fun level => if level = 0 then op.managerAnswers else op.answers) op.cpu 0 .captbl
          (.cap32 op.cpu) rfl fun managerExpands =>
            ⟨(managers managed managerExpands).1, (managers managed managerExpands).2,
              fun other => absurd (inv.managers op.ci) other⟩
      exact ⟨cap, w₁, given, nonzero, inv₁, others (inv.managers op.ci) op.ci different⟩
    obtain ⟨ret, w', result, -, inv', -⟩ := @alloc_taken w op.ci inv
      (fun level => if level = 0 then op.managerAnswers else op.answers) op.cpu 1 op.cap frontier
      chosen answered
    exact ⟨ret, w', result, inv'⟩

theorem inv_next {op : Allocation} (inv : Inv w) (granted : Granted w op)
    (stepped : next w op = some w') : Inv w' := by
  obtain ⟨ret, w₁, result, inv₁⟩ := run_granted inv granted
  unfold next at stepped
  rw [result] at stepped
  cases stepped
  exact inv₁

theorem ids_line {piece : Frontier × Nat} (kept : Kept w ci) (member : piece ∈ w.given ci) {i : Nat}
    (inPiece : i ∈ ids piece) : i / 4 = piece.2 / 4 := by
  have fits := LineAlloc.piece_fits (idsz_dvd piece.1) (by decide) (kept.lines.whole piece member)
  obtain ⟨from_, to_⟩ := inPiece
  omega

theorem Inv.givenOnce (inv : Inv w) : GivenOnce w where
  disjoint := by
    intro ci
    refine (inv.kept ci).lines.disjoint.imp fun apart => ?_
    refine Set.disjoint_left.mpr fun i inPiece inEarlier => ?_
    obtain ⟨from_, to_⟩ := inPiece
    obtain ⟨from', to'⟩ := inEarlier
    omega
  oneSize := by
    intro ci piece member other otherMember i inPiece j inOther sameLine
    have kept := inv.kept ci
    have line := ids_line kept member inPiece
    have otherLine := ids_line kept otherMember inOther
    rw [kept.lines.oneKey piece member other otherMember
      (line.symm.trans (sameLine.trans otherLine))]
  constructed := by
    intro ci piece member i inPiece
    have kept := inv.kept ci
    have line := ids_line kept member inPiece
    have before : piece.2 < (w.comps ci).capFrontier := kept.lines.below piece member
    have whole : (w.comps ci).capFrontier % 4 = 0 := kept.lines.frontier
    have lineEnd := LineAlloc.line_end whole before
    have below := kept.below
    unfold captblExpandSz
    rw [kept.nodes]
    omega
  reserve := by
    intro ci self
    have kept := inv.kept ci
    have equal := kept.limit_eq
    have range := kept.range
    rw [if_pos self] at equal
    unfold captblExpandSz capmaxEntrySz
    omega
  reserved := by
    intro ci self piece member i inPiece
    have kept := inv.kept ci
    have line := ids_line kept member inPiece
    have unreserved := kept.unreserved self piece member
    unfold captblExpandSz capmaxEntrySz
    omega

end Components

theorem roundUpToPow2_eq {x pow2 : Nat} (fits : x + pow2 ≤ 2 ^ 32) :
    roundUpToPow2 x pow2 = (x + pow2 - 1) / pow2 * pow2 := by
  unfold roundUpToPow2
  rw [Nat.mod_eq_of_lt (by omega)]

theorem caprangeInit_eq {frontier : Nat} (fits : frontier + 128 ≤ 2 ^ 16) :
    caprangeInit frontier = if frontier < 128 then (frontier + 127) / 128 * 128
      else (frontier + 383) / 256 * 256 - 128 := by
  unfold caprangeInit captblExpandSz
  split_ifs with small
  · rw [roundUpToPow2_eq (by omega)]
    omega
  · rw [roundUpToPow2_eq (by omega)]
    omega

theorem inv_initial {frontiers memsrc : Nat → Nat} (fit : Fit frontiers memsrc) :
    Inv (initial frontiers memsrc) := by
  refine ⟨fit.managers, fun ci => ?_⟩
  have whole : frontiers ci % 4 = 0 := fit.lines ci
  have fits : frontiers ci + 128 ≤ 2 ^ 16 := fit.inTable ci
  have positive := fit.positive ci
  have inRange := fit.inRange ci
  have range := caprangeInit_eq fits
  unfold captblExpandSz at inRange
  constructor
  case range =>
    simp only [initial, compinfoInit, range]
    split_ifs <;> omega
  case inTable =>
    simp only [initial, compinfoInit, range]
    split_ifs <;> omega
  case positive => exact Nat.pos_of_ne_zero positive
  case below =>
    simp only [initial, compinfoInit, range, World.selfResources]
    split_ifs with self small
    · omega
    · have apart := inRange self
      omega
    · omega
    · omega
  case near =>
    simp only [initial, compinfoInit, range]
    split_ifs <;> omega
  case nodes =>
    intro n
    simp only [initial, compinfoInit, range, Finset.mem_range, captblExpandSz]
    split_ifs <;> omega
  case nonzero => exact fun _ => positive
  case lines => exact LineAlloc.sound_initial idsz_dvd whole
  case unreserved => simp [initial, compinfoInit]
  case openUnreserved => exact fun _ _ inLine => absurd whole inLine

/-- From frontiers that fit, every run whose expansions are granted gives ids out once
and fails no assertion. -/
theorem capids_given_once {frontiers memsrc : Nat → Nat} (fit : Fit frontiers memsrc)
    {ops : List Allocation} {w : World}
    (granted : Transition.Meets Granted next (initial frontiers memsrc) ops)
    (executed : Transition.exec next (initial frontiers memsrc) ops = some w) :
    GivenOnce w ∧ ∀ op, Granted w op → ∃ ret w', op.run w = .ok (ret, w') := by
  have kept : ∀ w op w', Inv w → Granted w op → next w op = some w' → Inv w' :=
    fun _ _ _ inv granted stepped => inv_next inv granted stepped
  have inv := Transition.exec_invariant kept (inv_initial fit) granted executed
  refine ⟨inv.givenOnce, fun op allowed => ?_⟩
  obtain ⟨ret, w', result, -⟩ := run_granted inv allowed
  exact ⟨ret, w', result⟩

def Allocation.onCore (ci : Nat) (cap : CapType) (cpu : Nat) : Allocation :=
  ⟨ci, cap, cpu, .granted, .granted⟩

/-- Components that are managed by the first one. -/
theorem capids_given_once_managed : ∃ w,
    Transition.exec next (initial (fun _ => 124) fun _ => 0)
      [.onCore 1 .sinv 0, .onCore 1 .thd 0, .onCore 1 .captbl 2, .onCore 0 .thd 3] = some w ∧
    w.given 1 = [(.cap32 2, 132), (.cap16 0, 128), (.cap64, 124)] ∧
    w.given 0 = [(.cap16 3, 132), (.cap32 0, 128)] ∧ GivenOnce w := by
  have fit : Fit (fun _ => 124) fun _ => 0 :=
    ⟨fun _ => rfl, fun _ => rfl, fun _ => by decide, fun _ => by decide, fun _ _ => by decide⟩
  have seen : (Transition.exec next (initial (fun _ => 124) fun _ => 0)
      [.onCore 1 .sinv 0, .onCore 1 .thd 0, .onCore 1 .captbl 2, .onCore 0 .thd 3]).map
        (fun w => (w.given 1, w.given 0)) =
      some ([(.cap32 2, 132), (.cap16 0, 128), (.cap64, 124)],
        [(.cap16 3, 132), (.cap32 0, 128)]) := by
    decide +kernel
  obtain ⟨w, executed, lists⟩ := Option.map_eq_some_iff.mp seen
  refine ⟨w, executed, congrArg Prod.fst lists, congrArg Prod.snd lists, ?_⟩
  exact (capids_given_once fit (by decide +kernel) executed).1

/-- A component that manages its own resources and starts at 128 fails an assertion with
its first allocation; one that starts at 0 gets ids that its table has no node for. -/
theorem capids_not_given :
    (match Allocation.run (.onCore 0 .thd 0) (initial (fun _ => 128) id) with
      | .error fault => some fault
      | .ok _ => none) = some .assertion ∧
    ((Transition.exec next (initial (fun _ => 0) id) (List.replicate 33 (.onCore 0 .sinv 0))).map
      fun w => ((w.given 0).head?, decide (1 ∈ w.nodes 0))) = some (some (.cap64, 128), false) := by
  decide +kernel

end Capids

end Composite
