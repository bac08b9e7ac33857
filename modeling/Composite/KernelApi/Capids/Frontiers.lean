import Composite.Lib.Checked
import Composite.Lib.LineAlloc
import Composite.KernelApi.Capids.Model

/-!
# The frontiers of a component

What holds of the frontiers of a component and of the ids it was given, and how the
expansion of its table and an allocation keep it.
-/

namespace Composite

open Function Checked

namespace Capids

def Expands (w : World) (ci : Nat) (frontier : Frontier) : Prop :=
  (w.comps ci).szFrontier frontier % capmaxEntrySz = 0 ∧ (w.comps ci).capFrontier = w.limit ci

instance (w : World) (ci : Nat) (frontier : Frontier) : Decidable (Expands w ci frontier) :=
  inferInstanceAs (Decidable (_ ∧ _))

def Room (w : World) (ci : Nat) : Prop :=
  (w.comps ci).caprangeFrontier + captblExpandSz * 2 ≤ captblMaxid

instance (w : World) (ci : Nat) : Decidable (Room w ci) := inferInstanceAs (Decidable (_ ≤ _))

structure Kept (w : World) (ci : Nat) : Prop where
  range : (w.comps ci).caprangeFrontier % 256 = 128
  inTable : (w.comps ci).caprangeFrontier ≤ 2 ^ 16
  positive : 0 < (w.comps ci).capFrontier
  below : (w.comps ci).capFrontier + (if w.selfResources ci then 4 else 0) ≤
    (w.comps ci).caprangeFrontier
  near : (w.comps ci).caprangeFrontier ≤ (w.comps ci).capFrontier + 256
  nodes : ∀ n, n ∈ w.nodes ci ↔ n * 128 < (w.comps ci).caprangeFrontier
  nonzero : ∀ frontier, (w.comps ci).szFrontier frontier ≠ 0
  lines : LineAlloc.Sound 4 Frontier.idsz
    ⟨(w.comps ci).capFrontier, (w.comps ci).szFrontier, w.given ci⟩
  unreserved : w.selfResources ci → ∀ piece ∈ w.given ci, piece.2 / 4 % 64 ≠ 31
  openUnreserved : w.selfResources ci → ∀ frontier, (w.comps ci).szFrontier frontier % 4 ≠ 0 →
    (w.comps ci).szFrontier frontier / 4 % 64 ≠ 31

structure Inv (w : World) : Prop where
  managers : ∀ ci, (w.comps (w.comps ci).memsrc).memsrc = (w.comps ci).memsrc
  kept : ∀ ci, Kept w ci

structure Same (w w' : World) (ci : Nat) : Prop where
  comps : w'.comps ci = w.comps ci
  nodes : w'.nodes ci = w.nodes ci
  given : w'.given ci = w.given ci

section Components

variable {w w' : World} {ci : Nat}

theorem idsz_dvd (frontier : Frontier) : frontier.idsz ∣ 4 := by
  cases frontier with
  | cap16 cpu => exact ⟨4, rfl⟩
  | cap32 cpu => exact ⟨2, rfl⟩
  | cap64 => exact ⟨1, rfl⟩

theorem Same.kept (same : Same w w' ci) (kept : Kept w ci) : Kept w' ci := by
  obtain ⟨range, inTable, positive, below, near, nodes, nonzero, lines, unreserved,
    openUnreserved⟩ :=
    kept
  unfold World.selfResources at below unreserved openUnreserved
  constructor <;> simp only [World.selfResources, same.comps, same.nodes, same.given] <;> assumption

theorem Kept.limit_eq (kept : Kept w ci) :
    w.limit ci + (if w.selfResources ci then 4 else 0) = (w.comps ci).caprangeFrontier := by
  have inTable := kept.inTable
  have range := kept.range
  unfold World.limit capmaxEntrySz
  split_ifs <;> omega

theorem Kept.below_limit (kept : Kept w ci) : (w.comps ci).capFrontier ≤ w.limit ci := by
  have below := kept.below
  have equal := kept.limit_eq
  omega

theorem Kept.line_left (kept : Kept w ci) (left : (w.comps ci).capFrontier ≠ w.limit ci) :
    (w.comps ci).capFrontier + 4 ≤ w.limit ci := by
  have below := kept.below_limit
  have equal := kept.limit_eq
  have range := kept.range
  have whole : (w.comps ci).capFrontier % 4 = 0 := kept.lines.frontier
  have limitWhole : w.limit ci % 4 = 0 := by
    split_ifs at equal <;> omega
  omega

theorem advance_comps (w : World) (ci : Nat) :
    (advance w ci).comps ci = { w.comps ci with
      capFrontier := (w.comps ci).caprangeFrontier
      caprangeFrontier := ((w.comps ci).caprangeFrontier + captblExpandSz * 2) % 2 ^ 32 } := by
  simp [advance, World.modify]

theorem advance_self (w : World) (ci : Nat) :
    (advance w ci).selfResources ci ↔ w.selfResources ci := by
  unfold World.selfResources
  rw [advance_comps]

theorem advance_other (w : World) {ci other : Nat} (different : other ≠ ci) :
    Same w (advance w ci) other := by
  constructor <;> simp [advance, World.modify, different]

/-- The table after an expansion. -/
theorem Kept.advance (kept : Kept w ci) (room : Room w ci) :
    Kept (advance w ci) ci ∧
      ((advance w ci).comps ci).capFrontier ≠ (advance w ci).limit ci := by
  have range := kept.range
  have room' : (w.comps ci).caprangeFrontier + 256 ≤ 2 ^ 16 := room
  have below := kept.below
  have added : (w.comps ci).caprangeFrontier % 4 = 0 := by omega
  have wide : ((w.comps ci).caprangeFrontier + captblExpandSz * 2) % 2 ^ 32 =
      (w.comps ci).caprangeFrontier + 256 := Nat.mod_eq_of_lt (by
        unfold captblExpandSz
        omega)
  have after : Kept (Capids.advance w ci) ci := by
    constructor
    case range =>
      rw [advance_comps, wide]
      simp only
      omega
    case inTable =>
      rw [advance_comps, wide]
      exact room'
    case positive =>
      rw [advance_comps]
      simp only
      omega
    case below =>
      simp only [advance_self]
      rw [advance_comps, wide]
      simp only
      split_ifs <;> omega
    case near =>
      rw [advance_comps, wide]
    case nodes =>
      intro n
      have before := kept.nodes n
      rw [advance_comps, wide]
      simp only [Capids.advance, update_self, Finset.mem_insert, before, captblExpandSz]
      omega
    case nonzero =>
      rw [advance_comps]
      exact kept.nonzero
    case lines =>
      have forward : (w.comps ci).capFrontier ≤ (w.comps ci).caprangeFrontier := by omega
      rw [advance_comps]
      exact kept.lines.skip added forward
    case unreserved =>
      rw [advance_self]
      exact kept.unreserved
    case openUnreserved =>
      rw [advance_self, advance_comps]
      exact kept.openUnreserved
  refine ⟨after, fun atLimit => ?_⟩
  have equal := after.limit_eq
  rw [← atLimit, advance_comps, wide] at equal
  simp only at equal
  split_ifs at equal <;> omega

def taken (w : World) (ci : Nat) (frontier : Frontier) (start capFrontier : Nat) : World :=
  { w.modify ci fun c => { c with
      capFrontier := capFrontier
      szFrontier := Function.update c.szFrontier frontier (start + frontier.idsz) } with
    given := Function.update w.given ci ((frontier, start) :: w.given ci) }

theorem taken_other (w : World) {ci other : Nat} (different : other ≠ ci) (frontier : Frontier)
    (start capFrontier : Nat) : Same w (taken w ci frontier start capFrontier) other := by
  constructor <;> simp [taken, World.modify, different]

theorem taken_comps (w : World) (ci : Nat) (frontier : Frontier) (start capFrontier : Nat) :
    (taken w ci frontier start capFrontier).comps ci = { w.comps ci with
      capFrontier := capFrontier
      szFrontier := update (w.comps ci).szFrontier frontier (start + frontier.idsz) } := by
  simp [taken, World.modify]

theorem taken_self (w : World) (ci : Nat) (frontier : Frontier) (start capFrontier : Nat) :
    (taken w ci frontier start capFrontier).selfResources ci ↔ w.selfResources ci := by
  unfold World.selfResources
  rw [taken_comps]

/-- A piece was taken from a line in the range. -/
theorem Kept.taken (kept : Kept w ci) {frontier : Frontier} {start capFrontier : Nat}
    (takes : LineAlloc.Takes 4 Frontier.idsz
      ⟨(w.comps ci).capFrontier, (w.comps ci).szFrontier, w.given ci⟩ frontier start
      ⟨capFrontier, update (w.comps ci).szFrontier frontier (start + frontier.idsz),
        (frontier, start) :: w.given ci⟩)
    (aligned : start % frontier.idsz = 0) (forward : (w.comps ci).capFrontier ≤ capFrontier)
    (below : capFrontier + (if w.selfResources ci then 4 else 0) ≤ (w.comps ci).caprangeFrontier)
    (unreserved : w.selfResources ci → start / 4 % 64 ≠ 31) :
    Kept (taken w ci frontier start capFrontier) ci := by
  have positive := kept.positive
  have near := kept.near
  constructor
  case range =>
    rw [taken_comps]
    exact kept.range
  case inTable =>
    rw [taken_comps]
    exact kept.inTable
  case positive =>
    rw [taken_comps]
    exact positive.trans_le forward
  case below =>
    simp only [taken_self]
    rw [taken_comps]
    exact below
  case near =>
    rw [taken_comps]
    simp only
    omega
  case nodes =>
    rw [taken_comps]
    exact kept.nodes
  case nonzero =>
    intro other
    rw [taken_comps]
    by_cases same : other = frontier
    · subst same
      have sized : 0 < other.idsz := Nat.pos_of_dvd_of_pos (idsz_dvd other) (by decide)
      simp only [update_self]
      omega
    · simpa [same] using kept.nonzero other
  case lines =>
    rw [taken_comps]
    simpa [Capids.taken] using takes.sound idsz_dvd (by decide) kept.lines
  case unreserved =>
    rw [taken_self]
    intro self piece member
    simp only [Capids.taken, update_self] at member
    rcases List.mem_cons.mp member with rfl | earlier
    · exact unreserved self
    · exact kept.unreserved self piece earlier
  case openUnreserved =>
    rw [taken_self, taken_comps]
    intro self other inLine
    by_cases same : other = frontier
    · subst same
      simp only [update_self] at inLine ⊢
      rw [LineAlloc.next_line (idsz_dvd other) (by decide) aligned inLine]
      exact unreserved self
    · simp only [ne_eq, same, not_false_eq_true, update_of_ne] at inLine ⊢
      exact kept.openUnreserved self other inLine

/-- A piece of a line that is open. -/
theorem Kept.next (kept : Kept w ci) {frontier : Frontier}
    (inLine : (w.comps ci).szFrontier frontier % 4 ≠ 0) :
    Kept (Capids.taken w ci frontier ((w.comps ci).szFrontier frontier) (w.comps ci).capFrontier)
    ci :=
  kept.taken (.next inLine) (kept.lines.aligned frontier) le_rfl kept.below
    fun self => kept.openUnreserved self frontier inLine

/-- A piece of a new line. -/
theorem Kept.line (kept : Kept w ci) (left : (w.comps ci).capFrontier ≠ w.limit ci)
    (frontier : Frontier) :
    Kept (Capids.taken w ci frontier (w.comps ci).capFrontier ((w.comps ci).capFrontier + 4))
    ci := by
  have whole : (w.comps ci).capFrontier % 4 = 0 := kept.lines.frontier
  have lineLeft := kept.line_left left
  have equal := kept.limit_eq
  have range := kept.range
  have near := kept.near
  have aligned : (w.comps ci).capFrontier % frontier.idsz = 0 :=
    Nat.mod_eq_zero_of_dvd ((idsz_dvd frontier).trans (Nat.dvd_of_mod_eq_zero whole))
  refine kept.taken (.line _ whole le_rfl) aligned (Nat.le_add_right _ 4) (by omega) fun self => ?_
  rw [if_pos self] at equal
  omega

theorem generic_taken {checkExpand : World → Except Fault World} {frontier : Frontier}
    {reached : World → Prop} (kept : Kept w ci) (here : reached w)
    (expanded : (w.comps ci).szFrontier frontier % 4 = 0 → ∃ w₁, checkExpand w = .ok w₁ ∧
      reached w₁ ∧ Kept w₁ ci ∧ (w₁.comps ci).capFrontier ≠ w₁.limit ci) :
    ∃ w₁ start capFrontier, reached w₁ ∧ start ≠ 0 ∧
      capidBumpAllocGeneric checkExpand w ci frontier =
        .ok (start, taken w₁ ci frontier start capFrontier) ∧
      Kept (taken w₁ ci frontier start capFrontier) ci := by
  have sized : frontier.idsz ≤ 4 := Nat.le_of_dvd (by decide) (idsz_dvd frontier)
  unfold capidBumpAllocGeneric capmaxEntrySz
  by_cases opens : (w.comps ci).szFrontier frontier % 4 = 0
  · obtain ⟨w₁, result, there, kept₁, left⟩ := expanded opens
    have lineLeft := kept₁.line_left left
    have equal := kept₁.limit_eq
    have inTable := kept₁.inTable
    refine ⟨w₁, (w₁.comps ci).capFrontier, (w₁.comps ci).capFrontier + 4, there,
      kept₁.positive.ne', ?_, kept₁.line left frontier⟩
    rw [if_pos opens, result, ok_bind, ok_bind]
    have wide : ((w₁.comps ci).capFrontier + 4) % 2 ^ 32 = (w₁.comps ci).capFrontier + 4 :=
      Nat.mod_eq_of_lt (by omega)
    have wide' : ((w₁.comps ci).capFrontier + frontier.idsz) % 2 ^ 32 =
        (w₁.comps ci).capFrontier + frontier.idsz := Nat.mod_eq_of_lt (by omega)
    simp only [taken, World.modify, update_self, update_idem, wide, wide']
  · have before : (w.comps ci).szFrontier frontier < (w.comps ci).capFrontier :=
      kept.lines.openBelow frontier opens
    have below := kept.below
    have inTable := kept.inTable
    refine ⟨w, (w.comps ci).szFrontier frontier, (w.comps ci).capFrontier, here,
      kept.nonzero frontier, ?_, kept.next opens⟩
    rw [if_neg opens, ok_bind]
    have wide : ((w.comps ci).szFrontier frontier + frontier.idsz) % 2 ^ 32 =
        (w.comps ci).szFrontier frontier + frontier.idsz := Nat.mod_eq_of_lt (by omega)
    simp only [wide]
    rfl

theorem memsrc_advance (w : World) (ci other : Nat) :
    ((advance w ci).comps other).memsrc = (w.comps other).memsrc := by
  by_cases same : other = ci
  · subst same
    rw [advance_comps]
  · rw [(advance_other w same).comps]

theorem memsrc_taken (w : World) (ci other : Nat) (frontier : Frontier) (start capFrontier : Nat) :
    ((taken w ci frontier start capFrontier).comps other).memsrc = (w.comps other).memsrc := by
  by_cases same : other = ci
  · subst same
    rw [taken_comps]
  · rw [(taken_other w same _ _ _).comps]

/-- A change of one component. -/
theorem Inv.change (inv : Inv w)
    (memsrc : ∀ other, (w'.comps other).memsrc = (w.comps other).memsrc)
    (changed : Kept w' ci) (others : ∀ other ≠ ci, Same w w' other) : Inv w' := by
  refine ⟨fun other => ?_, fun other => ?_⟩
  · rw [memsrc, memsrc]
    exact inv.managers other
  · by_cases same : other = ci
    · exact same ▸ changed
    · exact (others other same).kept (inv.kept other)

/-- The kernel constructs the table with the next two nodes. -/
theorem Kept.constructs (kept : Kept w ci) (room : Room w ci) :
    constructs w ci (w.comps ci).caprangeFrontier = true := by
  have range := kept.range
  have room' : (w.comps ci).caprangeFrontier + 256 ≤ 2 ^ 16 := room
  unfold Capids.constructs captblExpandSz captblMaxid
  simp only [kept.nodes, Bool.and_eq_true, decide_eq_true_eq]
  omega

/-- The id for the capability of a node that the manager gives, if there is another
component that manages the resources. -/
structure NodeCap (nodeCap : World → Except Fault (Nat × World)) (w : World) (ci cap : Nat)
    (w' : World) : Prop where
  result : nodeCap w = .ok (cap, w')
  nonzero : cap ≠ 0
  inv : Inv w'
  same : Same w w' ci

theorem checkExpand_self (inv : Inv w) (self : w.selfResources ci) (room : Room w ci)
    (atLimit : (w.comps ci).capFrontier = w.limit ci)
    (nodeCap : World → Except Fault (Nat × World)) :
    captblCheckExpand nodeCap .granted w ci = .ok (advance w ci) := by
  have kept := inv.kept ci
  have range := kept.range
  unfold captblCheckExpand
  simp only
  rw [if_neg (not_not.mpr (inv.managers ci)), if_neg (not_not.mpr kept.below_limit),
    if_neg (not_not.mpr atLimit), if_pos self]
  simp only [Answers.granted, Bool.not_true, Bool.false_eq_true, if_false, ok_bind, self,
    not_true_eq_false, false_and, captblExpandSz, Bool.true_and, kept.constructs room]
  exact if_neg (by omega)

theorem checkExpand_managed (inv : Inv w) (managed : ¬w.selfResources ci) (room : Room w ci)
    (atLimit : (w.comps ci).capFrontier = w.limit ci)
    {nodeCap : World → Except Fault (Nat × World)} {cap : Nat} {w₁ : World}
    (given : NodeCap nodeCap w ci cap w₁) :
    captblCheckExpand nodeCap .granted w ci = .ok (advance w₁ ci) := by
  have kept := inv.kept ci
  have kept₁ := given.inv.kept ci
  have range := kept₁.range
  have room₁ : Room w₁ ci := by
    unfold Room
    rw [given.same.comps]
    exact room
  unfold captblCheckExpand
  simp only
  rw [if_neg (not_not.mpr (inv.managers ci)), if_neg (not_not.mpr kept.below_limit),
    if_neg (not_not.mpr atLimit), if_neg managed, given.result]
  simp only [Answers.granted, Bool.not_true, Bool.false_eq_true, if_false, ok_bind,
    given.nonzero, and_false, captblExpandSz, Bool.true_and, kept₁.constructs room₁]
  exact if_neg (by omega)

theorem checkExpand_leaves (inv : Inv w) {nodeCap : World → Except Fault (Nat × World)}
    {answers : Answers}
    (granted : (w.comps ci).capFrontier = w.limit ci → answers = .granted ∧ Room w ci ∧
      (¬w.selfResources ci → ∃ cap w₁, NodeCap nodeCap w ci cap w₁)) :
    ∃ w', captblCheckExpand nodeCap answers w ci = .ok w' ∧ Inv w' ∧
      (w'.comps ci).capFrontier ≠ w'.limit ci ∧
      (w.selfResources ci → ∀ other ≠ ci, Same w w' other) := by
  have kept := inv.kept ci
  by_cases atLimit : (w.comps ci).capFrontier = w.limit ci
  · obtain ⟨rfl, room, nodeCapOf⟩ := granted atLimit
    by_cases self : w.selfResources ci
    · have advanced := kept.advance room
      have others (other : Nat) (different : other ≠ ci) : Same w (advance w ci) other :=
        advance_other w different
      exact ⟨advance w ci, checkExpand_self inv self room atLimit nodeCap,
        inv.change (memsrc_advance w ci) advanced.1 others, advanced.2, fun _ => others⟩
    · obtain ⟨cap, w₁, given⟩ := nodeCapOf self
      have room₁ : Room w₁ ci := by
        unfold Room
        rw [given.same.comps]
        exact room
      have advanced := (given.inv.kept ci).advance room₁
      exact ⟨advance w₁ ci, checkExpand_managed inv self room atLimit given,
        given.inv.change (memsrc_advance w₁ ci) advanced.1 fun other different =>
          advance_other w₁ different, advanced.2, fun isSelf => absurd isSelf self⟩
  · unfold captblCheckExpand
    simp only
    rw [if_neg (not_not.mpr (inv.managers ci)), if_neg (not_not.mpr kept.below_limit),
      if_pos atLimit]
    exact ⟨w, rfl, inv, atLimit, fun _ _ _ => ⟨rfl, rfl, rfl⟩⟩

end Components

end Capids

end Composite
