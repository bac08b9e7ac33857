import Composite.Kernel.Captbl.History

/-!
# Quiescence of capability slots

A slot that was deactivated may be used again after the quiescence period of the
kernel.  The slot keeps the liveness id of the deactivation, and the liveness table the
time.  The removal that the system calls use marks the slot as free instead.
-/

namespace Composite

open Function

variable {Node Body : Type*}

abbrev Deactivations (Node : Type*) := Node → Nat → Option Nat

def CapHeader.Deactivated (h : CapHeader) : Prop := h.livenessId ≠ 0 ∧ h.type = .quiescence

instance (h : CapHeader) : Decidable h.Deactivated := inferInstanceAs (Decidable (_ ∧ _))

section Checks

variable {ltbl : Ltbl} {tsc : Nat}

theorem quiescenceCheck_of_lt {past : Nat} (bounded : tsc < 2 ^ 64)
    (waited : past + kernQuiescenceCycles < tsc) :
    quiescenceCheck tsc past kernQuiescenceCycles = true := by
  refine decide_eq_true ?_
  unfold kernQuiescenceCycles at waited ⊢
  omega

theorem lt_of_quiescenceCheck {past : Nat} (before : past ≤ tsc)
    (checked : quiescenceCheck tsc past kernQuiescenceCycles = true) :
    past + kernQuiescenceCycles < tsc := by
  have elapsed := of_decide_eq_true checked
  unfold kernQuiescenceCycles at elapsed ⊢
  omega

theorem headerQuiescence_eq_zero {h : CapHeader} (small : h.Deactivated → h.livenessId < ltblEnts) :
    headerQuiescence ltbl tsc h = 0 ↔
      (h.Deactivated →
        quiescenceCheck tsc (ltbl h.livenessId).deactTimestamp kernQuiescenceCycles = true) := by
  unfold headerQuiescence CapHeader.Deactivated
  split_ifs with deactivated
  · simp only [ltblGetTimestamp, if_neg (not_le.mpr (small deactivated)), deactivated, ne_eq,
      not_false_eq_true, and_self, forall_const]
    split_ifs with checked
    · simp [checked]
    · simp [checked, Errno.equiescence]
  · simp [deactivated]

theorem lineQuiescence_eq_zero {leaf : Nat → Slot Body} {line : Nat} {size : CapSz} :
    lineQuiescence ltbl tsc leaf line size = 0 ↔
      ∀ i < 4 / 2 ^ size.order,
        headerQuiescence ltbl tsc (leaf (line + i * 2 ^ size.order)).h = 0 := by
  unfold lineQuiescence
  simp only
  cases found : List.find? (fun x => decide (x ≠ 0))
    (((List.range (4 / 2 ^ size.order)).map fun i =>
      (leaf (line + i * 2 ^ size.order)).h).map (headerQuiescence ltbl tsc)) with
  | none =>
    rw [List.find?_eq_none] at found
    simpa using found
  | some value =>
    have nonzero := List.find?_some found
    have member := List.mem_of_find?_eq_some found
    simp only [List.map_map, List.mem_map, List.mem_range, Function.comp] at member
    obtain ⟨i, bounded, same⟩ := member
    simp only [Option.getD_some]
    constructor
    · intro zero
      simp [zero] at nonzero
    · intro all
      rw [← same, all i bounded]

theorem CapSz.entry_of_mask {size : CapSz} {s : Nat} (starts : size.mask.getLsbD (s % 4) = true) :
    ∃ i < 4 / 2 ^ size.order, s = lineOf s + i * 2 ^ size.order := by
  have cases4 : s % 4 = 0 ∨ s % 4 = 1 ∨ s % 4 = 2 ∨ s % 4 = 3 := by omega
  rw [lineOf_eq]
  cases size with
  | sz16B => exact ⟨s % 4, by simp [CapSz.order]; omega, by simp [CapSz.order]; omega⟩
  | sz32B =>
    refine ⟨s % 4 / 2, by simp [CapSz.order]; omega, ?_⟩
    rcases cases4 with offset | offset | offset | offset <;> rw [offset] at starts
    · simp [CapSz.order, offset]; omega
    · exact absurd starts (by decide)
    · simp [CapSz.order, offset]; omega
    · exact absurd starts (by decide)
  | sz64B =>
    refine ⟨0, by simp [CapSz.order], ?_⟩
    rcases cases4 with offset | offset | offset | offset <;> rw [offset] at starts
    · simp; omega
    all_goals exact absurd starts (by decide)
  | err => exact absurd starts (by simp [CapSz.mask])

end Checks

/-- What `captbl_add` finds when it checks for quiescence. -/
def addWaiting (ltbl : Ltbl) (tsc : Nat) (leaf : Nat → Slot Body) (p : Nat) (sz : CapSz) : Int :=
  if (leaf (lineOf p)).h.type = .quiescence ∧ (leaf (lineOf p)).h.size ≠ sz then
    lineQuiescence ltbl tsc leaf (lineOf p) (leaf (lineOf p)).h.size
  else headerQuiescence ltbl tsc (leaf p).h

def ResizesSmallest (slots : Slots Node Body) (node : Node) (p : Nat) (sz : CapSz) : Prop :=
  (slots node (lineOf p)).h.type = .quiescence ∧ (slots node (lineOf p)).h.size ≠ sz ∧
    (slots node (lineOf p)).h.size.order = 0

theorem captblAdd_eq_ok [DecidableEq Node] {root : CaptblRoot Node} {slots slots' : Slots Node Body}
    {ltbl : Ltbl} {tsc cap p : Nat} {type : CapType} {node : Node} :
    captblAdd root slots ltbl tsc cap type = .ok (0, some (node, p), slots') ↔
      (Addable root slots cap type node p ∧ (slots node (lineOf p)).h.readOnly = false ∧
        ¬ResizesSmallest slots node p (captblCap2sz type) ∧
        addWaiting ltbl tsc (slots node) p (captblCap2sz type) = 0) ∧
      slots' = captblAddCommit slots node p type (lineAfterAdd slots node p type) := by
  constructor
  · intro result
    rcases captblAdd_cases result with ⟨found, -⟩ | ⟨n, q, -, found, addable, same⟩
    · cases found
    cases found
    refine ⟨⟨addable, ?_⟩, same⟩
    unfold captblAdd at result
    simp only [if_neg addable.sized, if_neg (not_le.mpr addable.bounded), addable.reached] at result
    split at result
    · cases result
    next writable =>
      split at result
      · cases result
      split at result
      · cases result
      split at result
      · cases result
      next fits =>
        refine ⟨by simpa using writable, fits, ?_⟩
        unfold addWaiting
        by_contra waiting
        rw [if_pos waiting] at result
        have refused := congrArg (fun r => (Except.toOption r).map fun value => value.2.1) result
        cases refused
  · rintro ⟨⟨addable, writable, fits, waited⟩, same⟩
    have taken : (slots node (lineOf p)).h.amap.getLsbD (p - lineOf p) = false := by
      rw [sub_lineOf]
      exact addable.free
    have sameSize : ¬((slots node (lineOf p)).h.amap ≠ 0 ∧
        (slots node (lineOf p)).h.size ≠ captblCap2sz type) := by
      rintro ⟨used, different⟩
      exact addable.fits.elim used different
    have valid : captblHeaderInvalid (lineAfterAdd slots node p type) (captblCap2sz type) = false :=
      captblHeaderInvalid_eq_false.mpr ⟨rfl, addable.allowed⟩
    unfold captblAdd
    simp only [if_neg addable.sized, if_neg (not_le.mpr addable.bounded), addable.reached, writable,
      taken, if_neg sameSize, Bool.false_eq_true, if_false]
    unfold ResizesSmallest at fits
    unfold addWaiting at waited
    rw [if_neg fits, if_neg (not_not.mpr waited), sub_lineOf, same]
    unfold lineAfterAdd at valid ⊢
    rw [valid]
    rfl

section Runs

variable [DecidableEq Node]

def Deactivations.set (times : Deactivations Node) (node : Node) (p time : Nat) :
    Deactivations Node :=
  Function.update times node (Function.update (times node) p (some time))

theorem Deactivations.set_apply (times : Deactivations Node) (node n : Node) (p s time : Nat) :
    times.set node p time n s = if n = node ∧ s = p then some time else times n s := by
  unfold Deactivations.set
  by_cases sameNode : n = node
  · subst sameNode
    by_cases sameSlot : s = p <;> simp [sameSlot]
  · simp [sameNode]

def CaptblWorld.deactivate (root : CaptblRoot Node) (w : CaptblWorld Node Body) (op : CaptblOp Body)
    (times : Deactivations Node) : Deactivations Node :=
  match op with
  | .del cap type lid =>
    match captblLkupan root cap with
    | some (node, p) =>
      if (captblDel root w.slots w.ltbl w.tsc cap type lid).1 = 0 then times.set node p w.tsc
      else times
    | none => times
  | .clear cap type lid =>
    match captblLkupan root cap with
    | some (node, p) =>
      if (captblClear root w.slots cap type lid).1 = 0 then times.set node p w.tsc else times
    | none => times
  | .add .. | .wait _ => times

/-- An addition at `p` uses the slot `s` again: its own, or when it changes the size of the
line each one in the line. -/
def Reuses (slots : Slots Node Body) (node : Node) (p : Nat) (sz : CapSz) (s : Nat) : Prop :=
  s = p ∨ lineOf s = lineOf p ∧ (slots node (lineOf p)).h.size ≠ sz

/-- A slot that was deactivated at `time` is past the period, or the header still says that
it waits, at a place where an addition looks. -/
structure Waits (w : CaptblWorld Node Body) (node : Node) (s time : Nat) : Prop where
  deactivated : (w.slots node s).h.Deactivated
  small : (w.slots node s).h.livenessId < 2 ^ 16
  since : time ≤ (w.ltbl (w.slots node s).h.livenessId).deactTimestamp
  past : (w.ltbl (w.slots node s).h.livenessId).deactTimestamp ≤ w.tsc
  starts : (w.slots node (lineOf s)).h.size.mask.getLsbD (s % 4) = true
  line : (w.slots node (lineOf s)).h.amap = 0 → (w.slots node (lineOf s)).h.type = .quiescence

/-- An addition that succeeds at `p` finds no slot that it uses again waiting. -/
theorem Waits.elapsed {root : CaptblRoot Node} {w : CaptblWorld Node Body}
    {slots' : Slots Node Body}
    {cap p s time : Nat} {type : CapType} {node : Node} (waits : Waits w node s time)
    (added : captblAdd root w.slots w.ltbl w.tsc cap type = .ok (0, some (node, p), slots'))
    (reuses : Reuses w.slots node p (captblCap2sz type) s) :
    time + kernQuiescenceCycles < w.tsc := by
  obtain ⟨⟨addable, -, -, waited⟩, -⟩ := captblAdd_eq_ok.mp added
  have small : (w.slots node s).h.livenessId < ltblEnts :=
    waits.small.trans (by decide)
  have sameLine : lineOf s = lineOf p := by
    rcases reuses with same | ⟨line, -⟩
    · rw [same]
    · exact line
  have checked : headerQuiescence w.ltbl w.tsc (w.slots node s).h = 0 := by
    unfold addWaiting at waited
    by_cases resized : (w.slots node (lineOf p)).h.size ≠ captblCap2sz type
    · have empty := addable.fits.resolve_right resized
      have quiet := waits.line (by rw [sameLine]; exact empty)
      rw [sameLine] at quiet
      rw [if_pos ⟨quiet, resized⟩, lineQuiescence_eq_zero] at waited
      have starts := waits.starts
      rw [sameLine] at starts
      obtain ⟨i, bounded, entry⟩ := CapSz.entry_of_mask starts
      rw [sameLine] at entry
      rw [entry]
      exact waited i bounded
    · have same : s = p := reuses.resolve_right fun other => resized other.2
      rw [if_neg fun both => resized both.2] at waited
      rw [same]
      exact waited
  have elapsed := lt_of_quiescenceCheck waits.past
    ((headerQuiescence_eq_zero fun _ => small).mp checked waits.deactivated)
  have since := waits.since
  omega

/-- The deactivation records a time for the slot: it is not the one that marks it as free,
and the liveness id is not zero and fits the header. -/
def CaptblOp.Timed : CaptblOp Body → Prop
  | .del _ _ lid => lid ≠ 0 ∧ lid < 2 ^ 16
  | .clear .. => False
  | .add .. | .wait _ => True

structure Recorded (w : CaptblWorld Node Body) (times : Deactivations Node) : Prop where
  represents : ∃ held, Represents w.slots held
  waits : ∀ node s time, times node s = some time →
    time + kernQuiescenceCycles < w.tsc ∨ Waits w node s time

section Add

variable {root : CaptblRoot Node} {w : CaptblWorld Node Body} {cap p s time : Nat} {type : CapType}
  {node n : Node} {body : Body} {spill : Nat → Slot Body}

theorem Addable.header_kept {slots : Slots Node Body} (addable : Addable root slots cap type node p)
    (body : Body) (spill : Nat → Slot Body)
    (other : ¬(n = node ∧ Reuses slots node p (captblCap2sz type) s))
    (starts : (slots n (lineOf s)).h.size.mask.getLsbD (s % 4) = true) :
    (added slots node p type body spill n s).h.type = (slots n s).h.type ∧
      (added slots node p type body spill n s).h.livenessId = (slots n s).h.livenessId := by
  have notSlot : ¬(n = node ∧ s = p) := fun same => other ⟨same.1, .inl same.2⟩
  have outside : ¬(n = node ∧ p < s ∧ s < p + 2 ^ (captblCap2sz type).order) := by
    rintro ⟨rfl, above, below⟩
    have fits := CapSz.mask_fits addable.own_mask
    have line : lineOf s = lineOf p := by
      simp only [lineOf_eq]
      omega
    have size : (slots n (lineOf p)).h.size = captblCap2sz type := by
      by_contra different
      exact other ⟨rfl, .inr ⟨line, different⟩⟩
    rw [line, size] at starts
    have apart := CapSz.mask_disjoint addable.own_mask starts (by
      simp only [lineOf_eq] at line
      omega)
    simp only [lineOf_eq] at line
    omega
  simp only [added, captblFill_apply, if_neg notSlot, if_neg outside, captblAddCommit_apply]
  split_ifs with header
  · obtain ⟨rfl, rfl⟩ := header
    exact ⟨rfl, rfl⟩
  · exact ⟨rfl, rfl⟩

theorem Waits.add (waits : Waits w n s time) (addable : Addable root w.slots cap type node p)
    (other : ¬(n = node ∧ Reuses w.slots node p (captblCap2sz type) s)) :
    Waits { w with slots := added w.slots node p type body spill } n s time := by
  obtain ⟨sameType, sameId⟩ := addable.header_kept body spill other waits.starts
  have line : (added w.slots node p type body spill n (lineOf s)).h.size =
        (w.slots n (lineOf s)).h.size ∧
      ((added w.slots node p type body spill n (lineOf s)).h.amap = 0 →
        (added w.slots node p type body spill n (lineOf s)).h.type = .quiescence) := by
    by_cases sameLine : n = node ∧ lineOf s = lineOf p
    · obtain ⟨rfl, same⟩ := sameLine
      have size : (w.slots n (lineOf p)).h.size = captblCap2sz type := by
        by_contra different
        exact other ⟨rfl, .inr ⟨same, different⟩⟩
      rw [same, addable.added_line.1, addable.added_line.2, size]
      refine ⟨rfl, fun empty => ?_⟩
      have bit := getLsbD_setBit (w.slots n (lineOf p)).h.amap (i := p % 4) (j := p % 4)
        (Nat.mod_lt _ (by decide))
      rw [empty] at bit
      simp at bit
    · rw [addable.line_other sameLine]
      exact ⟨rfl, waits.line⟩
  constructor
  · exact ⟨by rw [sameId]; exact waits.deactivated.1, by rw [sameType]; exact waits.deactivated.2⟩
  · rw [sameId]
    exact waits.small
  · rw [sameId]
    exact waits.since
  · rw [sameId]
    exact waits.past
  · rw [line.1]
    exact waits.starts
  · exact line.2

end Add

section Remove

variable {root : CaptblRoot Node} {w : CaptblWorld Node Body} {cap p s time lid : Nat}
  {type : CapType} {node n : Node}

/-- The world after a slot was deactivated with the id `lid`. -/
def CaptblWorld.deactivated (w : CaptblWorld Node Body) (node : Node) (p lid : Nat) :
    CaptblWorld Node Body :=
  { w with
    slots := captblRemoveCommit w.slots node p lid .quiescence
    ltbl := Function.update w.ltbl lid { w.ltbl lid with deactTimestamp := w.tsc } }

theorem removed_quiescence (slots : Slots Node Body) :
    (captblRemoveCommit slots node p lid .quiescence node (lineOf p)).h.amap = 0 →
      (captblRemoveCommit slots node p lid .quiescence node (lineOf p)).h.type = .quiescence := by
  intro empty
  rw [removed_line.1] at empty
  by_cases first : lineOf p = p
  · simp [captblRemoveCommit_apply, first]
  · simp [captblRemoveCommit_apply, first, empty]

theorem removed_header (lid : Nat) (slots : Slots Node Body) (other : ¬(n = node ∧ s = p)) :
    (captblRemoveCommit slots node p lid .quiescence n s).h.livenessId =
        (slots n s).h.livenessId ∧
      ((captblRemoveCommit slots node p lid .quiescence n s).h.type = (slots n s).h.type ∨
        s = lineOf s ∧
          (captblRemoveCommit slots node p lid .quiescence n s).h.type = .quiescence) := by
  simp only [captblRemoveCommit_apply, if_neg other]
  split_ifs with header empty
  · obtain ⟨rfl, rfl⟩ := header
    exact ⟨rfl, .inr ⟨(lineOf_lineOf p).symm, rfl⟩⟩
  · obtain ⟨rfl, rfl⟩ := header
    exact ⟨rfl, .inl rfl⟩
  · exact ⟨rfl, .inl rfl⟩

theorem removed_size (slots : Slots Node Body) :
    (captblRemoveCommit slots node p lid .quiescence n (lineOf s)).h.size =
      (slots n (lineOf s)).h.size := by
  by_cases sameLine : n = node ∧ lineOf s = lineOf p
  · obtain ⟨rfl, line⟩ := sameLine
    rw [line, removed_line.2]
  · rw [removed_line_other sameLine]

theorem removed_lineQuiescent (slots : Slots Node Body)
    (before : (slots n (lineOf s)).h.amap = 0 → (slots n (lineOf s)).h.type = .quiescence) :
    (captblRemoveCommit slots node p lid .quiescence n (lineOf s)).h.amap = 0 →
      (captblRemoveCommit slots node p lid .quiescence n (lineOf s)).h.type = .quiescence := by
  by_cases sameLine : n = node ∧ lineOf s = lineOf p
  · obtain ⟨rfl, line⟩ := sameLine
    rw [line]
    exact removed_quiescence slots
  · rw [removed_line_other sameLine]
    exact before

theorem waits_deactivated (wellFormed : (w.slots node (lineOf p)).h.WellFormed)
    (allocated : active (w.slots node) p = true) (timed : lid ≠ 0 ∧ lid < 2 ^ 16) :
    Waits (w.deactivated node p lid) node p w.tsc := by
  have header : (captblRemoveCommit w.slots node p lid .quiescence node p).h.livenessId = lid ∧
      (captblRemoveCommit w.slots node p lid .quiescence node p).h.type = .quiescence := by
    simp only [captblRemoveCommit_apply, and_self, if_true]
    exact ⟨Nat.mod_eq_of_lt timed.2, trivial⟩
  constructor
  · exact ⟨by rw [CaptblWorld.deactivated, header.1]; exact timed.1, header.2⟩
  · rw [CaptblWorld.deactivated, header.1]
    exact timed.2
  · simp [CaptblWorld.deactivated, header.1]
  · simp [CaptblWorld.deactivated, header.1]
  · simp only [CaptblWorld.deactivated, removed_size]
    exact wellFormed.mask_of_amap allocated
  · exact removed_quiescence w.slots

/-- The other slots keep waiting. -/
theorem Waits.deactivate (waits : Waits w n s time) (other : ¬(n = node ∧ s = p)) :
    Waits (w.deactivated node p lid) n s time := by
  obtain ⟨sameId, sameType⟩ := removed_header lid w.slots other
  have stamp : (w.ltbl (w.slots n s).h.livenessId).deactTimestamp ≤
        ((w.deactivated node p lid).ltbl (w.slots n s).h.livenessId).deactTimestamp ∧
      ((w.deactivated node p lid).ltbl (w.slots n s).h.livenessId).deactTimestamp ≤ w.tsc := by
    simp only [CaptblWorld.deactivated, update_apply]
    split_ifs with same
    · exact ⟨waits.past, le_rfl⟩
    · exact ⟨le_rfl, waits.past⟩
  constructor
  · refine ⟨by rw [CaptblWorld.deactivated, sameId]; exact waits.deactivated.1, ?_⟩
    rcases sameType with kept | ⟨-, quiet⟩
    · exact kept.trans waits.deactivated.2
    · exact quiet
  · rw [CaptblWorld.deactivated, sameId]
    exact waits.small
  · refine waits.since.trans ?_
    rw [show ((w.deactivated node p lid).slots n s).h.livenessId = _ from sameId]
    exact stamp.1
  · rw [show ((w.deactivated node p lid).slots n s).h.livenessId = _ from sameId]
    exact stamp.2
  · simp only [CaptblWorld.deactivated, removed_size]
    exact waits.starts
  · exact removed_lineQuiescent w.slots waits.line

end Remove

section Steps

variable {root : CaptblRoot Node} {w w' : CaptblWorld Node Body} {op : CaptblOp Body}
  {times : Deactivations Node}

inductive TimedStep (root : CaptblRoot Node) (w : CaptblWorld Node Body)
    (times : Deactivations Node) :
    CaptblOp Body → CaptblWorld Node Body → Deactivations Node → Prop where
  | same {op : CaptblOp Body} (cycles : Nat) :
      TimedStep root w times op { w with tsc := w.tsc + cycles } times
  | added {cap p : Nat} {type : CapType} {body : Body} {spill : Nat → Slot Body} {node : Node}
      {slots : Slots Node Body} :
      captblAdd root w.slots w.ltbl w.tsc cap type = .ok (0, some (node, p), slots) →
      TimedStep root w times (.add cap type body spill)
        { w with slots := added w.slots node p type body spill } times
  | deactivated {cap p lid : Nat} {type : CapType} {node : Node} :
      active (w.slots node) p = true → lid ≠ 0 ∧ lid < 2 ^ 16 →
      TimedStep root w times (.del cap type lid) (w.deactivated node p lid) (times.set node p w.tsc)

theorem timedStep_of_next (times : Deactivations Node) (timed : op.Timed)
    (stepped : CaptblWorld.next root w op = some w') :
    TimedStep root w times op w' (CaptblWorld.deactivate root w op times) := by
  cases op with
  | add cap type body spill =>
    simp only [CaptblWorld.next] at stepped
    split at stepped
    next => cases stepped
    next ret slots result =>
      cases stepped
      rcases captblAdd_cases result with ⟨-, same, -⟩ | ⟨node, p, -, found, -⟩
      · rw [same]
        exact .same 0
      · cases found
    next ret node p slots result =>
      cases stepped
      rcases captblAdd_cases result with ⟨found, -⟩ | ⟨n, q, zero, found, addable, same⟩
      · cases found
      · cases found
        rw [zero] at result
        rw [same]
        exact .added result
  | del cap type lid =>
    simp only [CaptblWorld.next, Option.some.injEq] at stepped
    subst stepped
    simp only [CaptblWorld.deactivate]
    unfold captblDel
    cases removable : captblRemovable root w.slots cap type with
    | error ret =>
      have failed := captblRemovable_error removable
      simp only [failed, if_false]
      cases captblLkupan root cap <;> exact .same 0
    | ok address =>
      obtain ⟨node, p⟩ := address
      obtain ⟨-, reached, -, -, allocated⟩ := captblRemovable_ok removable
      have known : ¬lid ≥ ltblEnts := not_le.mpr (timed.2.trans (by decide))
      simp only [ltblTimestampUpdate, if_neg known, reached, if_true]
      exact .deactivated allocated timed
  | clear cap type lid => exact timed.elim
  | wait cycles =>
    simp only [CaptblWorld.next, Option.some.injEq] at stepped
    subst stepped
    exact .same cycles

omit [DecidableEq Node] in
theorem Waits.later {node : Node} {s time : Nat} (waits : Waits w node s time) (cycles : Nat) :
    Waits { w with tsc := w.tsc + cycles } node s time :=
  ⟨waits.deactivated, waits.small, waits.since, waits.past.trans (Nat.le_add_right _ _),
    waits.starts, waits.line⟩

/-- A step keeps the record of the slots that wait. -/
theorem Recorded.next (recorded : Recorded w times) (timed : op.Timed)
    (stepped : CaptblWorld.next root w op = some w') :
    Recorded w' (CaptblWorld.deactivate root w op times) := by
  obtain ⟨held, represents⟩ := recorded.represents
  refine ⟨⟨_, CaptblWorld.represents_next represents stepped⟩, fun n s time known => ?_⟩
  have step := timedStep_of_next times timed stepped
  generalize CaptblWorld.deactivate root w op times = times' at step known
  cases step with
  | same cycles =>
    rcases recorded.waits n s time known with past | waits
    · exact .inl (by simp only; omega)
    · exact .inr (waits.later cycles)
  | @added cap p type body spill node slots result =>
    rcases recorded.waits n s time known with past | waits
    · exact .inl past
    · by_cases reuses : n = node ∧ Reuses w.slots node p (captblCap2sz type) s
      · obtain ⟨rfl, reuses⟩ := reuses
        exact .inl (waits.elapsed result reuses)
      · exact .inr (waits.add (captblAdd_eq_ok.mp result).1.1 reuses)
  | @deactivated cap p lid type node allocated small =>
    rw [Deactivations.set_apply] at known
    split_ifs at known with here
    · cases known
      obtain ⟨rfl, rfl⟩ := here
      exact .inr (waits_deactivated (represents.wellFormed n s) allocated small)
    · rcases recorded.waits n s time known with past | waits
      · exact .inl past
      · exact .inr (waits.deactivate here)

/-- The operation uses a liveness id that no waiting slot has, and the bytes of a large
capability do not look like the header of a waiting slot. -/
def CaptblWorld.OwnIds (w : CaptblWorld Node Body) : CaptblOp Body → Prop
  | .del _ _ lid => ∀ node s, (w.slots node s).h.Deactivated → (w.slots node s).h.livenessId ≠ lid
  | .add _ _ _ spill => ∀ s, ¬(spill s).h.Deactivated
  | .clear .. | .wait _ => True

structure ExactTimes (w : CaptblWorld Node Body) (times : Deactivations Node) : Prop where
  time : ∀ node s, (w.slots node s).h.Deactivated → (w.slots node s).h.livenessId < 2 ^ 16 ∧
    times node s = some (w.ltbl (w.slots node s).h.livenessId).deactTimestamp
  line : ∀ node s, (w.slots node (lineOf s)).h.livenessId ≠ 0 →
    (w.slots node (lineOf s)).h.type = .quiescence

omit [DecidableEq Node] in
theorem ExactTimes.of_same (exactly : ExactTimes w times)
    (headers : ∀ node s, (w'.slots node s).h = (w.slots node s).h) (ltbl : w'.ltbl = w.ltbl) :
    ExactTimes w' times where
  time node s := by
    rw [headers, ltbl]
    exact exactly.time node s
  line node s := by
    rw [headers]
    exact exactly.line node s

theorem deactivated_of_added {slots : Slots Node Body} {node n : Node} {p s : Nat} {type : CapType}
    {body : Body} {spill : Nat → Slot Body} (clean : ∀ s, ¬(spill s).h.Deactivated)
    (waits : (added slots node p type body spill n s).h.Deactivated) :
    (slots n s).h.Deactivated ∧
      (added slots node p type body spill n s).h.livenessId = (slots n s).h.livenessId := by
  simp only [added, captblFill_apply, captblAddCommit_apply] at waits ⊢
  by_cases slot : n = node ∧ s = p
  · rw [if_pos slot, if_pos slot] at waits
    exact absurd rfl waits.1
  rw [if_neg slot, if_neg slot] at waits ⊢
  by_cases spilled : n = node ∧ p < s ∧ s < p + 2 ^ (captblCap2sz type).order
  · rw [if_pos spilled] at waits
    exact absurd waits (clean s)
  rw [if_neg spilled] at waits ⊢
  by_cases header : n = node ∧ s = lineOf p
  · rw [if_pos header] at waits ⊢
    obtain ⟨rfl, rfl⟩ := header
    exact ⟨waits, rfl⟩
  · rw [if_neg header] at waits ⊢
    exact ⟨waits, rfl⟩

theorem ExactTimes.next (exactly : ExactTimes w times) (timed : op.Timed) (own : w.OwnIds op)
    (stepped : CaptblWorld.next root w op = some w') :
    ExactTimes w' (CaptblWorld.deactivate root w op times) := by
  have step := timedStep_of_next times timed stepped
  generalize CaptblWorld.deactivate root w op times = times' at step
  cases step with
  | same cycles => exact exactly.of_same (fun _ _ => rfl) rfl
  | @added cap p type body spill node slots result =>
    refine ⟨fun n s waits => ?_, fun n s known => ?_⟩
    · obtain ⟨before, sameId⟩ := deactivated_of_added own waits
      simp only [sameId]
      exact exactly.time n s before
    · have addable := (captblAdd_eq_ok.mp result).1.1
      by_cases sameLine : n = node ∧ lineOf s = lineOf p
      · obtain ⟨rfl, line⟩ := sameLine
        simp only [line] at known ⊢
        have le : lineOf p ≤ p := by
          rw [lineOf_eq]
          omega
        by_cases first : lineOf p = p
        · simp [added, captblFill_apply, captblAddCommit_apply, first] at known
        · simp only [added, captblFill_apply, captblAddCommit_apply, first, and_false, if_false,
            not_lt.mpr le, false_and, and_self, if_true, lineAfterAdd] at known ⊢
          exact exactly.line n p known
      · simp only [addable.line_other sameLine] at known ⊢
        exact exactly.line n s known
  | @deactivated cap p lid type node allocated small =>
    refine ⟨fun n s waits => ?_, fun n s known => ?_⟩
    · rw [Deactivations.set_apply]
      split_ifs with here
      · obtain ⟨rfl, rfl⟩ := here
        have header : (captblRemoveCommit w.slots n s lid .quiescence n s).h.livenessId = lid := by
          simp only [captblRemoveCommit_apply, and_self, if_true]
          exact Nat.mod_eq_of_lt small.2
        simp only [CaptblWorld.deactivated, header, update_self]
        exact ⟨small.2, trivial⟩
      · obtain ⟨sameId, sameType⟩ := removed_header lid w.slots here
        simp only [CaptblWorld.deactivated, CapHeader.Deactivated, sameId] at waits ⊢
        have before : (w.slots n s).h.Deactivated := by
          refine ⟨waits.1, ?_⟩
          rcases sameType with kept | ⟨isLine, -⟩
          · exact kept.symm.trans waits.2
          · have line := exactly.line n s
            rw [← isLine] at line
            exact line waits.1
        rw [update_of_ne (own n s before)]
        exact exactly.time n s before
    · by_cases here : n = node ∧ lineOf s = p
      · obtain ⟨rfl, rfl⟩ := here
        simp only [CaptblWorld.deactivated, captblRemoveCommit_apply, and_self, if_true]
      · obtain ⟨sameId, sameType⟩ := removed_header lid w.slots here
        simp only [CaptblWorld.deactivated, sameId] at known ⊢
        rcases sameType with kept | ⟨-, quiet⟩
        · exact kept.trans (exactly.line n s known)
        · exact quiet

omit [DecidableEq Node] in
theorem ExactTimes.addWaiting (exactly : ExactTimes w times) (bounded : w.tsc < 2 ^ 64)
    {node : Node}
    {p : Nat} {sz : CapSz} (sized : (w.slots node (lineOf p)).h.size ≠ .err)
    (elapsed : ∀ s time, Reuses w.slots node p sz s → times node s = some time →
      time + kernQuiescenceCycles < w.tsc) :
    Composite.addWaiting w.ltbl w.tsc (w.slots node) p sz = 0 := by
  have quiet : ∀ s, Reuses w.slots node p sz s →
      headerQuiescence w.ltbl w.tsc (w.slots node s).h = 0 := by
    intro s reuses
    refine (headerQuiescence_eq_zero fun waits =>
      (exactly.time node s waits).1.trans (by decide)).mpr fun waits => ?_
    exact quiescenceCheck_of_lt bounded (elapsed s _ reuses (exactly.time node s waits).2)
  unfold Composite.addWaiting
  split_ifs with resized
  · refine lineQuiescence_eq_zero.mpr fun i inside => quiet _ (.inr ⟨?_, resized.2⟩)
    have order := CapSz.order_le sized
    generalize (w.slots node (lineOf p)).h.size.order = order' at inside order
    have small : i * 2 ^ order' < 4 := by
      interval_cases order' <;> omega
    simp only [lineOf_eq]
    omega
  · exact quiet p (.inl rfl)

end Steps

end Runs

section Main

variable [DecidableEq Node]

/-- In every run whose deactivations record a time, an addition succeeds only when the
quiescence period has passed since the last deactivation of every slot that it uses again.
If moreover the waiting slots have liveness ids of their own, an addition that fits the
line does succeed after that period, unless it resizes a deactivated line of the smallest
size. -/
theorem captbl_quiescence (root : CaptblRoot Node) (start w : CaptblWorld Node Body)
    (ops : List (CaptblOp Body)) (initialised : Initialised start.slots)
    (timed : Transition.Meets (fun _ op => op.Timed) (CaptblWorld.next root) start ops)
    (executed : Transition.exec (CaptblWorld.next root) start ops = some w) :
    let times := Transition.trace (CaptblWorld.next root) (CaptblWorld.deactivate root) start ops
      fun _ _ => none
    (∀ cap type node p slots,
      captblAdd root w.slots w.ltbl w.tsc cap type = .ok (0, some (node, p), slots) →
      ∀ s time, Reuses w.slots node p (captblCap2sz type) s → times node s = some time →
        time + kernQuiescenceCycles < w.tsc) ∧
    (Transition.Meets CaptblWorld.OwnIds (CaptblWorld.next root) start ops → w.tsc < 2 ^ 64 →
      ∀ cap type node p, Addable root w.slots cap type node p →
        (w.slots node (lineOf p)).h.readOnly = false →
        ¬ResizesSmallest w.slots node p (captblCap2sz type) →
        (∀ s time, Reuses w.slots node p (captblCap2sz type) s → times node s = some time →
          time + kernQuiescenceCycles < w.tsc) →
        ∃ slots, captblAdd root w.slots w.ltbl w.tsc cap type =
          .ok (0, some (node, p), slots)) := by
  intro times
  have kept : ∀ (before : CaptblWorld Node Body) op after (times : Deactivations Node),
      Recorded before times → op.Timed → CaptblWorld.next root before op = some after →
        Recorded after (CaptblWorld.deactivate root before op times) :=
    fun _ _ _ _ recorded timed stepped => recorded.next timed stepped
  have recorded : Recorded w times :=
    Transition.exec_invariant_trace kept ⟨⟨_, initialised.represents⟩, nofun⟩ timed executed
  refine ⟨fun cap type node p slots added s time reuses known => ?_, ?_⟩
  · exact (recorded.waits node s time known).elim id fun waits => waits.elapsed added reuses
  · intro own bounded cap type node p addable writable fits elapsed
    have keptExact : ∀ (before : CaptblWorld Node Body) op after (times : Deactivations Node),
        ExactTimes before times → op.Timed ∧ before.OwnIds op →
          CaptblWorld.next root before op = some after →
          ExactTimes after (CaptblWorld.deactivate root before op times) :=
      fun _ _ _ _ exactly allowed stepped => exactly.next allowed.1 allowed.2 stepped
    have exactStart : ExactTimes start fun _ _ => none := by
      refine ⟨fun node s waits => ?_, fun node s known => ?_⟩
      · rw [initialised] at waits
        exact absurd rfl waits.1
      · rw [initialised] at known
        exact absurd rfl known
    have exactly : ExactTimes w times :=
      Transition.exec_invariant_trace keptExact exactStart (timed.and own) executed
    obtain ⟨held, represents⟩ := recorded.represents
    have waited := exactly.addWaiting bounded (represents.wellFormed node p).sized elapsed
    exact ⟨_, captblAdd_eq_ok.mpr ⟨⟨addable, writable, fits, waited⟩, rfl⟩⟩

end Main

instance : DecidablePred (@CaptblOp.Timed Nat) := fun op =>
  match op with
  | .del .. => inferInstanceAs (Decidable (_ ∧ _))
  | .clear .. => .isFalse id
  | .add .. | .wait _ => .isTrue trivial

def singleRoot : CaptblRoot Unit := fun i => if i = 0 then some () else none

def deactivateAndWait : List (CaptblOp Nat) :=
  [.add 4 .captbl 7 (fun _ => ⟨captblInitHeader, 7⟩), .wait 10, .del 4 .captbl 1,
    .wait 2000001]

/-- The line is then used for a capability of another size. -/
theorem captbl_quiescence_resize :
    ∃ w ∈ Transition.exec (CaptblWorld.next singleRoot) freshWorld deactivateAndWait,
      (∃ slots, captblAdd singleRoot w.slots w.ltbl w.tsc 4 .sinv = .ok (0, some ((), 4), slots)) ∧
        10 + kernQuiescenceCycles < w.tsc := by
  obtain ⟨w, ran, added⟩ :
      ∃ w ∈ Transition.exec (CaptblWorld.next singleRoot) freshWorld deactivateAndWait,
        (captblAdd singleRoot w.slots w.ltbl w.tsc 4 .sinv).toOption.map
          (fun result => (result.1, result.2.1)) = some (0, some ((), 4)) := by
    decide +kernel
  obtain ⟨slots, result⟩ : ∃ slots,
      captblAdd singleRoot w.slots w.ltbl w.tsc 4 .sinv = .ok (0, some ((), 4), slots) := by
    cases outcome : captblAdd singleRoot w.slots w.ltbl w.tsc 4 .sinv with
    | error fault =>
      rw [outcome] at added
      cases added
    | ok result =>
      obtain ⟨ret, found, slots⟩ := result
      rw [outcome] at added
      cases added
      exact ⟨slots, rfl⟩
  exact ⟨w, ran, ⟨slots, result⟩,
    (captbl_quiescence singleRoot freshWorld w deactivateAndWait (fun _ _ => rfl)
      (by decide +kernel)
      ran).1 4 .sinv () 4 slots result 4 10 (.inl rfl) (by decide +kernel)⟩

/-- A slot that is cleared, as the system calls do, is used again at once; and after the
period a deactivated line of the smallest size cannot be resized. -/
theorem captbl_quiescence_cleared :
    (∃ w ∈ Transition.exec (CaptblWorld.next singleRoot) freshWorld
        [.add 4 .thd 7 (fun _ => ⟨captblInitHeader, 7⟩), .clear 4 .thd 1],
      w.tsc = 0 ∧ (captblAdd singleRoot w.slots w.ltbl w.tsc 4 .thd).toOption.map
        (fun result => (result.1, result.2.1)) = some (0, some ((), 4))) ∧
    ∃ w ∈ Transition.exec (CaptblWorld.next singleRoot) freshWorld
        [.add 4 .thd 7 (fun _ => ⟨captblInitHeader, 7⟩), .del 4 .thd 1, .wait 2000001],
      (captblAdd singleRoot w.slots w.ltbl w.tsc 4 .sinv).toOption.isNone = true := by
  decide +kernel

end Composite
