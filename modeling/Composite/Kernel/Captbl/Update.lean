import Composite.Kernel.Captbl.Lookup

/-!
# What additions and removals do to a line

Each of the functions either leaves the table as it is or changes one slot and
the header of its line.
-/

namespace Composite

variable {Node Body : Type*}

theorem setHeader_apply [DecidableEq Node] (slots : Slots Node Body) (node n : Node) (slot s : Nat)
    (h : CapHeader) :
    setHeader slots node slot h n s =
      if n = node ∧ s = slot then { slots n s with h := h } else slots n s := by
  unfold setHeader
  by_cases sameNode : n = node
  · subst sameNode
    by_cases sameSlot : s = slot
    · subst sameSlot
      simp
    · simp [sameSlot]
  · simp [sameNode]

theorem captblHeaderInvalid_eq_false {h : CapHeader} {sz : CapSz} :
    captblHeaderInvalid h sz = false ↔ sz = h.size ∧ h.amap &&& ~~~sz.mask = 0 := by
  rw [captblHeaderInvalid, Bool.or_eq_false_iff, decide_eq_false_iff_not, decide_eq_false_iff_not,
    not_not, not_not]

/-- When `captbl_add` succeeds. -/
structure Addable (root : CaptblRoot Node) (slots : Slots Node Body) (cap : Nat) (type : CapType)
    (node : Node) (p : Nat) : Prop where
  sized : captblCap2sz type ≠ .err
  bounded : cap < captblMaxid
  reached : captblLkupan root cap = some (node, p)
  free : active (slots node) p = false
  fits : (slots node (lineOf p)).h.amap = 0 ∨
    (slots node (lineOf p)).h.size = captblCap2sz type
  allowed : ((slots node (lineOf p)).h.amap ||| (1#4 <<< (p % 4))) &&&
    ~~~(captblCap2sz type).mask = 0

/-- The header of the line after the addition of a capability at `p`. -/
def lineAfterAdd (slots : Slots Node Body) (node : Node) (p : Nat) (type : CapType) : CapHeader :=
  { (slots node (lineOf p)).h with
    amap := (slots node (lineOf p)).h.amap ||| (1#4 <<< (p % 4))
    size := captblCap2sz type }

section Addable

variable {root : CaptblRoot Node} {slots : Slots Node Body} {cap p : Nat} {type : CapType}
  {node : Node}

theorem Addable.mask (addable : Addable root slots cap type node p) {i : Nat}
    (allocated : ((slots node (lineOf p)).h.amap ||| (1#4 <<< (p % 4))).getLsbD i = true) :
    (captblCap2sz type).mask.getLsbD i = true :=
  CapHeader.WellFormed.mask_of_amap (h := lineAfterAdd slots node p type)
    ⟨addable.sized, addable.allowed⟩ allocated

theorem Addable.own_mask (addable : Addable root slots cap type node p) :
    (captblCap2sz type).mask.getLsbD (p % 4) = true :=
  addable.mask (by rw [getLsbD_setBit _ (Nat.mod_lt _ (by decide))]; simp)

theorem Addable.not_over (addable : Addable root slots cap type node p) (n : Node) (s : Nat) :
    ¬(n = node ∧ p < lineOf s ∧ lineOf s < p + 2 ^ (captblCap2sz type).order) := by
  rintro ⟨-, above, below⟩
  have fits := CapSz.mask_fits addable.own_mask
  rw [lineOf_eq] at above below
  omega

theorem line_ne {n node : Node} {p s : Nat} (other : ¬(n = node ∧ lineOf s = lineOf p)) :
    ¬(n = node ∧ lineOf s = p) := by
  rintro ⟨sameNode, same⟩
  exact other ⟨sameNode, by rw [← same, lineOf_lineOf]⟩

end Addable

theorem captblAdd_cases [DecidableEq Node] {root : CaptblRoot Node} {slots slots' : Slots Node Body}
    {ltbl : Ltbl} {tsc cap : Nat} {type : CapType} {ret : Int} {found : Option (Node × Nat)}
    (added : captblAdd root slots ltbl tsc cap type = .ok (ret, found, slots')) :
    (found = none ∧ slots' = slots ∧ ret ≠ 0) ∨
      ∃ node p, ret = 0 ∧ found = some (node, p) ∧ Addable root slots cap type node p ∧
        slots' = captblAddCommit slots node p type (lineAfterAdd slots node p type) := by
  unfold captblAdd at added
  dsimp only at added
  by_cases sized : captblCap2sz type = .err
  · rw [if_pos sized] at added
    cases added
    exact .inl ⟨rfl, rfl, by decide⟩
  by_cases bounded : cap ≥ captblMaxid
  · rw [if_neg sized, if_pos bounded] at added
    cases added
    exact .inl ⟨rfl, rfl, by decide⟩
  rw [if_neg sized, if_neg bounded] at added
  cases reached : captblLkupan root cap with
  | none =>
    rw [reached] at added
    cases added
    exact .inl ⟨rfl, rfl, by decide⟩
  | some address =>
    obtain ⟨node, p⟩ := address
    simp only [reached, sub_lineOf] at added
    have commits : ¬(slots node (lineOf p)).h.amap.getLsbD (p % 4) = true →
        ¬((slots node (lineOf p)).h.amap ≠ 0 ∧
          (slots node (lineOf p)).h.size ≠ captblCap2sz type) →
        ¬captblHeaderInvalid (lineAfterAdd slots node p type) (captblCap2sz type) = true →
        Addable root slots cap type node p := by
      intro taken fits invalid
      refine ⟨sized, not_le.mp bounded, reached, by simpa [active] using taken, ?_, ?_⟩
      · by_contra neither
        exact fits (not_or.mp neither)
      · exact (captblHeaderInvalid_eq_false.mp (by simpa using invalid)).2
    split_ifs at added with readOnly taken fits assertion resized waiting invalid waiting invalid
    all_goals cases added
    all_goals
      first
      | exact .inl ⟨rfl, rfl, by decide⟩
      | exact .inl ⟨rfl, rfl, waiting⟩
      | exact .inr ⟨node, p, rfl, rfl, commits taken fits invalid, rfl⟩

theorem captblRemovable_eq_ok {root : CaptblRoot Node} {slots : Slots Node Body} {cap p : Nat}
    {type : CapType} {node : Node} :
    captblRemovable root slots cap type = .ok (node, p) ↔
      cap < captblMaxid ∧ captblLkupan root cap = some (node, p) ∧
        captblGetleaf (slots node) p = some p ∧ (slots node p).h.type = type ∧
        (slots node (lineOf p)).h.readOnly = false ∧ active (slots node) p = true := by
  unfold captblRemovable
  cases reached : captblLkupan root cap with
  | none =>
    simp only [reduceCtorEq, false_and, and_false, iff_false]
    split_ifs <;> nofun
  | some address =>
    obtain ⟨n, q⟩ := address
    simp only [sub_lineOf, active]
    constructor
    · intro removable
      split_ifs at removable with bounded aligned typed readOnly allocated
      cases removable
      exact ⟨not_le.mp bounded, rfl, (not_not.mp aligned).symm, not_not.mp typed,
        Bool.eq_false_iff.mpr readOnly, allocated⟩
    · rintro ⟨bounded, same, aligned, typed, readOnly, allocated⟩
      cases same
      simp [not_le.mpr bounded, aligned, typed, readOnly, allocated]

theorem captblRemovable_ok {root : CaptblRoot Node} {slots : Slots Node Body} {cap p : Nat}
    {type : CapType} {node : Node}
    (removable : captblRemovable root slots cap type = .ok (node, p)) :
    cap < captblMaxid ∧ captblLkupan root cap = some (node, p) ∧
      captblGetleaf (slots node) p = some p ∧ (slots node p).h.type = type ∧
      active (slots node) p = true := by
  obtain ⟨bounded, reached, aligned, typed, -, allocated⟩ := captblRemovable_eq_ok.mp removable
  exact ⟨bounded, reached, aligned, typed, allocated⟩

theorem captblRemovable_error {root : CaptblRoot Node} {slots : Slots Node Body} {cap : Nat}
    {type : CapType} {ret : Int} (refused : captblRemovable root slots cap type = .error ret) :
    ret ≠ 0 := by
  unfold captblRemovable at refused
  split_ifs at refused
  · cases refused
    decide
  · cases reached : captblLkupan root cap with
    | none =>
      rw [reached] at refused
      cases refused
      decide
    | some address =>
      simp only [reached] at refused
      split_ifs at refused <;> cases refused <;> decide

theorem captblClear_cases [DecidableEq Node] (root : CaptblRoot Node) (slots : Slots Node Body)
    (cap : Nat) (type : CapType) (lid : Nat) :
    ((captblClear root slots cap type lid).1 ≠ 0 ∧
        (captblClear root slots cap type lid).2 = slots) ∨
      ∃ node p, captblRemovable root slots cap type = .ok (node, p) ∧
        captblClear root slots cap type lid = (0, captblRemoveCommit slots node p lid .free) := by
  unfold captblClear
  cases removable : captblRemovable root slots cap type with
  | error ret => exact .inl ⟨captblRemovable_error removable, rfl⟩
  | ok address => exact .inr ⟨address.1, address.2, rfl, rfl⟩

theorem captblDel_cases [DecidableEq Node] (root : CaptblRoot Node) (slots : Slots Node Body)
    (ltbl : Ltbl) (tsc cap : Nat) (type : CapType) (lid : Nat) :
    ((captblDel root slots ltbl tsc cap type lid).1 ≠ 0 ∧
        (captblDel root slots ltbl tsc cap type lid).2 = (slots, ltbl)) ∨
      ∃ node p ltbl', captblRemovable root slots cap type = .ok (node, p) ∧
        captblDel root slots ltbl tsc cap type lid =
          (0, captblRemoveCommit slots node p lid .quiescence, ltbl') := by
  unfold captblDel
  cases removable : captblRemovable root slots cap type with
  | error ret => exact .inl ⟨captblRemovable_error removable, rfl⟩
  | ok address =>
    cases ltblTimestampUpdate ltbl tsc lid with
    | none => exact .inl ⟨by simp [Errno.einval], rfl⟩
    | some ltbl' => exact .inr ⟨address.1, address.2, ltbl', rfl, rfl⟩

section Commit

variable [DecidableEq Node] (slots : Slots Node Body) (node : Node) (p : Nat)

theorem captblAddCommit_apply (type : CapType) (l : CapHeader) (n : Node) (s : Nat) :
    captblAddCommit slots node p type l n s =
      if n = node ∧ s = p then
        { slots n s with
          h := { (if p = lineOf p then l else (slots node p).h) with
            type := type, livenessId := 0 } }
      else if n = node ∧ s = lineOf p then { slots n s with h := l }
      else slots n s := by
  unfold captblAddCommit
  by_cases first : p = lineOf p
  · simp only [← first, if_true, setHeader_apply]
    split_ifs <;> rfl
  · simp only [if_neg first, setHeader_apply]
    by_cases here : n = node ∧ s = p
    · obtain ⟨rfl, rfl⟩ := here
      simp [first]
    · simp [here]

theorem captblRemoveCommit_apply (lid : Nat) (mark : CapType) (n : Node) (s : Nat) :
    let o := (slots node (lineOf p)).h
    let amap := o.amap &&& ~~~(1#4 <<< (p % 4))
    captblRemoveCommit slots node p lid mark n s =
      if n = node ∧ s = p then
        { slots n s with
          h := { (if p = lineOf p then { o with amap := amap } else (slots node p).h) with
            type := mark, livenessId := lid % 2 ^ 16 } }
      else if n = node ∧ s = lineOf p then
        { slots n s with h := { o with amap := amap, type := if amap = 0 then mark else o.type } }
      else slots n s := by
  simp only [captblRemoveCommit, sub_lineOf]
  by_cases first : p = lineOf p
  · simp only [← first, if_true, setHeader_apply]
    split_ifs <;> rfl
  · have different : ¬lineOf p = p := Ne.symm first
    simp only [if_neg different, if_neg first, setHeader_apply]
    by_cases here : n = node ∧ s = p
    · obtain ⟨rfl, rfl⟩ := here
      simp [first]
    · simp [here]

end Commit

end Composite
