import Composite.Kernel.Captbl.Update

/-!
# What a capability table holds

`Held` is what a capability table is for: a partial function from slots to the
capability that was added there last and not removed since.  `Represents` says
that the lines of the leaf nodes encode it.
-/

namespace Composite

variable {Node Body : Type*}

abbrev Held (Node Body : Type*) := Node → Nat → Option (CapType × Body)

structure Represents (slots : Slots Node Body) (held : Held Node Body) : Prop where
  wellFormed : ∀ node slot, (slots node (lineOf slot)).h.WellFormed
  active_eq : ∀ node slot, active (slots node) slot = (held node slot).isSome
  contents : ∀ node slot type body, held node slot = some (type, body) →
    (slots node slot).h.type = type ∧ (slots node slot).post = body

theorem eq_of_lineOf {s p : Nat} (line : lineOf s = lineOf p) (offset : s % 4 = p % 4) : s = p := by
  simp only [lineOf_eq] at line
  omega

section Step

variable [DecidableEq Node]

/-- The caller of `captbl_add` writes the capability.  Its bytes run over the
headers of the slots that it covers besides its own. -/
def captblFill (slots : Slots Node Body) (node : Node) (p : Nat) (sz : CapSz) (body : Body)
    (spill : Nat → Slot Body) : Slots Node Body :=
  Function.update slots node fun s =>
    if s = p then { slots node s with post := body }
    else if p < s ∧ s < p + 2 ^ sz.order then spill s
    else slots node s

def Held.set (held : Held Node Body) (node : Node) (p : Nat) (value : Option (CapType × Body)) :
    Held Node Body :=
  Function.update held node (Function.update (held node) p value)

theorem Held.set_apply (held : Held Node Body) (node n : Node) (p s : Nat)
    (value : Option (CapType × Body)) :
    held.set node p value n s = if n = node ∧ s = p then value else held n s := by
  unfold Held.set
  by_cases sameNode : n = node
  · subst sameNode
    by_cases sameSlot : s = p <;> simp [sameSlot]
  · simp [sameNode]

theorem captblFill_apply (slots : Slots Node Body) (node n : Node) (p s : Nat) (sz : CapSz)
    (body : Body) (spill : Nat → Slot Body) :
    captblFill slots node p sz body spill n s =
      if n = node ∧ s = p then { slots n s with post := body }
      else if n = node ∧ p < s ∧ s < p + 2 ^ sz.order then spill s
      else slots n s := by
  unfold captblFill
  by_cases sameNode : n = node
  · subst sameNode
    simp
  · simp [sameNode]

section Add

variable {root : CaptblRoot Node} {slots : Slots Node Body} {held : Held Node Body} {cap p : Nat}
  {type : CapType} {node : Node} {body : Body} {spill : Nat → Slot Body}

abbrev committed (slots : Slots Node Body) (node : Node) (p : Nat) (type : CapType) :
    Slots Node Body :=
  captblAddCommit slots node p type (lineAfterAdd slots node p type)

theorem committed_line (slots : Slots Node Body) (node : Node) (p : Nat) (type : CapType) :
    (committed slots node p type node (lineOf p)).h.amap =
        (slots node (lineOf p)).h.amap ||| (1#4 <<< (p % 4)) ∧
      (committed slots node p type node (lineOf p)).h.size = captblCap2sz type := by
  by_cases first : lineOf p = p
  · simp [captblAddCommit_apply, lineAfterAdd, first]
  · simp [captblAddCommit_apply, lineAfterAdd, first]

theorem committed_line_other {n : Node} {s : Nat} (other : ¬(n = node ∧ lineOf s = lineOf p)) :
    committed slots node p type n (lineOf s) = slots n (lineOf s) := by
  rw [committed, captblAddCommit_apply, if_neg (line_ne other), if_neg other]

theorem active_committed (n : Node) (s : Nat) :
    active (committed slots node p type n) s =
      (active (slots n) s || decide (n = node ∧ s = p)) := by
  unfold active
  by_cases sameLine : n = node ∧ lineOf s = lineOf p
  · obtain ⟨rfl, line⟩ := sameLine
    rw [line, (committed_line slots n p type).1, getLsbD_setBit _ (Nat.mod_lt _ (by decide))]
    have same : s % 4 = p % 4 ↔ s = p := ⟨eq_of_lineOf line, fun same => by rw [same]⟩
    simp [same]
  · have different : ¬(n = node ∧ s = p) := fun same => sameLine ⟨same.1, by rw [same.2]⟩
    rw [committed_line_other sameLine]
    simp [different]

def added (slots : Slots Node Body) (node : Node) (p : Nat) (type : CapType) (body : Body)
    (spill : Nat → Slot Body) : Slots Node Body :=
  captblFill (captblAddCommit slots node p type (lineAfterAdd slots node p type)) node p
    (captblCap2sz type) body spill

section

variable (addable : Addable root slots cap type node p)

include addable

theorem Addable.added_h (n : Node) (s : Nat) :
    (added slots node p type body spill n (lineOf s)).h =
      (committed slots node p type n (lineOf s)).h := by
  rw [added, captblFill_apply, if_neg (addable.not_over n s)]
  split_ifs <;> rfl

theorem Addable.added_line :
    (added slots node p type body spill node (lineOf p)).h.amap =
        (slots node (lineOf p)).h.amap ||| (1#4 <<< (p % 4)) ∧
      (added slots node p type body spill node (lineOf p)).h.size = captblCap2sz type := by
  rw [addable.added_h]
  exact committed_line slots node p type

theorem Addable.line_other {n : Node} {s : Nat} (other : ¬(n = node ∧ lineOf s = lineOf p)) :
    added slots node p type body spill n (lineOf s) = slots n (lineOf s) := by
  rw [added, captblFill_apply, if_neg (line_ne other), if_neg (addable.not_over n s)]
  exact committed_line_other other

theorem Addable.active_added (n : Node) (s : Nat) :
    active (added slots node p type body spill n) s =
      (active (slots n) s || decide (n = node ∧ s = p)) := by
  rw [← @active_committed _ _ _ slots p type node n s]
  simp only [active, addable.added_h]

/-- The slots of the active capabilities keep their type and contents. -/
theorem Addable.kept {n : Node} {s : Nat} (other : ¬(n = node ∧ s = p))
    (allocated : active (slots n) s = true) :
    (added slots node p type body spill n s).h.type = (slots n s).h.type ∧
      (added slots node p type body spill n s).post = (slots n s).post := by
  have outside : ¬(n = node ∧ p < s ∧ s < p + 2 ^ (captblCap2sz type).order) := by
    rintro ⟨rfl, above, below⟩
    have fits := CapSz.mask_fits addable.own_mask
    have line : lineOf s = lineOf p := by
      simp only [lineOf_eq]
      omega
    have bit : ((slots n (lineOf p)).h.amap ||| (1#4 <<< (p % 4))).getLsbD (s % 4) = true := by
      rw [getLsbD_setBit _ (Nat.mod_lt _ (by decide)), ← line]
      simp only [active] at allocated
      simp [allocated]
    have order : p % 4 < s % 4 := by
      simp only [lineOf_eq] at line
      omega
    have apart := CapSz.mask_disjoint addable.own_mask (addable.mask bit) order
    simp only [lineOf_eq] at line
    omega
  simp only [added, captblFill_apply, if_neg other, if_neg outside, captblAddCommit_apply]
  split_ifs with header
  · obtain ⟨rfl, rfl⟩ := header
    exact ⟨rfl, rfl⟩
  · exact ⟨rfl, rfl⟩

theorem Addable.represents (represents : Represents slots held) :
    Represents (added slots node p type body spill) (held.set node p (some (type, body))) where
  wellFormed := by
    intro n s
    by_cases sameLine : n = node ∧ lineOf s = lineOf p
    · obtain ⟨rfl, line⟩ := sameLine
      rw [line]
      refine ⟨?_, ?_⟩
      · rw [addable.added_line.2]
        exact addable.sized
      · rw [addable.added_line.1, addable.added_line.2]
        exact addable.allowed
    · rw [addable.line_other sameLine]
      exact represents.wellFormed n s
  active_eq := by
    intro n s
    rw [addable.active_added, represents.active_eq, Held.set_apply]
    split_ifs with here <;> simp [here]
  contents := by
    intro n s t b content
    rw [Held.set_apply] at content
    split_ifs at content with here
    · obtain ⟨rfl, rfl⟩ := here
      simp only [Option.some.injEq, Prod.mk.injEq] at content
      obtain ⟨rfl, rfl⟩ := content
      simp [added, captblFill_apply, captblAddCommit_apply]
    · have allocated : active (slots n) s = true := by
        rw [represents.active_eq, content]
        rfl
      rw [(addable.kept here allocated).1, (addable.kept here allocated).2]
      exact represents.contents n s t b content

end

end Add

section Remove

variable {slots : Slots Node Body} {held : Held Node Body} {p : Nat} {node : Node} {lid : Nat}
  {mark : CapType}

theorem removed_line :
    (captblRemoveCommit slots node p lid mark node (lineOf p)).h.amap =
        (slots node (lineOf p)).h.amap &&& ~~~(1#4 <<< (p % 4)) ∧
      (captblRemoveCommit slots node p lid mark node (lineOf p)).h.size =
        (slots node (lineOf p)).h.size := by
  by_cases first : lineOf p = p
  · simp [captblRemoveCommit_apply, first]
  · simp [captblRemoveCommit_apply, first]

theorem removed_line_other {n : Node} {s : Nat} (other : ¬(n = node ∧ lineOf s = lineOf p)) :
    captblRemoveCommit slots node p lid mark n (lineOf s) = slots n (lineOf s) := by
  have notSlot : ¬(n = node ∧ lineOf s = p) := by
    rintro ⟨sameNode, same⟩
    exact other ⟨sameNode, by rw [← same, lineOf_lineOf]⟩
  simp only [captblRemoveCommit_apply, if_neg notSlot, if_neg other]

theorem active_removed (n : Node) (s : Nat) :
    active (captblRemoveCommit slots node p lid mark n) s =
      (active (slots n) s && decide (¬(n = node ∧ s = p))) := by
  unfold active
  by_cases sameLine : n = node ∧ lineOf s = lineOf p
  · obtain ⟨rfl, line⟩ := sameLine
    rw [line, removed_line.1, getLsbD_clearBit _ (Nat.mod_lt _ (by decide))]
    have same : s % 4 = p % 4 ↔ s = p := ⟨eq_of_lineOf line, fun same => by rw [same]⟩
    simp [same]
  · have different : ¬(n = node ∧ s = p) := fun same => sameLine ⟨same.1, by rw [same.2]⟩
    rw [removed_line_other sameLine]
    simp [different]

theorem removed_kept {n : Node} {s : Nat} (other : ¬(n = node ∧ s = p))
    (allocated : active (slots n) s = true) :
    (captblRemoveCommit slots node p lid mark n s).h.type = (slots n s).h.type ∧
      (captblRemoveCommit slots node p lid mark n s).post = (slots n s).post := by
  simp only [captblRemoveCommit_apply, if_neg other]
  split_ifs with header empty
  · obtain ⟨rfl, rfl⟩ := header
    have bit : active (captblRemoveCommit slots n p lid mark n) (lineOf p) = true := by
      rw [active_removed]
      rw [allocated, Bool.true_and, decide_eq_true_eq]
      exact other
    rw [active, lineOf_lineOf, removed_line.1, empty] at bit
    simp at bit
  · obtain ⟨rfl, rfl⟩ := header
    exact ⟨rfl, rfl⟩
  · exact ⟨rfl, rfl⟩

theorem Represents.remove (represents : Represents slots held) :
    Represents (captblRemoveCommit slots node p lid mark) (held.set node p none) where
  wellFormed := by
    intro n s
    by_cases sameLine : n = node ∧ lineOf s = lineOf p
    · obtain ⟨rfl, line⟩ := sameLine
      rw [line]
      have before := represents.wellFormed n p
      refine ⟨?_, ?_⟩
      · rw [removed_line.2]
        exact before.sized
      · rw [removed_line.1, removed_line.2, BitVec.and_assoc, BitVec.and_comm (~~~_) (~~~_),
          ← BitVec.and_assoc, before.allowed]
        exact BitVec.zero_and
    · rw [removed_line_other sameLine]
      exact represents.wellFormed n s
  active_eq := by
    intro n s
    rw [active_removed, represents.active_eq, Held.set_apply]
    split_ifs with here <;> simp [here]
  contents := by
    intro n s t b content
    rw [Held.set_apply] at content
    split_ifs at content with here
    have allocated : active (slots n) s = true := by
      rw [represents.active_eq, content]
      rfl
    rw [(removed_kept here allocated).1, (removed_kept here allocated).2]
    exact represents.contents n s t b content

end Remove

end Step

end Composite
