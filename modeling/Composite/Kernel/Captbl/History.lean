import Composite.Lib.Transition
import Composite.Kernel.Captbl.Represents

/-!
# Sequences of additions and removals

After any sequence of additions and removals the lines of the table represent
the capabilities added last, and a lookup finds exactly these.
-/

namespace Composite

open Option

variable {Node Body : Type*}

section Step

variable [DecidableEq Node]

structure CaptblWorld (Node Body : Type*) where
  slots : Slots Node Body
  ltbl : Ltbl
  tsc : Nat

inductive CaptblOp (Body : Type*) where
  | add (cap : Nat) (type : CapType) (body : Body) (spill : Nat → Slot Body)
  | del (cap : Nat) (type : CapType) (lid : Nat)
  | clear (cap : Nat) (type : CapType) (lid : Nat)
  | wait (cycles : Nat)

namespace CaptblWorld

def next (root : CaptblRoot Node) (w : CaptblWorld Node Body) :
    CaptblOp Body → Option (CaptblWorld Node Body)
  | .add cap type body spill =>
    match captblAdd root w.slots w.ltbl w.tsc cap type with
    | .error _ => none
    | .ok (_, none, slots) => some { w with slots := slots }
    | .ok (_, some (node, p), slots) =>
      some { w with slots := captblFill slots node p (captblCap2sz type) body spill }
  | .del cap type lid =>
    let (_, slots, ltbl) := captblDel root w.slots w.ltbl w.tsc cap type lid
    some { w with slots := slots, ltbl := ltbl }
  | .clear cap type lid => some { w with slots := (captblClear root w.slots cap type lid).2 }
  | .wait cycles => some { w with tsc := w.tsc + cycles }

def record (root : CaptblRoot Node) (w : CaptblWorld Node Body) (op : CaptblOp Body)
    (held : Held Node Body) : Held Node Body :=
  match op with
  | .add cap type body _ =>
    match captblAdd root w.slots w.ltbl w.tsc cap type with
    | .ok (_, some (node, p), _) => held.set node p (some (type, body))
    | _ => held
  | .del cap type lid =>
    match captblLkupan root cap with
    | some (node, p) =>
      if (captblDel root w.slots w.ltbl w.tsc cap type lid).1 = 0 then held.set node p none
      else held
    | none => held
  | .clear cap type lid =>
    match captblLkupan root cap with
    | some (node, p) =>
      if (captblClear root w.slots cap type lid).1 = 0 then held.set node p none else held
    | none => held
  | .wait _ => held

end CaptblWorld

end Step

/-- Every header is as `captbl_init` writes it. -/
def Initialised (slots : Slots Node Body) : Prop :=
  ∀ node slot, (slots node slot).h = captblInitHeader

theorem Initialised.represents {slots : Slots Node Body} (initialised : Initialised slots) :
    Represents slots fun _ _ => none where
  wellFormed := by
    intro node slot
    rw [initialised node (lineOf slot)]
    exact ⟨by decide, by decide⟩
  active_eq := by
    intro node slot
    simp [active, initialised node (lineOf slot), captblInitHeader]
  contents := by
    intro node slot type body content
    cases content


section Found

/-- The slot an id falls in: the one at which a capability that covers it would
start, for the size its line has. -/
def fallsIn (root : CaptblRoot Node) (slots : Slots Node Body) (cap : Nat) : Option (Node × Nat) :=
  (captblLkupan root (cap % captblMaxid)).map fun (node, slot) => (node, cover (slots node) slot)

/-- The result of `captbl_lkup` with the type and the contents found there. -/
def found (root : CaptblRoot Node) (slots : Slots Node Body) (cap : Nat) :
    Option ((Node × Nat) × CapType × Body) :=
  (captblLkup root slots cap).map fun (node, slot) =>
    ((node, slot), (slots node slot).h.type, (slots node slot).post)

def CaptblOp.target (root : CaptblRoot Node) : CaptblOp Body → Option (Node × Nat)
  | .add cap .. | .del cap .. | .clear cap .. => captblLkupan root cap
  | .wait _ => none

variable {root : CaptblRoot Node} {slots : Slots Node Body} {held : Held Node Body}

theorem Represents.found_eq (represents : Represents slots held) (cap : Nat) :
    found root slots cap = (fallsIn root slots cap).bind fun (node, slot) =>
      (held node slot).map fun (type, body) => ((node, slot), type, body) := by
  unfold found fallsIn
  rw [captblLkup_eq represents.wellFormed]
  cases captblLkupan root (cap % captblMaxid) with
  | none => rfl
  | some address =>
    obtain ⟨node, slot⟩ := address
    simp only [bind_some, map_some, represents.active_eq]
    cases content : held node (cover (slots node) slot) with
    | none => rfl
    | some capability =>
      obtain ⟨type, body⟩ := capability
      obtain ⟨sameType, sameBody⟩ := represents.contents _ _ _ _ content
      simp [sameType, sameBody]

theorem Represents.disjoint (represents : Represents slots held) {node : Node} {i j : Nat}
    (first : active (slots node) i = true) (second : active (slots node) j = true) (order : i < j) :
    i + 2 ^ (slots node (lineOf i)).h.size.order ≤ j := by
  have wellFormed := represents.wellFormed node i
  have startI := wellFormed.mask_of_amap first
  by_cases line : lineOf j = lineOf i
  · unfold active at second
    rw [line] at second
    have offsets : i % 4 < j % 4 := by
      simp only [lineOf_eq] at line
      omega
    have apart := CapSz.mask_disjoint startI (wellFormed.mask_of_amap second) offsets
    simp only [lineOf_eq] at line
    omega
  · have fits := CapSz.mask_fits startI
    simp only [lineOf_eq] at line
    omega

end Found

namespace CaptblWorld

variable [DecidableEq Node] {root : CaptblRoot Node} {w w' : CaptblWorld Node Body}
  {held : Held Node Body} {op : CaptblOp Body}

theorem next_cases (held : Held Node Body) (stepped : next root w op = some w') :
    (w'.slots = w.slots ∧ record root w op held = held) ∨
      (∃ cap type node p body spill, op.target root = some (node, p) ∧
        Addable root w.slots cap type node p ∧
        w'.slots = added w.slots node p type body spill ∧
        record root w op held = held.set node p (some (type, body))) ∨
      ∃ node p lid mark, op.target root = some (node, p) ∧
        w'.slots = captblRemoveCommit w.slots node p lid mark ∧
        record root w op held = held.set node p none := by
  cases op with
  | add cap type body spill =>
    simp only [next, record, CaptblOp.target] at stepped ⊢
    split at stepped
    next => cases stepped
    next ret slots result =>
      cases stepped
      rcases captblAdd_cases result with ⟨-, same, -⟩ | ⟨node, p, -, found, -⟩
      · simp only [result, same]
        exact .inl (by simp)
      · cases found
    next ret node p slots result =>
      cases stepped
      rcases captblAdd_cases result with ⟨found, -⟩ | ⟨n, q, -, found, addable, same⟩
      · cases found
      · cases found
        simp only [result, same]
        exact .inr (.inl ⟨cap, type, node, p, body, spill, addable.reached, addable, rfl, rfl⟩)
  | del cap type lid =>
    simp only [next, some.injEq] at stepped
    subst stepped
    simp only [record, CaptblOp.target]
    rcases captblDel_cases root w.slots w.ltbl w.tsc cap type lid with
      ⟨failed, same⟩ | ⟨node, p, ltbl, removable, result⟩
    · simp only [failed, if_false, same]
      cases captblLkupan root cap <;> exact .inl (by simp)
    · obtain ⟨-, reached, -⟩ := captblRemovable_ok removable
      simp only [result, reached, if_true]
      exact .inr (.inr ⟨node, p, lid, .quiescence, rfl, rfl, rfl⟩)
  | clear cap type lid =>
    simp only [next, some.injEq] at stepped
    subst stepped
    simp only [record, CaptblOp.target]
    rcases captblClear_cases root w.slots cap type lid with
      ⟨failed, same⟩ | ⟨node, p, removable, result⟩
    · simp only [failed, if_false, same]
      cases captblLkupan root cap <;> exact .inl (by simp)
    · obtain ⟨-, reached, -⟩ := captblRemovable_ok removable
      simp only [result, reached, if_true]
      exact .inr (.inr ⟨node, p, lid, .free, rfl, rfl, rfl⟩)
  | wait cycles =>
    simp only [next, some.injEq] at stepped
    subst stepped
    exact .inl ⟨rfl, rfl⟩

theorem represents_next (represents : Represents w.slots held)
    (stepped : next root w op = some w') : Represents w'.slots (record root w op held) := by
  rcases next_cases held stepped with
    ⟨slots, recorded⟩ | ⟨cap, type, node, p, body, spill, -, addable, slots, recorded⟩ |
      ⟨node, p, lid, mark, -, slots, recorded⟩
  · rw [slots, recorded]
    exact represents
  · rw [slots, recorded]
    exact addable.represents represents
  · rw [slots, recorded]
    exact represents.remove

theorem record_other (stepped : next root w op = some w') {node : Node} {slot : Nat}
    (other : op.target root ≠ some (node, slot)) :
    record root w op held node slot = held node slot := by
  rcases next_cases held stepped with
    ⟨-, recorded⟩ | ⟨cap, type, n, p, body, spill, target, -, -, recorded⟩ |
      ⟨n, p, lid, mark, target, -, recorded⟩
  · rw [recorded]
  · rw [recorded, Held.set_apply, if_neg]
    rintro ⟨rfl, rfl⟩
    exact other target
  · rw [recorded, Held.set_apply, if_neg]
    rintro ⟨rfl, rfl⟩
    exact other target

theorem next_size (represents : Represents w.slots held) (stepped : next root w op = some w')
    (node : Node) (slot : Nat) :
    (w'.slots node (lineOf slot)).h.size = (w.slots node (lineOf slot)).h.size ∨
      ∀ s, lineOf s = lineOf slot → held node s = none := by
  rcases next_cases held stepped with
    ⟨slots, -⟩ | ⟨cap, type, n, p, body, spill, -, addable, slots, -⟩ |
      ⟨n, p, lid, mark, -, slots, -⟩
  · exact .inl (by rw [slots])
  · by_cases sameLine : node = n ∧ lineOf slot = lineOf p
    · obtain ⟨rfl, line⟩ := sameLine
      rcases addable.fits with empty | same
      · refine .inr fun s lineS => ?_
        have inactive := represents.active_eq node s
        rw [active, lineS, line, empty] at inactive
        simpa using inactive.symm
      · rw [slots, line, addable.added_line.2, same]
        exact .inl rfl
    · rw [slots, addable.line_other sameLine]
      exact .inl rfl
  · by_cases sameLine : node = n ∧ lineOf slot = lineOf p
    · obtain ⟨rfl, line⟩ := sameLine
      rw [slots, line, removed_line.2]
      exact .inl rfl
    · rw [slots, removed_line_other sameLine]
      exact .inl rfl

theorem found_next (represents : Represents w.slots held) (stepped : next root w op = some w')
    {cap : Nat} (other : ∀ address, op.target root = some address →
      fallsIn root w'.slots cap ≠ some address) :
    found root w'.slots cap = found root w.slots cap := by
  rw [(represents_next represents stepped).found_eq, represents.found_eq]
  unfold fallsIn at other ⊢
  cases reached : captblLkupan root (cap % captblMaxid) with
  | none => rfl
  | some address =>
    obtain ⟨node, slot⟩ := address
    simp only [reached, map_some, bind_some, ne_eq, some.injEq] at other ⊢
    have kept : record root w op held node (cover (w'.slots node) slot) =
        held node (cover (w'.slots node) slot) :=
      record_other stepped fun target => other _ target rfl
    rw [kept]
    rcases next_size represents stepped node slot with same | empty
    · simp only [cover, same]
    · have after := lineOf_cover ((represents_next represents stepped).wellFormed node slot)
      have before := lineOf_cover (represents.wellFormed node slot)
      rw [empty _ after, empty _ before]
      rfl

end CaptblWorld

/-- After any sequence of additions and removals: the allocation bits fit the
size of their line, active capabilities do not overlap, a lookup finds exactly
the capability that was added last in the slot its id falls in, and the next
operation leaves the lookups of all other slots as they are. -/
theorem captbl_history [DecidableEq Node] (root : CaptblRoot Node)
    (start w : CaptblWorld Node Body) (ops : List (CaptblOp Body))
    (initialised : Initialised start.slots)
    (executed : Transition.exec (CaptblWorld.next root) start ops = some w) :
    let held := Transition.trace (CaptblWorld.next root) (CaptblWorld.record root) start ops
      fun _ _ => none
    (∀ node slot, (w.slots node (lineOf slot)).h.amap &&&
        ~~~(w.slots node (lineOf slot)).h.size.mask = 0) ∧
      (∀ node i j, active (w.slots node) i = true → active (w.slots node) j = true → i < j →
        i + 2 ^ (w.slots node (lineOf i)).h.size.order ≤ j) ∧
      (∀ cap, (captblLkup root w.slots cap).isSome = true ↔
        ∃ node slot, fallsIn root w.slots cap = some (node, slot) ∧
          active (w.slots node) slot = true) ∧
      (∀ cap, found root w.slots cap = (fallsIn root w.slots cap).bind fun (node, slot) =>
        (held node slot).map fun (type, body) => ((node, slot), type, body)) ∧
      ∀ op w' cap, CaptblWorld.next root w op = some w' →
        (∀ address, op.target root = some address → fallsIn root w'.slots cap ≠ some address) →
        found root w'.slots cap = found root w.slots cap := by
  intro held
  have kept : ∀ (before : CaptblWorld Node Body) op after (held : Held Node Body),
      Represents before.slots held → True → CaptblWorld.next root before op = some after →
        Represents after.slots (CaptblWorld.record root before op held) :=
    fun _ _ _ _ represents _ stepped => CaptblWorld.represents_next represents stepped
  have represents : Represents w.slots held := by
    apply Transition.exec_invariant_trace kept initialised.represents _ executed
    exact Transition.Meets.of_forall (fun _ _ => trivial) start ops
  refine ⟨fun node slot => (represents.wellFormed node slot).allowed,
    fun node i j => represents.disjoint, ?_, represents.found_eq, ?_⟩
  · intro cap
    rw [captblLkup_eq represents.wellFormed]
    unfold fallsIn
    cases captblLkupan root (cap % captblMaxid) with
    | none => simp
    | some address => simp [Option.isSome_iff_exists]
  · intro op w' cap stepped other
    exact CaptblWorld.found_next represents stepped other

/-- A table with one leaf node, as it is after `captbl_create`. -/
def freshWorld : CaptblWorld Unit Nat := ⟨fun _ _ => ⟨captblInitHeader, 0⟩, ltblInit, 0⟩

def sharedLineOps : List (CaptblOp Nat) :=
  [.add 4 .captbl 7 (fun _ => ⟨captblInitHeader, 7⟩),
    .add 6 .pgtbl 9 (fun _ => ⟨captblInitHeader, 9⟩), .clear 4 .captbl 0]

theorem captbl_history_shared_line :
    let root : CaptblRoot Unit := fun i => if i = 0 then some () else none
    ∃ w ∈ Transition.exec (CaptblWorld.next root) freshWorld sharedLineOps,
      found root w.slots 5 = none ∧ found root w.slots 7 = some (((), 6), .pgtbl, 9) ∧
        ∀ node slot, (w.slots node (lineOf slot)).h.amap &&&
          ~~~(w.slots node (lineOf slot)).h.size.mask = 0 := by
  intro root
  obtain ⟨w, ran, removed, kept⟩ :
      ∃ w ∈ Transition.exec (CaptblWorld.next root) freshWorld sharedLineOps,
        found root w.slots 5 = none ∧ found root w.slots 7 = some (((), 6), .pgtbl, 9) := by
    decide +kernel
  exact ⟨w, ran, removed, kept,
    (captbl_history root freshWorld w sharedLineOps (fun _ _ => rfl) ran).1⟩

end Composite
