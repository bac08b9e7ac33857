import Composite.Kernel.CapCpy
import Composite.Kernel.Pgtbl.Copies

/-!
# Moves

`cap_move` takes a capability from one capability table to another, or a frame from
one page table to another.  Without a destination table it drops the capability.
It does not look at whether the capability could be taken out of its slot, and does not
undo the first step of an exchange of which the second fails.  What a move does to the
slots is said in terms of the capabilities that they hold.
-/

namespace Composite

open Procedure Kernel Option

/-! What the slots hold. -/

def Kernel.held (k : Kernel) : Held Node CapBody := fun node slot =>
  if active (k.slots node) slot then some ((k.slots node slot).h.type, (k.slots node slot).post)
  else none

def Kernel.LinesWellFormed (k : Kernel) : Prop :=
  ∀ node slot, (k.slots node (lineOf slot)).h.WellFormed

theorem Kernel.LinesWellFormed.represents {k : Kernel} (wellFormed : k.LinesWellFormed) :
    Represents k.slots k.held where
  wellFormed := wellFormed
  active_eq node slot := by
    unfold Kernel.held
    split_ifs with allocated <;> simp [allocated]
  contents node slot type body holds := by
    unfold Kernel.held at holds
    split_ifs at holds
    cases holds
    exact ⟨rfl, rfl⟩

theorem Represents.eq_held {k : Kernel} {held : Held Node CapBody}
    (represents : Represents k.slots held) : k.held = held := by
  funext node slot
  unfold Kernel.held
  rw [represents.active_eq]
  cases holds : held node slot with
  | none => rfl
  | some content =>
    obtain ⟨type, body⟩ := content
    obtain ⟨rfl, rfl⟩ := represents.contents node slot type body holds
    rfl

theorem Kernel.withCopy_slots (k : Kernel) (target : CapAddr) (type : CapType) (body : CapBody) :
    (k.withCopy target type body).slots = added k.slots target.1 target.2 type body
      (committed k.slots target.1 target.2 type target.1) := by
  funext node slot
  rw [Kernel.withCopy, Kernel.putBody_slots _ target (node, slot), added, captblFill_apply]
  by_cases here : node = target.1 ∧ slot = target.2
  · rw [if_pos (Prod.ext here.1 here.2), if_pos here, here.1, here.2]
  · rw [if_neg fun same => here ⟨congrArg Prod.fst same, congrArg Prod.snd same⟩, if_neg here]
    split_ifs with spilled
    · rw [spilled.1]
    · rfl

/-! What a move is for. -/

/-- The source slot is empty, and the slot of the destination table for the id, which was
empty, holds the capability.  No other slot has changed. -/
def Kernel.MovesCapability (k k' : Kernel) (t capTo capinTo capFrom capinFrom : Nat) : Prop :=
  ∃ ct source slot dest target, k.captblNamed t capFrom = some ct ∧
    k.found ct.table capinFrom = some (source, slot) ∧ k.captblNamed t capTo = some dest ∧
    captblLkup (k'.roots dest.table) k'.slots capinTo = some target ∧ target ≠ source ∧
    k.held target.1 target.2 = none ∧
    k'.held = (k.held.set target.1 target.2 (some (slot.h.type, slot.post))).set
      source.1 source.2 none

/-- The frame stands in the destination entry, which held none, and not in the source entry.
No other entry has changed. -/
def Kernel.MovesFrame (k k' : Kernel) (cpu t capTo capinTo capFrom capinFrom : Nat) : Prop :=
  ∃ ptFrom ptTo source target, k.pgtblNamed t capFrom = some ptFrom ∧
    k.pgtblNamed t capTo = some ptTo ∧
    k.pteAt cpu ptFrom.table (pageOf capinFrom) = some source ∧
    k.pteAt cpu ptTo.table (pageOf capinTo) = some target ∧
    source ≠ target ∧ (k.wordAt target).isNull ∧ k'.wordAt source = .zero ∧
    k'.wordAt target = k.wordAt source ∧
    ∀ place, place ≠ source → place ≠ target → k'.wordAt place = k.wordAt place

def Kernel.MoveExact (k k' : Kernel) (cpu t capTo capinTo capFrom capinFrom : Nat) :
    Except Int Unit → Prop
  | .error _ => SameKernel k k'
  | .ok () => k.MovesCapability k' t capTo capinTo capFrom capinFrom ∨
      k.MovesFrame k' cpu t capTo capinTo capFrom capinFrom

/-! When a move does that. -/

/-- A capability that is found is given a destination, and if its slot there can be taken,
`captbl_clear` accepts the source id as that of the slot that the lookup finds. -/
def Kernel.ClearsSource (k : Kernel) (t capTo capinTo capFrom capinFrom : Nat) : Prop :=
  ∀ ct source slot, k.captblNamed t capFrom = some ct →
    k.found ct.table capinFrom = some (source, slot) →
    capTo ≠ 0 ∧ ∀ target, k.Activates t capTo capinTo slot.h.type target →
      captblRemovable (k.roots ct.table) k.slots capinFrom slot.h.type = .ok source

/-- `pgtbl_quie_check` lets the entry pass. -/
def Kernel.Quiescent (k : Kernel) (cpu : Nat) (entry : Pte) : Prop :=
  entry.flags.quiescence → ∃ ts, ltblGetTimestamp k.ltbl entry.frame = some ts ∧
    tlbQuiescenceCheck k.tlb cpu ts

/-- The frame and the entry that it goes to pass the checks before the compare-and-swaps. -/
def Kernel.FrameReady (k : Kernel) (cpu t capTo capinTo capFrom capinFrom : Nat) : Prop :=
  ∃ ptFrom ptTo source target, k.pgtblNamed t capFrom = some ptFrom ∧
    k.pgtblNamed t capTo = some ptTo ∧ ¬isFrozen ptTo.refcntFlags ∧
    k.pteAt cpu ptFrom.table (pageOf capinFrom) = some source ∧
    k.pteAt cpu ptTo.table (pageOf capinTo) = some target ∧
    (k.wordAt source).flags.cosframe ∧ ¬(k.wordAt target).flags.isPresent ∧
    k.Quiescent cpu (k.wordAt target)

def Kernel.MoveCompletes (k : Kernel) (first second : Bool)
    (cpu t capTo capinTo capFrom capinFrom : Nat) : Prop :=
  k.ClearsSource t capTo capinTo capFrom capinFrom ∧
    (k.FrameReady cpu t capTo capinTo capFrom capinFrom → first = true → second = true)

/-! Capabilities. -/

section Capabilities

variable {k : Kernel} {t capTo capinTo capFrom capinFrom : Nat} {type : CapType}
  {source target : CapAddr} {root : CaptblRoot Node} {cap : Nat}

theorem Addable.found_kept (wellFormed : k.LinesWellFormed)
    (addable : Addable root k.slots capinTo type target.1 target.2) (body : CapBody) {ct : Nat}
    {addr : CapAddr} {slot : Slot CapBody} (found : k.found ct cap = some (addr, slot)) :
    ∃ slot', (k.withCopy target type body).found ct cap = some (addr, slot') ∧
      slot'.h.type = slot.h.type ∧ slot'.post = slot.post := by
  obtain rfl := Kernel.found_names found
  obtain ⟨_, leads, pair⟩ := map_eq_some_iff.mp found
  cases pair
  have other : ¬(addr.1 = target.1 ∧ addr.2 = target.2) := by
    rintro ⟨node, slot⟩
    have allocated := active_of_lkup wellFormed leads
    rw [node, slot, addable.free] at allocated
    cases allocated
  refine ⟨(k.withCopy target type body).slots addr.1 addr.2, ?_, ?_, ?_⟩
  · have kept : captblLkup ((k.withCopy target type body).roots ct)
        (k.withCopy target type body).slots cap = some addr := by
      rw [Kernel.withCopy, captblLkup_putBody]
      exact addable.lkup_kept leads
    rw [Kernel.found, kept]
    rfl
  · rw [Kernel.withCopy, putBody_h]
    exact committed_type_other other
  · rw [Kernel.withCopy, putBody_post, if_neg fun same => other (by rw [same]; exact ⟨rfl, rfl⟩)]
    exact committed_post _ _

theorem Addable.removable_kept (addable : Addable root k.slots capinTo type target.1 target.2)
    (body : CapBody) {other : CaptblRoot Node} {removed : CapType}
    (removable : captblRemovable other k.slots cap removed = .ok source) :
    captblRemovable other (k.withCopy target type body).slots cap removed = .ok source := by
  rw [Kernel.withCopy, captblRemovable_putBody]
  obtain ⟨bounded, reached, aligned, typed, readOnly, allocated⟩ :=
    captblRemovable_eq_ok.mp removable
  refine captblRemovable_eq_ok.mpr
    ⟨bounded, reached, addable.getleaf_kept aligned, ?_, ?_, ?_⟩
  · rw [committed_type_other, typed]
    rintro ⟨node, slot⟩
    rw [node, slot, addable.free] at allocated
    cases allocated
  · rw [← readOnly, CapHeader.readOnly, CapHeader.readOnly, committed_flags]
  · rw [active_committed, allocated, Bool.true_or]

theorem Represents.lkup_removed {slots : Slots Node CapBody} {held : Held Node CapBody}
    (represents : Represents slots held) {node : Node} {p lid : Nat} {mark : CapType}
    (leads : captblLkup root slots cap = some target) (other : target ≠ (node, p)) :
    captblLkup root (captblRemoveCommit slots node p lid mark) cap = some target := by
  have after : Represents (captblRemoveCommit slots node p lid mark) (held.set node p none) :=
    represents.remove
  have cover_eq : ∀ n s, cover (captblRemoveCommit slots node p lid mark n) s =
      cover (slots n) s := by
    intro n s
    unfold cover
    by_cases sameLine : n = node ∧ lineOf s = lineOf p
    · rw [sameLine.1, sameLine.2, removed_line.2]
    · rw [removed_line_other sameLine]
  rw [captblLkup_eq represents.wellFormed] at leads
  rw [captblLkup_eq after.wellFormed]
  obtain ⟨⟨n, s⟩, reached, covers⟩ := bind_eq_some_iff.mp leads
  dsimp only at covers
  split_ifs at covers with allocated
  cases covers
  rw [reached, bind_some]
  dsimp only
  rw [cover_eq, active_removed, allocated, Bool.true_and, if_pos]
  exact decide_eq_true fun same => other (Prod.ext same.1 same.2)

theorem captblMoveTo_moves {slot : Slot CapBody} (stands : slot = k.slots source.1 source.2) :
    (captblMoveTo t capTo capinTo source slot).Ensures k fun outcome k' =>
      match outcome with
      | .error _ => k' = k ∧ capTo ≠ 0 ∧ ∀ target, ¬k.Activates t capTo capinTo slot.h.type target
      | .ok () => (capTo = 0 ∧ k' = k) ∨ capTo ≠ 0 ∧ ∃ target,
          k.Activates t capTo capinTo slot.h.type target ∧
            k' = k.withCopy target slot.h.type slot.post := by
  refine ensures_ite.mpr ⟨fun dropped => ensures_pure.mpr (.inl ⟨dropped, rfl⟩), fun given => ?_⟩
  refine ensures_bind.mpr (ensures_attempt.mpr ((capCapactivatePre_activates _ _ _ _ _).mono ?_))
  rintro (code | target) k₁ activated
  · exact orLeave_none_bind ⟨activated.1, given, activated.2.2⟩
  obtain ⟨rfl, activates⟩ := activated
  refine orLeave_some_bind (read_bind ?_)
  refine ensures_update.mpr (.inr ⟨given, target, activates, ?_⟩)
  dsimp only [id_eq]
  rw [committed_post, ← stands]
  rfl

/-- The last step of a move, which ignores whether the capability could be taken out. -/
theorem captblMove_clears {k : Kernel} {ct : CapTable} (named : k.captblNamed t capFrom = some ct)
    {post : Except Int Unit → Kernel → Prop}
    (refused : ∀ code, captblRemovable (k.roots ct.table) k.slots capinFrom type = .error code →
      post (.ok ()) k)
    (cleared : ∀ addr, captblRemovable (k.roots ct.table) k.slots capinFrom type = .ok addr →
      post (.ok ()) { k with slots := captblRemoveCommit k.slots addr.1 addr.2 0 .free }) :
    (do
      let found ← lkup t capFrom
      match found.bind fun (_, slot) => slot.captbl? with
      | none => pure ()
      | some ct => do
          let _ ← code (capCapdeactivate ct capinFrom type 0) : KCall Unit).Ensures k post := by
  refine lkup_bind ?_
  dsimp only
  rw [← Kernel.captblNamed, named]
  refine ensures_bind.mpr (ensures_code.mpr (clear_ensures ?_ ?_))
  · exact fun code removable => ensures_pure.mpr (refused code removable)
  · exact fun addr removable => ensures_pure.mpr (cleared addr removable)

/-- `captbl_clear` looks at the slot that the lookup has found as at every other. -/
theorem removable_of_withCopy {body : CapBody} (wellFormed : k.LinesWellFormed)
    (leads : captblLkup root k.slots cap = some source)
    (removable : captblRemovable root (k.withCopy target type body).slots cap
      (k.slots source.1 source.2).h.type = .ok source) :
    captblRemovable root k.slots cap (k.slots source.1 source.2).h.type = .ok source := by
  rw [Kernel.withCopy, captblRemovable_putBody] at removable
  obtain ⟨bounded, reached, -, -, readOnly, -⟩ := captblRemovable_eq_ok.mp removable
  refine captblRemovable_eq_ok.mpr
    ⟨bounded, reached, ?_, rfl, ?_, active_of_lkup wellFormed leads⟩
  · rw [captblLkup, Nat.mod_eq_of_lt bounded, reached] at leads
    obtain ⟨slot, covers, same⟩ := map_eq_some_iff.mp leads
    rw [covers, ← same]
  · rw [← readOnly, CapHeader.readOnly, CapHeader.readOnly, committed_flags]

theorem Kernel.MovesCapability.fills {k' : Kernel}
    (moves : k.MovesCapability k' t capTo capinTo capFrom capinFrom) :
    ∃ target : CapAddr, k.held target.1 target.2 = none ∧ k'.held target.1 target.2 ≠ none := by
  obtain ⟨ct, source, slot, dest, target, -, -, -, -, different, free, moved⟩ := moves
  refine ⟨target, free, ?_⟩
  rw [moved, Held.set_apply, if_neg fun same => different (Prod.ext same.1 same.2),
    Held.set_apply, if_pos ⟨rfl, rfl⟩]
  nofun

theorem captblMove_exact {ct : CapTable} (wellFormed : k.LinesWellFormed)
    (named : k.captblNamed t capFrom = some ct) :
    (captblMove t capTo capinTo capFrom ct.table capinFrom).Ensures k fun outcome k' =>
      match outcome with
      | .error _ => k' = k ∧ k.ClearsSource t capTo capinTo capFrom capinFrom
      | .ok () => k.MovesCapability k' t capTo capinTo capFrom capinFrom ↔
          k.ClearsSource t capTo capinTo capFrom capinFrom := by
  refine lkup_bind ?_
  refine orLeave_bind (fun missing => ⟨rfl, ?_⟩) ?_
  · intro other source slot named' found
    cases named'.symm.trans named
    cases found.symm.trans missing
  rintro ⟨source, slot⟩ found
  have stands := Kernel.found_names found
  have leads : captblLkup (k.roots ct.table) k.slots capinFrom = some source := by
    obtain ⟨_, leads, pair⟩ := map_eq_some_iff.mp found
    cases pair
    exact leads
  have clears : k.ClearsSource t capTo capinTo capFrom capinFrom ↔ capTo ≠ 0 ∧
      ∀ target, k.Activates t capTo capinTo slot.h.type target →
        captblRemovable (k.roots ct.table) k.slots capinFrom slot.h.type = .ok source := by
    refine ⟨fun clears => clears ct source _ named found, fun clears => ?_⟩
    intro ct' source' slot' named' found'
    cases named'.symm.trans named
    cases found'.symm.trans found
    exact clears
  refine (captblMoveTo_moves stands).bind ?_
  rintro (code | ⟨⟩) k₁ moved
  · obtain ⟨same, given, refused⟩ := moved
    exact ⟨same, clears.mpr ⟨given, fun target activates => absurd activates (refused target)⟩⟩
  rcases moved with ⟨dropped, rfl⟩ | ⟨given, target, activates, rfl⟩
  · -- Nothing is copied, so that at most one slot changes.
    have dropping : ¬k₁.ClearsSource t capTo capinTo capFrom capinFrom :=
      fun clearing => (clears.mp clearing).1 dropped
    refine captblMove_clears named (fun _ _ => iff_of_false ?_ dropping)
      fun addr _ => iff_of_false ?_ dropping
    · intro moves
      obtain ⟨target, free, filled⟩ := moves.fills
      exact filled free
    · intro moves
      obtain ⟨target, free, filled⟩ := moves.fills
      rw [wellFormed.represents.remove.eq_held, Held.set_apply, free, ite_self] at filled
      exact filled rfl
  obtain ⟨dest, destination, addable⟩ := activates.addable
  have stillNamed : (k.withCopy target slot.h.type slot.post).captblNamed t capFrom = some ct := by
    obtain ⟨⟨addr, table⟩, found, cast⟩ := bind_eq_some_iff.mp named
    obtain ⟨_, found', type, post⟩ := addable.found_kept wellFormed slot.post found
    have isTable := captbl?_eq_some.mp cast
    rw [Kernel.captblNamed, found']
    exact captbl?_eq_some.mpr ⟨type.trans isTable.1, post.trans isTable.2⟩
  have represents : Represents (k.withCopy target slot.h.type slot.post).slots
      (k.held.set target.1 target.2 (some (slot.h.type, slot.post))) := by
    rw [Kernel.withCopy_slots]
    exact addable.represents wellFormed.represents
  have allocated := active_of_lkup wellFormed leads
  have different : target ≠ source := by
    rintro rfl
    rw [addable.free] at allocated
    cases allocated
  have holds : k.held.set target.1 target.2 (some (slot.h.type, slot.post)) source.1 source.2 =
      some (slot.h.type, slot.post) := by
    rw [Held.set_apply, if_neg fun same => different (Prod.ext same.1 same.2).symm, Kernel.held,
      if_pos allocated, stands]
  -- A move that leaves the source where it was is none.
  have staying : ∀ k', k'.held source.1 source.2 = some (slot.h.type, slot.post) →
      ¬k.MovesCapability k' t capTo capinTo capFrom capinFrom := by
    rintro k' stays ⟨ct', source', slot', dest', target', named', found', -, -, -, -, moved⟩
    cases named'.symm.trans named
    cases found'.symm.trans found
    rw [moved, Held.set_apply, if_pos ⟨rfl, rfl⟩] at stays
    cases stays
  have unremovable : captblRemovable (k.roots ct.table) k.slots capinFrom slot.h.type ≠ .ok source →
      ¬k.ClearsSource t capTo capinTo capFrom capinFrom :=
    fun kept clearing => kept ((clears.mp clearing).2 target activates)
  refine captblMove_clears stillNamed (fun code refused => ?_) fun addr cleared => ?_
  · refine iff_of_false (staying _ ?_) (unremovable fun removable => ?_)
    · rw [represents.eq_held]
      exact holds
    · cases refused.symm.trans (addable.removable_kept _ removable)
  · by_cases same : addr = source
    · subst same
      have removable := removable_of_withCopy wellFormed leads (stands ▸ cleared)
      refine iff_of_true ?_ (clears.mpr ⟨given, fun _ _ => stands ▸ removable⟩)
      refine ⟨ct, addr, _, dest, target, named, found, destination, ?_, different, ?_,
        represents.remove.eq_held⟩
      · refine represents.lkup_removed ?_ different
        rw [Kernel.withCopy, captblLkup_putBody]
        exact addable.lkup_after
      · rw [Kernel.held, addable.free]
        rfl
    · refine iff_of_false (staying _ ?_) (unremovable fun removable => ?_)
      · rw [represents.remove.eq_held, Held.set_apply,
          if_neg fun here => same (Prod.ext here.1 here.2).symm]
        exact holds
      · cases cleared.symm.trans (addable.removable_kept _ removable)
        exact same rfl

end Capabilities

/-! Frames. -/

theorem wordAt_exchanged (k : Kernel) (source target : Nat × Nat) (old : Pte) (place : Nat × Nat) :
    Kernel.wordAt { k with
      memory := (k.memory.setWord source.1 source.2 .zero).setWord target.1 target.2 old } place =
        if place = target then old else if place = source then .zero else k.wordAt place := by
  simp only [Kernel.wordAt, Memory.setWord_words, Prod.ext_iff]

theorem pgtblQuieCheck_quiescent (k : Kernel) (cpu : Nat) (entry : Pte) :
    (pgtblQuieCheck cpu entry).Ensures k fun outcome k' =>
      k' = k ∧ match outcome with
      | .error _ => ¬k.Quiescent cpu entry
      | .ok () => k.Quiescent cpu entry := by
  refine read_bind (ensures_ite.mpr ⟨fun flagged => ?_, fun unflagged => ?_⟩)
  · refine require_bind fun _ => orLeave_bind (fun missing => ⟨rfl, ?_⟩) fun ts stamped => ?_
    · intro quiescent
      obtain ⟨ts, stamped, -⟩ := quiescent flagged
      cases stamped.symm.trans missing
    · refine ensures_leaveIf.mpr ⟨fun early => ⟨rfl, ?_⟩, fun late => ⟨rfl, ?_⟩⟩
      · intro quiescent
        obtain ⟨ts', stamped', checked⟩ := quiescent flagged
        cases stamped'.symm.trans stamped
        exact early checked
      · exact fun _ => ⟨ts, stamped, not_not.mp late⟩
  · exact ensures_pure.mpr ⟨rfl, fun flagged => absurd flagged unflagged⟩

section Frames

variable {k : Kernel} {first second : Bool} {cpu t capTo capinTo capFrom capinFrom : Nat}

theorem pgtblMoveCas_exact {ptFrom : CapTable} (named : k.pgtblNamed t capFrom = some ptFrom) :
    (pgtblMoveCas first second cpu t capTo capinTo ptFrom capinFrom).Ensures k fun outcome k' =>
      match outcome with
      | .error _ => SameKernel k k' ↔
          (k.FrameReady cpu t capTo capinTo capFrom capinFrom → first = true → second = true)
      | .ok () => second = true ∧ k.MovesFrame k' cpu t capTo capinTo capFrom capinFrom := by
  have refused : ∀ k', SameKernel k k' → ¬k.FrameReady cpu t capTo capinTo capFrom capinFrom →
      (SameKernel k k' ↔
        (k.FrameReady cpu t capTo capinTo capFrom capinFrom → first = true → second = true)) :=
    fun k' same early => iff_of_true same fun ready => absurd ready early
  have same := refl_of SameKernel k
  refine lkup_bind (orLeave_bind (fun missing => refused k same ?_) ?_)
  · simp [Kernel.FrameReady, Kernel.pgtblNamed, missing]
  rintro ⟨addr, slot⟩ found
  refine orLeave_bind (fun other => refused k same ?_) fun ptTo isPgtbl => ?_
  · simp [Kernel.FrameReady, Kernel.pgtblNamed_eq found, other]
  have destination : k.pgtblNamed t capTo = some ptTo := (Kernel.pgtblNamed_eq found).trans isPgtbl
  refine leaveIf_bind (fun frozen => refused k same ?_) fun thawed => ?_
  · simp [Kernel.FrameReady, destination, frozen]
  refine ensures_bind.mpr (pgtblLkupPte_ensures
    (fun absent => orLeave_none_bind (refused k same ?_)) ?_)
  · simp [Kernel.FrameReady, named, absent]
  intro _ source k₁ _ stands walked
  obtain ⟨walks, rfl⟩ : ∃ walks, k₁ = { k with walks } := ⟨_, walked⟩
  refine orLeave_some_bind (word_bind ?_)
  refine ensures_bind.mpr (pgtblLkupPte_ensures
    (fun absent => orLeave_none_bind (refused _ walked ?_)) ?_)
  · rw [walked.pteAt] at absent
    simp [Kernel.FrameReady, destination, absent]
  intro _ target k₂ _ leads walked₂
  rw [walked.pteAt] at leads
  have walked := trans_of SameKernel walked walked₂
  obtain ⟨walks', rfl⟩ : ∃ walks', k₂ = { k with walks := walks' } := ⟨_, walked⟩
  refine orLeave_some_bind (word_bind ?_)
  have ready : k.FrameReady cpu t capTo capinTo capFrom capinFrom ↔
      (k.wordAt source).flags.cosframe ∧ ¬(k.wordAt target).flags.isPresent ∧
        k.Quiescent cpu (k.wordAt target) := by
    simp [-Prod.exists, Kernel.FrameReady, named, destination, stands, leads, thawed]
  refine leaveIf_bind (fun other => refused _ walked ?_) fun isFrame => ?_
  · exact fun passes => other (ready.mp passes).1
  refine leaveIf_bind (fun taken => refused _ walked ?_) fun free => ?_
  · exact fun passes => (ready.mp passes).2.1 taken
  refine (pgtblQuieCheck_quiescent _ cpu _).bind ?_
  rintro (code | ⟨⟩) k₃ ⟨rfl, checked⟩
  · exact refused _ walked fun passes => checked (ready.mp passes).2.2
  have passes := ready.mpr ⟨not_not.mp isFrame, free, checked⟩
  refine leaveIf_bind (fun failed => ?_) fun swapped => update_bind ?_
  · refine iff_of_true walked fun _ succeeded => ?_
    cases succeeded.symm.trans failed
  refine leaveIf_bind (fun failed => ?_) fun moved => ensures_update.mpr ?_
  · -- The source has been taken away and is not put back.
    refine iff_of_false (fun unchanged => ?_) fun completes => ?_
    · have gone : (k.wordAt source) = .zero := by
        rw [Kernel.wordAt, ← congrArg Kernel.memory unchanged]
        simp
      have frame : (k.wordAt source).flags.cosframe := not_not.mp isFrame
      rw [gone] at frame
      cases frame
    · cases (completes passes (Bool.eq_true_of_not_eq_false swapped)).symm.trans failed
  have different : source ≠ target := by
    rintro rfl
    have frame : (k.memory.words source.1 source.2).flags.cosframe = true := not_not.mp isFrame
    simp [PteFlags.isPresent, frame] at free
  refine ⟨Bool.eq_true_of_not_eq_false moved, ptFrom, ptTo, source, target, named, destination,
    stands, leads, different, ?_, ?_, ?_, ?_⟩
  · simpa [Pte.isNull, Kernel.wordAt] using free
  · refine (wordAt_exchanged _ source target _ source).trans ?_
    rw [if_neg different, if_pos rfl]
  · refine (wordAt_exchanged _ source target _ target).trans ?_
    rw [if_pos rfl]
    rfl
  · intro place notSource notTarget
    refine (wordAt_exchanged _ source target _ place).trans ?_
    rw [if_neg notTarget, if_neg notSource]
    rfl

end Frames

/-! The call. -/

theorem capMoveCas_exact {k : Kernel} {first second : Bool}
    {cpu t capTo capinTo capFrom capinFrom : Nat} (wellFormed : k.LinesWellFormed) :
    (capMoveCas first second cpu t capTo capinTo capFrom capinFrom).Ensures k
      fun outcome k' => k.MoveExact k' cpu t capTo capinTo capFrom capinFrom outcome ↔
        k.MoveCompletes first second cpu t capTo capinTo capFrom capinFrom := by
  refine lkup_bind ?_
  refine orLeave_bind (fun missing => ?_) ?_
  · refine iff_of_true (refl_of SameKernel k) ⟨?_, ?_⟩
    · simp [Kernel.ClearsSource, Kernel.captblNamed, missing]
    · simp [Kernel.FrameReady, Kernel.pgtblNamed, missing]
  rintro ⟨addr, slot⟩ found
  dsimp only
  rw [← Kernel.captblNamed_eq found, ← Kernel.pgtblNamed_eq found]
  split
  · rename_i ct named
    have other : k.pgtblNamed t capFrom = none := by
      rw [Kernel.captblNamed_eq found] at named
      rw [Kernel.pgtblNamed_eq found, Slot.pgtbl?, (captbl?_eq_some.mp named).1]
      rfl
    have unready : ¬k.FrameReady cpu t capTo capinTo capFrom capinFrom := by
      simp [Kernel.FrameReady, other]
    refine (captblMove_exact wellFormed named).mono ?_
    rintro (code | ⟨⟩) k' moved
    · obtain ⟨rfl, clears⟩ := moved
      exact iff_of_true (refl_of SameKernel k') ⟨clears, fun ready => absurd ready unready⟩
    · simp only [Kernel.MoveExact, Kernel.MoveCompletes, ← moved, unready, false_imp_iff, and_true]
      refine or_iff_left ?_
      rintro ⟨_, _, _, _, named, -⟩
      cases named.symm.trans other
  · rename_i pt other named
    have clears : k.ClearsSource t capTo capinTo capFrom capinFrom := by
      simp [Kernel.ClearsSource, other]
    refine (pgtblMoveCas_exact named).mono ?_
    rintro (code | ⟨⟩) k' moved
    · exact moved.trans ⟨fun completes => ⟨clears, completes⟩, And.right⟩
    · exact iff_of_true (.inr moved.2) ⟨clears, fun _ _ => moved.1⟩
  · rename_i other noTable
    refine ensures_leave.mpr (iff_of_true (refl_of SameKernel k) ⟨?_, ?_⟩)
    · simp [Kernel.ClearsSource, other]
    · simp [Kernel.FrameReady, noTable]

/-- A move does all or nothing exactly if the capability it finds is given a destination and
can be removed where it could be added there, and the exchange of a frame that passes the
checks is not broken off half way. -/
theorem move_exact {k k' : Kernel} {first second : Bool}
    {cpu t capTo capinTo capFrom capinFrom : Nat} {outcome : Except Int Unit}
    (wellFormed : k.LinesWellFormed)
    (ran : capMoveCas first second cpu t capTo capinTo capFrom capinFrom k = .ok (outcome, k')) :
    k.MoveExact k' cpu t capTo capinTo capFrom capinFrom outcome ↔
      k.MoveCompletes first second cpu t capTo capinTo capFrom capinFrom :=
  capMoveCas_exact wellFormed outcome k' ran

/-! A component that moves the capability of a thread within its own table. -/

theorem rootKernel_linesWellFormed : rootKernel.LinesWellFormed := by
  intro node slot
  simp only [rootKernel]
  split_ifs
  · unfold rootSlot rootCaps
    split
    · exact ⟨by decide, by decide⟩
    · rename_i type body cap
      split at cap <;> cases cap <;> exact ⟨by decide, by decide⟩
  · exact ⟨by decide, by decide⟩

theorem rootKernel_named : rootKernel.captblNamed 10 4 = some ⟨1, 10, 0, none, 0⟩ := by
  decide +kernel

theorem rootKernel_found :
    rootKernel.found 10 16 = some (((10, true), 16), rootKernel.slots (10, true) 16) := by
  decide +kernel

theorem rootKernel_moveCompletes : rootKernel.MoveCompletes true true 0 10 4 48 4 16 := by
  refine ⟨fun ct source slot named found => ⟨by decide, fun target _ => ?_⟩, fun _ both => both⟩
  cases named.symm.trans rootKernel_named
  cases found.symm.trans rootKernel_found
  decide +kernel

def movedView (outcome : Except Int Unit) (k : Kernel) :
    Except Int Unit × Option (CapType × CapBody) × Option (CapType × CapBody) :=
  (outcome, k.held (10, true) 16, k.held (10, true) 48)

theorem move_exact_thread :
    ∃ k', capMoveCas true true 0 10 4 48 4 16 rootKernel = .ok (.ok (), k') ∧
      rootKernel.MoveExact k' 0 10 4 48 4 16 (.ok ()) := by
  have view : (capMoveCas true true 0 10 4 48 4 16 rootKernel).toOption.map
      (fun (outcome, k') => movedView outcome k') =
        some (.ok (), none, some (.thd, .thd ⟨2, 0⟩)) := by
    decide +kernel
  obtain ⟨outcome, k', ran, seen⟩ := exists_of_view view
  have done : outcome = .ok () := congrArg Prod.fst seen
  subst done
  exact ⟨k', ran, (move_exact rootKernel_linesWellFormed ran).mpr rootKernel_moveCompletes⟩

def frameView (outcome : Except Int Unit) (k : Kernel) : Except Int Unit × Pte × Pte :=
  (outcome, k.wordAt (21, 1), k.wordAt (21, 3))

/-- Under an id that stands for the same slot the capability is in two places after the
move.  A second compare-and-swap that fails leaves the frame nowhere. -/
theorem move_inexact :
    (∃ k', capMoveCas true true 0 10 4 48 4 (captblMaxid + 16) rootKernel = .ok (.ok (), k') ∧
      k'.held (10, true) 16 = some (.thd, .thd ⟨2, 0⟩) ∧
      k'.held (10, true) 48 = some (.thd, .thd ⟨2, 0⟩)) ∧
    ∃ k', capMoveCas true false 0 10 36 0x3000 36 0x1000 (mappedKernel (Pte.ofFrame 0).flags) =
        .ok (.error (-Errno.ecasfail), k') ∧
      (mappedKernel (Pte.ofFrame 0).flags).wordAt (21, 1) = Pte.ofFrame 0x100 ∧
      k'.wordAt (21, 1) = .zero ∧ k'.wordAt (21, 3) = .zero := by
  constructor
  · have view : (capMoveCas true true 0 10 4 48 4 (captblMaxid + 16) rootKernel).toOption.map
        (fun (outcome, k') => movedView outcome k') =
          some (.ok (), some (.thd, .thd ⟨2, 0⟩), some (.thd, .thd ⟨2, 0⟩)) := by
      decide +kernel
    obtain ⟨outcome, k', ran, seen⟩ := exists_of_view view
    simp only [movedView, Prod.mk.injEq] at seen
    obtain ⟨rfl, old, new⟩ := seen
    exact ⟨k', ran, old, new⟩
  · have view : (capMoveCas true false 0 10 36 0x3000 36 0x1000
        (mappedKernel (Pte.ofFrame 0).flags)).toOption.map
        (fun (outcome, k') => frameView outcome k') =
          some (.error (-Errno.ecasfail), .zero, .zero) := by
      decide +kernel
    obtain ⟨outcome, k', ran, seen⟩ := exists_of_view view
    simp only [frameView, Prod.mk.injEq] at seen
    obtain ⟨rfl, source, target⟩ := seen
    exact ⟨k', ran, rfl, source, target⟩

end Composite
