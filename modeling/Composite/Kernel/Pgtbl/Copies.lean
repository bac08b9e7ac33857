import Composite.Kernel.Endpoints.Counts

/-!
# Copies of mappings

A copy of a mapping looks the source up and hands the flags that the walk has
accumulated on to the new entry.  The walk stores the flags of every entry it goes
through and never those of the entry it ends at.
-/

namespace Composite

open Procedure Kernel

/-! Where a walk leads. -/

def Kernel.pdeAt (k : Kernel) (cpu pt page : Nat) : Option Pte := do
  let dir ← k.translate cpu (chalPa2va pt)
  some (k.memory.words dir (pgdIndex page))

def Kernel.pteAt (k : Kernel) (cpu pt page : Nat) : Option (Nat × Nat) := do
  let pde ← k.pdeAt cpu pt page
  if pde.isNull then none
  else do
    let table ← k.translate cpu (chalPa2va pde.frame)
    some (table, pteIndex page)

variable {k : Kernel}

theorem ertWalk_last_ensures {cpu page dir i : Nat} {accum : PteFlags}
    {post : Except Int (Option (ErtIntern × PteFlags)) → Kernel → Prop}
    (missing : (k.memory.words dir i).isNull → post (.ok none) k)
    (found : ∀ table, ¬(k.memory.words dir i).isNull →
      k.translate cpu (chalPa2va (k.memory.words dir i).frame) = some table →
      post (.ok (some (.word table (pteIndex page), (k.memory.words dir i).flags)))
        { k with walks := (dir, i) :: k.walks }) :
    (ertWalk cpu page 1 1 (.word dir i) accum).Ensures k post := by
  rw [ertWalk, ertStep]
  refine word_bind (ensures_ite.mpr
    ⟨fun absent => ensures_pure.mpr (missing absent), fun present => ?_⟩)
  rw [ensures_bind]
  refine ensures_update.mpr (ensures_bind.mpr (ensures_pageAt fun table reached => ?_))
  exact ensures_pure.mpr (found table present reached)

theorem pgtblLkupPte_ensures {cpu pt page : Nat}
    {post : Except Int (Option (ErtIntern × PteFlags)) → Kernel → Prop}
    (missing : k.pteAt cpu pt page = none → post (.ok none) k)
    (found : ∀ pde place k', k.pdeAt cpu pt page = some pde → k.pteAt cpu pt page = some place →
      SameKernel k k' → post (.ok (some (.word place.1 place.2, pde.flags))) k') :
    (pgtblLkupPte cpu pt page).Ensures k post := by
  rw [pgtblLkupPte, pgtblLkupLvl, ensures_bind, ensures_require]
  intro _
  have levels : min pgtblDepth pgtblDepth - 0 = 2 := rfl
  rw [levels, ensures_bind, ertWalk, ertStep, ensures_bind]
  refine ensures_pure.mpr (ensures_ite.mpr ⟨by rintro ⟨⟩, fun _ => ?_⟩)
  rw [ensures_bind]
  refine ensures_pure.mpr (ensures_bind.mpr (ensures_pageAt fun dir start => ?_))
  have pde : k.pdeAt cpu pt page = some (k.memory.words dir (pgdIndex page)) := by
    rw [Kernel.pdeAt, start]
    rfl
  refine ertWalk_last_ensures (fun absent => ensures_pure.mpr (missing ?_)) ?_
  · rw [Kernel.pteAt, pde]
    exact if_pos absent
  intro table present reached
  refine ensures_ite.mpr ⟨by rintro ⟨⟩, fun _ => ensures_pure.mpr ?_⟩
  refine found _ (table, pteIndex page) _ pde ?_ rfl
  rw [Kernel.pteAt, pde]
  show (if (k.memory.words dir (ertIndex 0 page)).isNull = true then none else _) = _
  rw [if_neg present]
  show (k.translate cpu (chalPa2va (k.memory.words dir (ertIndex 0 page)).frame)).bind _ = _
  rw [reached]
  rfl

theorem SameKernel.pteAt {k' : Kernel} (same : SameKernel k k') (cpu pt page : Nat) :
    k'.pteAt cpu pt page = k.pteAt cpu pt page := by
  rw [same]
  rfl

/-! What a copy stores. -/

def SameWords (k k' : Kernel) : Prop := k'.memory.words = k.memory.words

instance : IsPreorder Kernel SameWords where
  refl _ := rfl
  trans _ _ _ before after := Eq.trans after before

theorem sameWords_modRefCnt (cpu page : Nat) (op : Bool) (typeCheck : Option MemType) :
    Keeps SameWords (modRefCnt cpu page op typeCheck) :=
  .ite (fun _ => keeps_pure ()) fun _ => .bind (keeps_read _) fun _ =>
    .bind (keeps_leaveIf _ _) fun _ => .bind (keeps_leaveIf _ _) fun _ =>
    .bind (keeps_leaveIf _ _) fun _ => .bind (keeps_leaveIf _ _) fun _ =>
    keeps_update fun _ => rfl

theorem pgtblMappingAdd_words (k : Kernel) (cpu pt addr page : Nat) (flags : PteFlags) :
    (pgtblMappingAdd cpu pt addr page flags).Ensures k fun outcome k' => outcome = .ok () →
      ∃ place, k.pteAt cpu pt (pageOf addr) = some place ∧
        k'.memory.words = (k.memory.setWord place.1 place.2 ⟨page, flags⟩).words := by
  rw [pgtblMappingAdd, ensures_bind, ensures_require]
  intro _
  refine ensures_bind.mpr (pgtblLkupPte_ensures (fun _ => orLeave_none_bind nofun) ?_)
  intro pde place walked _ stands same
  refine orLeave_some_bind (word_bind ?_)
  refine leaveIf_bind (fun _ => nofun) fun _ => ?_
  refine leaveIf_bind (fun _ => nofun) fun _ => ?_
  have checks : Keeps SameWords (pgtblQuieCheck cpu (walked.memory.words place.1 place.2)) :=
    keeps_pgtblQuieCheck _ _
  refine checks.ensures_bind (fun _ _ _ => nofun) fun _ checked equal => ?_
  refine (sameWords_modRefCnt cpu page true none).ensures_bind (fun _ _ _ => nofun) ?_
  intro _ counted unchanged
  refine ensures_update.mpr fun _ => ⟨place, stands, ?_⟩
  have words : counted.memory.words = k.memory.words := by
    calc counted.memory.words = checked.memory.words := unchanged
      _ = walked.memory.words := equal
      _ = k.memory.words := by rw [same]
  simp only [Memory.setWord, words]

def Kernel.wordAt (k : Kernel) (place : Nat × Nat) : Pte := k.memory.words place.1 place.2

theorem pgtblCpy_words (k : Kernel) (cpu t capTo capinTo : Nat) (ptFrom : CapTable)
    (capinFrom : Nat) :
    (pgtblCpy cpu t capTo capinTo ptFrom capinFrom).Ensures k fun outcome k' => outcome = .ok () →
      ∃ ptTo pde source target, k.pgtblNamed t capTo = some ptTo ∧
        k.pdeAt cpu ptFrom.table (pageOf capinFrom) = some pde ∧
        k.pteAt cpu ptFrom.table (pageOf capinFrom) = some source ∧
        k.pteAt cpu ptTo.table (pageOf capinTo) = some target ∧
        (k.wordAt source).flags.user ∧
        k'.memory.words = (k.memory.setWord target.1 target.2
          ⟨(k.wordAt source).frame, pde.flags⟩).words := by
  refine lkup_bind (orLeave_bind (fun _ => nofun) ?_)
  rintro ⟨addr, slot⟩ found
  refine orLeave_bind (fun _ => nofun) fun ptTo isPgtbl => ?_
  have named : k.pgtblNamed t capTo = some ptTo := (Kernel.pgtblNamed_eq found).trans isPgtbl
  refine leaveIf_bind (fun _ => nofun) fun _ => ?_
  refine ensures_bind.mpr (pgtblLkupPte_ensures (fun _ => orLeave_none_bind nofun) ?_)
  intro pde source walked directory stands same
  refine orLeave_some_bind (word_bind ?_)
  refine leaveIf_bind (fun _ => nofun) fun allowed => ?_
  refine (pgtblMappingAdd_words walked cpu ptTo.table capinTo _ pde.flags).mono ?_
  intro outcome k' added done
  obtain ⟨target, leads, stored⟩ := added done
  have words : walked.memory = k.memory := by rw [same]
  rw [same.pteAt] at leads
  rw [words] at stored allowed
  exact ⟨ptTo, pde, source, target, named, directory, stands, leads,
    not_not.mp fun kernelEntry => allowed (.inr kernelEntry), stored⟩

/-! Rights. -/

structure Pte.CopyOf (copy source : Pte) : Prop where
  mapped : copy.flags.present ∧ ¬copy.flags.cosframe
  mapping : source.flags.present
  frame : copy.frame = source.frame
  writable : copy.flags.writable → source.flags.writable
  user : copy.flags.user → source.flags.user

def Kernel.CopiesMapping (k k' : Kernel) (cpu t capTo capinTo ptFrom capinFrom : Nat) : Prop :=
  ∃ ptTo source target, k.pgtblNamed t capTo = some ptTo ∧
    k.pteAt cpu ptFrom (pageOf capinFrom) = some source ∧
    k.pteAt cpu ptTo.table (pageOf capinTo) = some target ∧
    (k'.wordAt target).CopyOf (k.wordAt source) ∧
    ∀ place, place ≠ target → k'.wordAt place = k.wordAt place

/-- The directory entry on the way to the source maps a page table, and gives no right to
write that the source entry, a mapping too, does not give. -/
def Kernel.PassesRights (k : Kernel) (cpu ptFrom capinFrom : Nat) : Prop :=
  ∃ pde source, k.pdeAt cpu ptFrom (pageOf capinFrom) = some pde ∧
    k.pteAt cpu ptFrom (pageOf capinFrom) = some source ∧
    (pde.flags.present ∧ ¬pde.flags.cosframe) ∧ (k.wordAt source).flags.present ∧
    (pde.flags.writable → (k.wordAt source).flags.writable)

theorem capCpy_eq_pgtblCpy {t capFrom : Nat} {ptFrom : CapTable}
    (named : k.pgtblNamed t capFrom = some ptFrom) (cpu capTo capinTo capinFrom : Nat)
    {post : Except Int Unit → Kernel → Prop}
    (holds : (pgtblCpy cpu t capTo capinTo ptFrom capinFrom).Ensures k post) :
    (capCpy cpu t capTo capinTo capFrom capinFrom).Ensures k post := by
  obtain ⟨⟨addr, slot⟩, found, isPgtbl⟩ := Option.bind_eq_some_iff.mp named
  have type : slot.h.type = .pgtbl := by
    by_contra other
    simp [Slot.pgtbl?, other] at isPgtbl
  have notCaptbl : slot.captbl? = none := by simp [Slot.captbl?, type]
  refine lkup_bind ?_
  rw [found]
  refine orLeave_some_bind ?_
  dsimp only at isPgtbl ⊢
  rw [notCaptbl, isPgtbl]
  exact holds

/-- A successful copy of a mapping gives no right away exactly when the directory entry
on the way to the source has none to give away. -/
theorem mapping_copy_rights_iff {k k' : Kernel} {cpu t capTo capinTo capFrom capinFrom : Nat}
    {ptFrom : CapTable} (named : k.pgtblNamed t capFrom = some ptFrom)
    (copied : capCpy cpu t capTo capinTo capFrom capinFrom k = .ok (.ok (), k')) :
    k.CopiesMapping k' cpu t capTo capinTo ptFrom.table capinFrom ↔
      k.PassesRights cpu ptFrom.table capinFrom := by
  obtain ⟨ptTo, pde, source, target, destination, directory, stands, leads, user, stored⟩ :=
    capCpy_eq_pgtblCpy named cpu capTo capinTo capinFrom (pgtblCpy_words k _ _ _ _ _ _) _ _ copied
      rfl
  have copy : k'.wordAt target = ⟨(k.wordAt source).frame, pde.flags⟩ := by
    rw [Kernel.wordAt, stored]
    simp
  constructor
  · rintro ⟨_, _, _, named', stands', leads', copyOf, -⟩
    cases named'.symm.trans destination
    cases stands'.symm.trans stands
    cases leads'.symm.trans leads
    rw [copy] at copyOf
    exact ⟨pde, source, directory, stands, copyOf.mapped, copyOf.mapping, copyOf.writable⟩
  · rintro ⟨_, _, directory', stands', mapped, mapping, writable⟩
    cases directory'.symm.trans directory
    cases stands'.symm.trans stands
    refine ⟨ptTo, source, target, destination, stands, leads, ?_, fun place other => ?_⟩
    · rw [copy]
      exact ⟨mapped, mapping, rfl, writable, fun _ => user⟩
    · rw [Kernel.wordAt, stored, Memory.setWord_words, if_neg]
      · rfl
      · exact fun same => other (Prod.ext same.1 same.2)

/-! A component that maps one frame, with the given flags, and copies the mapping to
another address of its page table. -/

def mappedWords (flags : PteFlags) (page i : Nat) : Pte :=
  if page = 20 ∧ i = 0 then ⟨21, .internDef⟩
  else if page = 21 ∧ i = 1 then ⟨0x100, flags⟩
  else .zero

def mappedKernel (flags : PteFlags) : Kernel :=
  { rootKernel with
    memory :=
      { rootKernel.memory with
        words := mappedWords flags
        kobj := fun page => if page = 20 then .pgd else if page = 21 then .pte else rootKobj page
        entries := fun _ _ => ⟨⟨.user, 1⟩, 0⟩ }
    slots := fun node i =>
      if node = (10, true) ∧ i = 36 then
        ⟨⟨0, 1, captblCap2sz .pgtbl, 0, .pgtbl⟩, .pgtbl ⟨1, 20, 0, none, 0⟩⟩
      else rootKernel.slots node i }

def readOnly : PteFlags := { PteFlags.userDef with writable := false }

def mappedView (outcome : Except Int Unit) (k : Kernel) : Except Int Unit × Pte :=
  (outcome, k.wordAt (21, 3))

theorem mapping_copy_rights_writable :
    ∃ k', capCpy 0 10 36 0x3000 36 0x1000 (mappedKernel .userDef) = .ok (.ok (), k') ∧
      ((mappedKernel .userDef).CopiesMapping k' 0 10 36 0x3000 20 0x1000 ↔
        (mappedKernel .userDef).PassesRights 0 20 0x1000) ∧
      (mappedKernel .userDef).PassesRights 0 20 0x1000 := by
  have view : (capCpy 0 10 36 0x3000 36 0x1000 (mappedKernel .userDef)).toOption.map
      (fun (outcome, k') => mappedView outcome k') = some (.ok (), ⟨0x100, .userDef⟩) := by
    decide +kernel
  obtain ⟨outcome, k', ran, seen⟩ := exists_of_view view
  have done : outcome = .ok () := congrArg Prod.fst seen
  subst done
  have named : (mappedKernel .userDef).pgtblNamed 10 36 = some ⟨1, 20, 0, none, 0⟩ := by
    decide +kernel
  have passes : (mappedKernel .userDef).PassesRights 0 20 0x1000 := by
    refine ⟨⟨21, .internDef⟩, (21, 1), ?_, ?_, ?_⟩ <;> decide +kernel
  have rights := mapping_copy_rights_iff named ran
  exact ⟨k', ran, rights, passes⟩

/-- The copy of a mapping for reading gives the right to write. -/
theorem mapping_copy_gains_writable :
    ∃ k', capCpy 0 10 36 0x3000 36 0x1000 (mappedKernel readOnly) = .ok (.ok (), k') ∧
      (mappedKernel readOnly).pgtblNamed 10 36 = some ⟨1, 20, 0, none, 0⟩ ∧
      ((mappedKernel readOnly).wordAt (21, 1)).flags.writable = false ∧
      (k'.wordAt (21, 3)).flags.writable = true ∧
      ¬(mappedKernel readOnly).CopiesMapping k' 0 10 36 0x3000 20 0x1000 := by
  have view : (capCpy 0 10 36 0x3000 36 0x1000 (mappedKernel readOnly)).toOption.map
      (fun (outcome, k') => mappedView outcome k') = some (.ok (), ⟨0x100, .userDef⟩) := by
    decide +kernel
  obtain ⟨outcome, k', ran, seen⟩ := exists_of_view view
  have done : outcome = .ok () := congrArg Prod.fst seen
  subst done
  have stored : k'.wordAt (21, 3) = ⟨0x100, .userDef⟩ := congrArg Prod.snd seen
  have named : (mappedKernel readOnly).pgtblNamed 10 36 = some ⟨1, 20, 0, none, 0⟩ := by
    decide +kernel
  have stands : (mappedKernel readOnly).pteAt 0 20 (pageOf 0x1000) = some (21, 1) := by
    decide +kernel
  have leads : (mappedKernel readOnly).pteAt 0 20 (pageOf 0x3000) = some (21, 3) := by
    decide +kernel
  refine ⟨k', ran, named, rfl, by rw [stored]; rfl, ?_⟩
  rintro ⟨ptTo, source, target, destination, stands', leads', copyOf, -⟩
  cases destination.symm.trans named
  cases stands'.symm.trans stands
  cases leads'.symm.trans leads
  rw [stored] at copyOf
  exact absurd (copyOf.writable rfl) Bool.false_ne_true

end Composite
