import Composite.Kernel.CapCpy

/-!
# Tables built from nodes and taken apart

`cap_cons` links a node into a table and `cap_decons` takes one out.  A page of a
capability table is linked and unlinked as two halves, and the count of references to
the node is changed before the first store of a construction and after the last one of
a deconstruction.
-/

namespace Composite

open Procedure Kernel Function

structure TablesKept (k k' : Kernel) : Prop where
  roots : k'.roots = k.roots
  slots : k'.slots = k.slots
  words : k'.memory.words = k.memory.words

variable {k k' : Kernel}

theorem SameKernel.tablesKept (same : SameKernel k k') : TablesKept k k' := by
  rw [same]
  exact ⟨rfl, rfl, rfl⟩

/-! Capability tables. -/

def Kernel.link (k : Kernel) (t index : Nat) (node : Node) : Kernel :=
  { k with
    roots := Function.update k.roots t (Function.update (k.roots t) index (some node)) }

theorem Kernel.link_roots (k : Kernel) (t index i : Nat) (node : Node) :
    (k.link t index node).roots t i = if i = index then some node else k.roots t i := by
  simp [Kernel.link, update_apply]

theorem captblExpand_some (k : Kernel) (t cap : Nat) (node : Node) :
    (captblExpand t cap (some node)).Ensures k fun outcome k' =>
      match outcome with
      | .error code => k' = k ∧ code ≠ 0 ∧ (captblMaxid ≤ cap ∨ (k.roots t (cap / 2 ^ 7)).isSome)
      | .ok () => cap < captblMaxid ∧ k.roots t (cap / 2 ^ 7) = none ∧
          k' = k.link t (cap / 2 ^ 7) node := by
  refine leaveIf_bind (fun beyond => ?_) fun inside => ?_
  · exact ⟨rfl, by decide, .inl beyond⟩
  refine read_bind (require_bind fun _ => ?_)
  dsimp only [id_eq]
  cases entry : k.roots t (cap / 2 ^ 7) with
  | some linked => exact ensures_leave.mpr ⟨rfl, by decide, .inr rfl⟩
  | none => exact ensures_update.mpr ⟨not_le.mp inside, rfl, rfl⟩

theorem captblExpand_none (k : Kernel) (t cap : Nat) :
    (captblExpand t cap none).Ensures k fun _ k' => k' = k := by
  refine leaveIf_bind (fun _ => rfl) fun _ => ?_
  refine read_bind (require_bind fun _ => ?_)
  dsimp only [id_eq]
  cases k.roots t (cap / 2 ^ 7) with
  | some linked => exact ensures_pure.mpr rfl
  | none => exact ensures_leave.mpr rfl

theorem refcntDec_refcntInc {count : Nat} (fits : count < 2 ^ 32) :
    refcntDec (refcntInc count) = count := by
  unfold refcntDec refcntInc
  omega

structure Kernel.LinksHalf (k : Kernel) (ct sub : CapTable) (addr : Nat) : Prop where
  root : ct.lvl = 0
  leaf : sub.lvl = 1
  thawed : ¬(isFrozen sub.refcntFlags ∨ isFrozen ct.refcntFlags)
  room : refcntOf sub.refcntFlags ≠ capRefcntMax
  inside : addr < captblMaxid
  free : k.roots ct.table (addr / 2 ^ 7) = none
  blocked : captblMaxid ≤ addr + 128 ∨ (k.roots ct.table ((addr + 128) / 2 ^ 7)).isSome

theorem captblCons_failed {ct sub : CapTable} {subAddr : CapAddr} {addr : Nat}
    (held : (k.slots subAddr.1 subAddr.2).post = .captbl sub) (fits : sub.refcntFlags < 2 ^ 32) :
    (captblCons ct sub subAddr addr).Ensures k fun outcome k' => ∀ code, outcome = .error code →
      (TablesKept k k' ↔ ¬k.LinksHalf ct sub addr) := by
  have kept := (refl_of SameKernel k).tablesKept
  refine leaveIf_bind (fun other _ _ => ?_) fun root => ?_
  · exact iff_of_true kept fun half => other half.root
  refine leaveIf_bind (fun other _ _ => ?_) fun leaf => ?_
  · exact iff_of_true kept fun half => other half.leaf
  refine leaveIf_bind (fun frozen _ _ => ?_) fun thawed => ?_
  · exact iff_of_true kept fun half => half.thawed frozen
  refine leaveIf_bind (fun full _ _ => ?_) fun room => ?_
  · exact iff_of_true kept fun half => half.room full
  refine ensures_bind.mpr (ensures_modRefcntFlags (.inl rfl) held ?_)
  set counted := k.putBody subAddr (.captbl { sub with refcntFlags := refcntInc sub.refcntFlags })
    with counting
  have inside : (counted.slots subAddr.1 subAddr.2).post =
      .captbl { sub with refcntFlags := refcntInc sub.refcntFlags } := by
    rw [counting, putBody_post, if_pos rfl]
  have restored : counted.putBody subAddr (.captbl { sub with
      refcntFlags := refcntDec (refcntInc sub.refcntFlags) }) = k := by
    rw [counting, putBody_putBody, refcntDec_refcntInc fits]
    exact putBody_self k subAddr _ held
  refine ensures_bind.mpr (ensures_code.mpr ((captblExpand_some _ _ _ _).mono ?_))
  rintro (code | ⟨⟩) k₁ expanded
  · obtain ⟨rfl, nonzero, occupied⟩ := expanded
    refine ensures_ite.mpr ⟨fun _ => ?_, fun zero => absurd nonzero zero⟩
    refine ensures_bind.mpr (ensures_modRefcntFlags (.inl rfl) inside (ensures_leave.mpr ?_))
    intro _ _
    rw [restored]
    refine iff_of_true kept fun half => ?_
    rcases occupied with beyond | taken
    · exact absurd half.inside (not_lt.mpr beyond)
    · rw [show counted.roots = k.roots from rfl, half.free] at taken
      cases taken
  · obtain ⟨bounded, free, rfl⟩ := expanded
    refine ensures_ite.mpr ⟨fun nonzero => absurd rfl nonzero, fun _ => ?_⟩
    refine ensures_bind.mpr (ensures_code.mpr ((captblExpand_some _ _ _ _).mono ?_))
    rintro (code | ⟨⟩) k₂ expanded
    · obtain ⟨rfl, nonzero, occupied⟩ := expanded
      refine ensures_ite.mpr ⟨fun _ => ?_, fun zero => absurd nonzero zero⟩
      refine ensures_bind.mpr (ensures_code.mpr ((captblExpand_none _ _ _).mono ?_))
      rintro _ _ rfl
      have stillInside : ((counted.link ct.table (addr / 2 ^ 7) (sub.table, false)).slots
          subAddr.1 subAddr.2).post = _ := inside
      refine ensures_bind.mpr (ensures_modRefcntFlags (.inl rfl) stillInside ?_)
      refine ensures_leave.mpr fun _ _ => ?_
      refine iff_of_false (fun kept => ?_) (not_not.mpr ?_)
      · have entry : (counted.link ct.table (addr / 2 ^ 7) (sub.table, false)).roots ct.table
            (addr / 2 ^ 7) = k.roots ct.table (addr / 2 ^ 7) := congrFun (congrFun kept.roots _) _
        rw [Kernel.link_roots, if_pos rfl] at entry
        cases entry.trans free
      · refine ⟨not_not.mp root, not_not.mp leaf, thawed, room, bounded, free, ?_⟩
        refine occupied.imp_right fun taken => ?_
        have next : (addr + 128) / 2 ^ 7 ≠ addr / 2 ^ 7 := by omega
        rw [Kernel.link_roots, if_neg next] at taken
        exact taken
    · exact ensures_ite.mpr ⟨fun nonzero => absurd rfl nonzero, fun _ => ensures_pure.mpr nofun⟩

/-! Page tables. -/

theorem pgtblCons_failed (k : Kernel) (cpu : Nat) (ct sub : CapTable) (subAddr : CapAddr)
    (expandid : Nat) (held : (k.slots subAddr.1 subAddr.2).post = .pgtbl sub) :
    (pgtblCons cpu ct sub subAddr expandid).Ensures k fun outcome k' =>
      ∀ code, outcome = .error code → TablesKept k k' := by
  have kept := (refl_of SameKernel k).tablesKept
  refine (sameKernel_pgtblLkupLvl _ _ _ _ _).ensures_bind (fun _ _ same _ _ => same.tablesKept) ?_
  intro found k₁ same
  have kept := same.tablesKept
  refine orLeave_bind (fun _ _ _ => kept) ?_
  rintro ⟨intern, flags⟩ -
  have reads : Keeps SameKernel intern.next := keeps_next intern
  refine reads.ensures_bind (fun _ _ again _ _ => (trans_of SameKernel same again).tablesKept) ?_
  intro old k₂ again
  have same := trans_of SameKernel same again
  have kept := same.tablesKept
  refine leaveIf_bind (fun _ _ _ => kept) fun _ => ?_
  refine leaveIf_bind (fun _ _ _ => kept) fun _ => ?_
  refine leaveIf_bind (fun _ _ _ => kept) fun _ => ?_
  have held : (k₂.slots subAddr.1 subAddr.2).post = .pgtbl sub := by
    rw [kept.slots, held]
  refine ensures_bind.mpr (ensures_modRefcntFlags (.inr rfl) held ?_)
  cases intern with
  | root next => exact ensures_pure.mpr nofun
  | word page index => exact ensures_update.mpr nofun

/-! Taking a table apart. -/

theorem sameKernel_captblLkupLeaf (node : Node) (slot lvl : Nat) :
    Keeps SameKernel (captblLkupLeaf node slot lvl) :=
  .bind (keeps_read _) fun _ => .bind (keeps_require _ _) fun _ =>
    .ite (fun _ => keeps_pure _) fun _ => keeps_pure _

theorem sameKernel_captblLkupLvl (t cap startLvl endLvl : Nat) :
    Keeps SameKernel (captblLkupLvl t cap startLvl endLvl) := by
  refine .bind (keeps_require _ _) fun _ => .bind (keeps_read _) fun k =>
    .ite (fun _ => ?_) fun _ => ?_
  · refine .bind (keeps_require _ _) fun _ => .ite (fun _ => keeps_pure _) fun _ => ?_
    cases k.roots t (cap % captblMaxid / 2 ^ 7) with
    | none => exact keeps_pure _
    | some node => exact sameKernel_captblLkupLeaf _ _ _
  · exact .ite (fun _ => sameKernel_captblLkupLeaf _ _ _) fun _ => keeps_fault _

theorem CtIntern.isZero_of_kept (kept : TablesKept k k') (intern : CtIntern) :
    intern.isZero k' = intern.isZero k := by
  cases intern with
  | entry t index => rw [CtIntern.isZero, CtIntern.isZero, kept.roots]
  | slot addr => rw [CtIntern.isZero, CtIntern.isZero, kept.slots]

def StaysEmpty (intern : CtIntern) (k k' : Kernel) : Prop :=
  intern.isZero k = true → intern.isZero k' = true

instance (intern : CtIntern) : IsPreorder Kernel (StaysEmpty intern) where
  refl _ := id
  trans _ _ _ before after := after ∘ before

theorem SameKernel.staysEmpty (same : SameKernel k k') (intern : CtIntern) :
    StaysEmpty intern k k' := fun empty => by
  rw [intern.isZero_of_kept same.tablesKept, empty]

theorem CtIntern.clear_ensures (intern : CtIntern) (k : Kernel) :
    intern.clear.Ensures k fun outcome k' => outcome = .ok () ∧ intern.isZero k' = true ∧
      ∀ other, StaysEmpty other k k' := by
  cases intern with
  | entry t index =>
    refine ensures_update.mpr ⟨rfl, ?_, fun other empty => ?_⟩
    · simp [CtIntern.isZero]
    · cases other with
      | slot addr => exact empty
      | entry t' index' =>
        by_cases sameTable : t' = t
        · subst sameTable
          simp only [CtIntern.isZero, update_self, update_apply] at empty ⊢
          split_ifs
          · rfl
          · exact empty
        · simp only [CtIntern.isZero, update_of_ne sameTable] at empty ⊢
          exact empty
  | slot addr =>
    refine ensures_update.mpr ⟨rfl, ?_, fun other empty => ?_⟩
    · simp [CtIntern.isZero, setHeader_apply]
    · cases other with
      | entry t' index' => exact empty
      | slot addr' =>
        simp only [CtIntern.isZero, setHeader_apply, decide_eq_true_eq] at empty ⊢
        split_ifs
        · rfl
        · exact empty

theorem Kernel.putBody_staysEmpty (k : Kernel) (addr : CapAddr) (body : CapBody)
    (intern : CtIntern) : StaysEmpty intern k (k.putBody addr body) := by
  intro empty
  cases intern with
  | entry t index => exact empty
  | slot place => rwa [CtIntern.isZero, putBody_h]

theorem deconsRelease_ensures (subAddr : CapAddr) (k : Kernel) :
    (deconsRelease subAddr).Ensures k fun outcome k' =>
      (∀ code, outcome = .error code → k' = k) ∧ ∀ intern, StaysEmpty intern k k' := by
  have same : ∀ intern, StaysEmpty intern k k := fun intern => refl_of (StaysEmpty intern) k
  refine (tableAt_ensures k subAddr).bind ?_
  rintro _ _ ⟨rfl, sub, _, rfl, -⟩
  refine leaveIf_bind (fun _ => ⟨fun _ _ => rfl, same⟩) fun _ => ?_
  refine (tableAt_ensures _ subAddr).bind ?_
  rintro _ _ ⟨rfl, _, _, rfl, -⟩
  exact ensures_update.mpr ⟨nofun, Kernel.putBody_staysEmpty _ _ _⟩

def Kernel.PrunesCaptbl (k : Kernel) (ct : CapTable) (pruneid lvl : Nat) : Prop :=
  ct.lvl < lvl ∧ ∃ intern, (captblLkupLvl ct.table pruneid ct.lvl lvl).Yields k (some intern) ∧
    intern.isZero k = false

theorem captblDecons_failed (k : Kernel) (ct : CapTable) (subAddr : CapAddr) (pruneid lvl : Nat) :
    (captblDecons ct subAddr pruneid lvl).Ensures k fun outcome k' =>
      ∀ code, outcome = .error code → (TablesKept k k' ↔ ¬k.PrunesCaptbl ct pruneid lvl) := by
  refine leaveIf_bind (fun above _ _ => ?_) fun below => ?_
  · exact iff_of_true (refl_of SameKernel k).tablesKept fun prunes =>
      absurd prunes.1 (not_lt.mpr above)
  refine ensures_bind.mpr fun outcome k₁ ran => ?_
  have same := sameKernel_captblLkupLvl _ _ _ _ _ _ _ ran
  have unfound : ∀ intern, outcome ≠ .ok (some intern) → ¬(captblLkupLvl ct.table pruneid ct.lvl
      lvl).Yields k (some intern) := fun intern other yields => other (yields.outcome ran)
  rcases outcome with code | (_ | intern)
  · exact fun _ _ => iff_of_true same.tablesKept fun ⟨_, intern, yields, _⟩ =>
      unfound intern nofun yields
  · refine orLeave_none_bind fun _ _ => ?_
    exact iff_of_true same.tablesKept fun ⟨_, intern, yields, _⟩ => unfound intern nofun yields
  refine orLeave_some_bind (read_bind ?_)
  refine ensures_ite.mpr ⟨fun _ => ensures_pure.mpr nofun, fun inUse => ?_⟩
  rw [id_eq, intern.isZero_of_kept same.tablesKept, Bool.not_eq_true] at inUse
  have prunes : k.PrunesCaptbl ct pruneid lvl := ⟨not_le.mp below, intern, ⟨k₁, ran⟩, inUse⟩
  suffices emptied : Ensures _ k₁ fun _ k' => intern.isZero k' = true by
    refine emptied.mono fun outcome k' empty code _ => iff_of_false (fun kept => ?_)
      (not_not.mpr prunes)
    rw [intern.isZero_of_kept kept, inUse] at empty
    cases empty
  refine (intern.clear_ensures k₁).bind ?_
  rintro _ k₂ ⟨rfl, empty, -⟩
  have lookups : Keeps (StaysEmpty intern) (captblLkupLvl ct.table (pruneid + 128) ct.lvl lvl) :=
    fun k => (sameKernel_captblLkupLvl _ _ _ _ k).mono fun _ _ same => same.staysEmpty intern
  have clears : ∀ other : CtIntern, Keeps (StaysEmpty intern) other.clear :=
    fun other k => (other.clear_ensures k).mono fun _ _ cleared => cleared.2.2 intern
  have releases : Keeps (StaysEmpty intern) (deconsRelease subAddr) :=
    fun k => (deconsRelease_ensures subAddr k).mono fun _ _ released => released.2 intern
  suffices rest : Keeps (StaysEmpty intern) _ by exact (rest k₂).mono fun _ _ stays => stays empty
  exact .bind lookups fun found => .bind (keeps_orLeave _ found) fun other =>
    .bind (keeps_read id) fun _ => .ite (fun _ => keeps_pure ()) fun _ =>
    .bind (clears other) fun _ => releases

def Kernel.PrunesPgtbl (k : Kernel) (cpu : Nat) (pt : CapTable) (pruneid lvl : Nat) : Prop :=
  pt.lvl < lvl ∧ ∃ page index flags,
    (pgtblLkupLvl cpu pt.table (pageOf pruneid) pt.lvl lvl).Yields k
      (some (.word page index, flags)) ∧ k.memory.words page index ≠ .zero

theorem pgtblDecons_failed (k : Kernel) (cpu : Nat) (pt : CapTable) (subAddr : CapAddr)
    (pruneid lvl : Nat) :
    (pgtblDecons cpu pt subAddr pruneid lvl).Ensures k fun outcome k' =>
      ∀ code, outcome = .error code → (TablesKept k k' ↔ ¬k.PrunesPgtbl cpu pt pruneid lvl) := by
  refine leaveIf_bind (fun above _ _ => ?_) fun below => ?_
  · exact iff_of_true (refl_of SameKernel k).tablesKept fun prunes =>
      absurd prunes.1 (not_lt.mpr above)
  refine ensures_bind.mpr fun outcome k₁ ran => ?_
  have same := sameKernel_pgtblLkupLvl _ _ _ _ _ _ _ _ ran
  have unfound : (∀ page index flags, outcome ≠ .ok (some (.word page index, flags))) →
      ¬k.PrunesPgtbl cpu pt pruneid lvl := by
    rintro other ⟨-, page, index, flags, yields, -⟩
    exact other page index flags (yields.outcome ran)
  rcases outcome with code | (_ | ⟨_ | ⟨page, index⟩, flags⟩)
  · exact fun _ _ => iff_of_true same.tablesKept (unfound (by simp))
  · refine orLeave_none_bind fun _ _ => ?_
    exact iff_of_true same.tablesKept (unfound (by simp))
  · refine orLeave_some_bind (ensures_bind.mpr (ensures_pure.mpr ?_))
    refine ensures_ite.mpr ⟨fun _ => ensures_pure.mpr nofun, fun _ => ?_⟩
    refine ensures_bind.mpr (ensures_pure.mpr ((deconsRelease_ensures subAddr _).mono ?_))
    rintro outcome k' ⟨refused, -⟩ code failed
    obtain rfl := refused code failed
    exact iff_of_true same.tablesKept (unfound (by simp))
  · refine orLeave_some_bind (word_bind ?_)
    refine ensures_ite.mpr ⟨fun _ => ensures_pure.mpr nofun, fun inUse => ?_⟩
    refine update_bind ((deconsRelease_ensures subAddr _).mono ?_)
    rintro outcome k' ⟨refused, -⟩ code failed
    obtain rfl := refused code failed
    have inUse : k.memory.words page index ≠ .zero := by rwa [same.tablesKept.words] at inUse
    refine iff_of_false (fun kept => inUse ?_) (not_not.mpr ?_)
    · have entry : (k₁.memory.setWord page index .zero).words page index =
          k.memory.words page index := congrFun (congrFun kept.words _) _
      rw [← entry, Memory.setWord_words, if_pos ⟨rfl, rfl⟩]
    · exact ⟨not_le.mp below, page, index, flags, ⟨k₁, ran⟩, inUse⟩

/-! The calls. -/

def Kernel.CountsFit (k : Kernel) : Prop :=
  ∀ (addr : CapAddr) table, (k.slots addr.1 addr.2).post.counted = some table →
    table.refcntFlags < 2 ^ 32

theorem table?_of_captbl {slot : Slot CapBody} (type : slot.h.type = .captbl) :
    slot.table? = slot.captbl? := by
  simp [Slot.table?, Slot.pgtbl?, type]

theorem table?_of_not_captbl {slot : Slot CapBody} (type : slot.h.type ≠ .captbl) :
    slot.table? = slot.pgtbl? := by
  simp [Slot.table?, Slot.captbl?, type]

def Kernel.ConsBreaks (k : Kernel) (t capto capsub expandid : Nat) : Prop :=
  ∃ ct sub, k.captblNamed t capto = some ct ∧ k.captblNamed t capsub = some sub ∧
    k.LinksHalf ct sub expandid

theorem capCons_failed (fits : k.CountsFit) (cpu t capto capsub expandid : Nat) :
    (capCons cpu t capto capsub expandid).Ensures k fun outcome k' =>
      ∀ code, outcome = .error code →
        (TablesKept k k' ↔ ¬k.ConsBreaks t capto capsub expandid) := by
  have kept := (refl_of SameKernel k).tablesKept
  refine leaveIf_bind (fun same _ _ => iff_of_true kept ?_) fun _ => ?_
  · rintro ⟨ct, sub, named, namedSub, half⟩
    subst same
    cases named.symm.trans namedSub
    cases half.root.symm.trans half.leaf
  refine lkup_bind (orLeave_bind ?_ ?_)
  · intro missing _ _
    refine iff_of_true kept ?_
    rintro ⟨ct, sub, named, -⟩
    rw [Kernel.captblNamed, missing] at named
    cases named
  rintro ⟨ctAddr, ct⟩ found
  have named := Kernel.captblNamed_eq found
  refine leaveIf_bind (fun other _ _ => iff_of_true kept ?_) fun _ => ?_
  · rintro ⟨_, _, isCaptbl, -⟩
    exact other.1 (captbl?_eq_some.mp (named.symm.trans isCaptbl)).1
  refine lkup_bind (orLeave_bind ?_ ?_)
  · intro missing _ _
    refine iff_of_true kept ?_
    rintro ⟨_, sub, -, named, -⟩
    rw [Kernel.captblNamed, missing] at named
    cases named
  rintro ⟨subAddr, sub⟩ foundSub
  have namedSub := Kernel.captblNamed_eq foundSub
  obtain rfl := Kernel.found_names foundSub
  refine leaveIf_bind (fun other _ _ => iff_of_true kept ?_) fun same => ?_
  · rintro ⟨_, _, isCaptbl, subIsCaptbl, -⟩
    refine other ?_
    rw [(captbl?_eq_some.mp (named.symm.trans isCaptbl)).1]
    exact (captbl?_eq_some.mp (namedSub.symm.trans subIsCaptbl)).1
  refine ensures_bind.mpr (ensures_orFault.mpr fun ctTable isTable => ?_)
  refine ensures_bind.mpr (ensures_orFault.mpr fun subTable subIsTable => ?_)
  by_cases type : ct.h.type = .captbl
  · have subType := (not_not.mp same).trans type
    rw [table?_of_captbl type, ← named] at isTable
    rw [table?_of_captbl subType, ← namedSub] at subIsTable
    have held := (captbl?_eq_some.mp (namedSub.symm.trans subIsTable)).2
    have breaks : k.ConsBreaks t capto capsub expandid ↔ k.LinksHalf ctTable subTable expandid := by
      constructor
      · rintro ⟨_, _, named', namedSub', half⟩
        cases named'.symm.trans isTable
        cases namedSub'.symm.trans subIsTable
        exact half
      · exact fun half => ⟨ctTable, subTable, isTable, subIsTable, half⟩
    rw [breaks]
    refine leaveIf_bind (fun root _ _ => ?_) fun _ => ?_
    · exact iff_of_true kept fun half => by cases half.leaf.symm.trans root
    refine require_bind fun _ => ensures_ite.mpr ⟨fun _ => ?_, ?_⟩
    · exact captblCons_failed held (fits subAddr subTable (by rw [held]; rfl))
    · exact fun other => absurd type other
  · have unbroken : ¬k.ConsBreaks t capto capsub expandid := by
      rintro ⟨_, _, isCaptbl, -⟩
      exact type (captbl?_eq_some.mp (named.symm.trans isCaptbl)).1
    have subType : (k.slots subAddr.1 subAddr.2).h.type ≠ .captbl := by
      rwa [not_not.mp same]
    rw [table?_of_not_captbl subType] at subIsTable
    refine leaveIf_bind (fun _ _ _ => iff_of_true kept unbroken) fun _ => ?_
    refine require_bind fun _ => ensures_ite.mpr ⟨?_, fun _ => ?_⟩
    · exact fun isCaptbl => absurd isCaptbl type
    · refine (pgtblCons_failed k cpu ctTable subTable subAddr expandid
        (pgtbl?_eq_some.mp subIsTable).2).mono fun _ _ failed code error => ?_
      exact iff_of_true (failed code error) unbroken

def Kernel.DeconsBreaks (k : Kernel) (cpu t cap capsub pruneid lvl : Nat) : Prop :=
  ∃ addr sub, k.found t capsub = some (addr, sub) ∧
    ((∃ ct, k.captblNamed t cap = some ct ∧ sub.h.type = .captbl ∧ k.PrunesCaptbl ct pruneid lvl) ∨
      ∃ pt, k.pgtblNamed t cap = some pt ∧ sub.h.type = .pgtbl ∧
        k.PrunesPgtbl cpu pt pruneid lvl)

theorem capDecons_failed (k : Kernel) (cpu t cap capsub pruneid lvl : Nat) :
    (capDecons cpu t cap capsub pruneid lvl).Ensures k fun outcome k' =>
      ∀ code, outcome = .error code →
        (TablesKept k k' ↔ ¬k.DeconsBreaks cpu t cap capsub pruneid lvl) := by
  have kept := (refl_of SameKernel k).tablesKept
  refine lkup_bind (lkup_bind ?_)
  refine orLeave_bind (fun missing _ _ => iff_of_true kept ?_) ?_
  · rintro ⟨_, _, -, ⟨_, named, -⟩ | ⟨_, named, -⟩⟩
    · rw [Kernel.captblNamed, missing] at named
      cases named
    · rw [Kernel.pgtblNamed, missing] at named
      cases named
  rintro ⟨headAddr, head⟩ found
  have namedCaptbl := Kernel.captblNamed_eq found
  have namedPgtbl := Kernel.pgtblNamed_eq found
  refine orLeave_bind (fun missing _ _ => iff_of_true kept ?_) ?_
  · rintro ⟨_, _, foundSub, -⟩
    cases foundSub.symm.trans missing
  rintro ⟨subAddr, sub⟩ foundSub
  refine leaveIf_bind (fun other _ _ => iff_of_true kept ?_) fun same => ?_
  · rintro ⟨_, _, foundSub', ⟨_, named, subType, -⟩ | ⟨_, named, subType, -⟩⟩
    · cases foundSub'.symm.trans foundSub
      exact other ((captbl?_eq_some.mp (namedCaptbl.symm.trans named)).1.trans subType.symm)
    · cases foundSub'.symm.trans foundSub
      exact other ((pgtbl?_eq_some.mp (namedPgtbl.symm.trans named)).1.trans subType.symm)
  have subType : sub.h.type = head.h.type := (not_not.mp same).symm
  rw [← namedCaptbl, ← namedPgtbl]
  split
  · rename_i ct named
    have type := (captbl?_eq_some.mp (namedCaptbl.symm.trans named)).1
    have notPgtbl : k.pgtblNamed t cap = none := by simp [namedPgtbl, Slot.pgtbl?, type]
    have breaks : k.DeconsBreaks cpu t cap capsub pruneid lvl ↔ k.PrunesCaptbl ct pruneid lvl := by
      constructor
      · rintro ⟨_, _, -, ⟨_, named', -, prunes⟩ | ⟨_, named', -⟩⟩
        · cases named'.symm.trans named
          exact prunes
        · cases named'.symm.trans notPgtbl
      · exact fun prunes => ⟨_, _, foundSub, .inl ⟨ct, named, subType.trans type, prunes⟩⟩
    rw [breaks]
    exact captblDecons_failed k ct subAddr pruneid lvl
  · rename_i pt notCaptbl named
    have type := (pgtbl?_eq_some.mp (namedPgtbl.symm.trans named)).1
    have breaks : k.DeconsBreaks cpu t cap capsub pruneid lvl ↔
        k.PrunesPgtbl cpu pt pruneid lvl := by
      constructor
      · rintro ⟨_, _, -, ⟨_, named', -⟩ | ⟨_, named', -, prunes⟩⟩
        · cases named'.symm.trans notCaptbl
        · cases named'.symm.trans named
          exact prunes
      · exact fun prunes => ⟨_, _, foundSub, .inr ⟨pt, named, subType.trans type, prunes⟩⟩
    rw [breaks]
    exact pgtblDecons_failed k cpu pt subAddr pruneid lvl
  · rename_i notCaptbl notPgtbl
    refine ensures_leave.mpr fun _ _ => iff_of_true kept ?_
    rintro ⟨_, _, -, ⟨_, named, -⟩ | ⟨_, named, -⟩⟩
    · cases named.symm.trans notCaptbl
    · cases named.symm.trans notPgtbl

inductive TableBuild where
  | cons (capto capsub expandid : Nat)
  | decons (cap capsub pruneid lvl : Nat)
  deriving DecidableEq, Repr

def TableBuild.call (cpu t : Nat) : TableBuild → KCall Unit
  | .cons capto capsub expandid => capCons cpu t capto capsub expandid
  | .decons cap capsub pruneid lvl => capDecons cpu t cap capsub pruneid lvl

def TableBuild.Breaks (k : Kernel) (cpu t : Nat) : TableBuild → Prop
  | .cons capto capsub expandid => k.ConsBreaks t capto capsub expandid
  | .decons cap capsub pruneid lvl => k.DeconsBreaks cpu t cap capsub pruneid lvl

/-- A construction or deconstruction that fails has left the tables alone exactly when it
could not begin: no half page was free before a taken one, and no entry was in use. -/
theorem table_build_failed_iff {k k' : Kernel} {cpu t : Nat} {build : TableBuild} {code : Int}
    (fits : k.CountsFit) (failed : build.call cpu t k = .ok (.error code, k')) :
    TablesKept k k' ↔ ¬build.Breaks k cpu t := by
  cases build with
  | cons capto capsub expandid => exact capCons_failed fits cpu t _ _ _ _ _ failed code rfl
  | decons cap capsub pruneid lvl => exact capDecons_failed k cpu t _ _ _ _ _ _ failed code rfl

/-! A table with a page linked at its third and fourth entry, and the capability of another
page, which may be frozen. -/

def builtKernel (refcntFlags : Nat) : Kernel :=
  { sharingKernel refcntFlags with
    memory :=
      { rootKernel.memory with
        kobj := fun page => if page = 30 ∨ page = 31 then .captblLeaf else rootKobj page }
    roots := fun page i =>
      if page = 10 ∧ i = 0 then some (10, true)
      else if page = 10 ∧ i = 2 then some (31, false)
      else if page = 10 ∧ i = 3 then some (31, true)
      else none }

theorem builtKernel_countsFit {refcntFlags : Nat} (fits : refcntFlags < 2 ^ 32) :
    (builtKernel refcntFlags).CountsFit := by
  intro addr table counted
  simp only [builtKernel, sharingKernel] at counted
  split_ifs at counted
  · cases counted
    exact fits
  · simp only [rootKernel] at counted
    split_ifs at counted
    · unfold rootSlot rootCaps at counted
      split at counted
      · cases counted
      · rename_i cap
        split at cap <;> cases cap <;> cases counted
        decide
    · cases counted

def builtView (outcome : Except Int Unit) (k : Kernel) :
    Except Int Unit × List (Option Node) :=
  (outcome, [k.roots 10 2, k.roots 10 3, k.roots 10 511])

theorem table_build_failed_taken :
    ∃ k', (TableBuild.cons 4 40 256).call 0 10 (builtKernel 1) =
        .ok (.error (-Errno.eexist), k') ∧
      (TablesKept (builtKernel 1) k' ↔
        ¬(TableBuild.cons 4 40 256).Breaks (builtKernel 1) 0 10) := by
  have view : ((TableBuild.cons 4 40 256).call 0 10 (builtKernel 1)).toOption.map
      (fun (outcome, k') => builtView outcome k') =
        some (.error (-Errno.eexist), [some (31, false), some (31, true), none]) := by
    decide +kernel
  obtain ⟨outcome, k', ran, seen⟩ := exists_of_view view
  have failed : outcome = .error (-Errno.eexist) := congrArg Prod.fst seen
  subst failed
  exact ⟨k', ran, table_build_failed_iff (builtKernel_countsFit (by decide)) ran⟩

/-- A construction at the last half page fails and leaves it linked.  A deconstruction that
names a frozen page as the node fails after it has emptied both entries. -/
theorem table_build_failed_halfway :
    (∃ k', (TableBuild.cons 4 40 (511 * 128)).call 0 10 (builtKernel 1) =
        .ok (.error (-Errno.einval), k') ∧ k'.roots 10 511 = some (30, false) ∧
      ¬TablesKept (builtKernel 1) k') ∧
    ∃ k', (TableBuild.decons 4 40 256 1).call 0 10 (builtKernel (1 + capMemFrozenFlag)) =
        .ok (.error (-Errno.einval), k') ∧ k'.roots 10 2 = none ∧ k'.roots 10 3 = none ∧
      ¬TablesKept (builtKernel (1 + capMemFrozenFlag)) k' := by
  constructor
  · have view : ((TableBuild.cons 4 40 (511 * 128)).call 0 10 (builtKernel 1)).toOption.map
        (fun (outcome, k') => builtView outcome k') =
          some (.error (-Errno.einval), [some (31, false), some (31, true), some (30, false)]) := by
      decide +kernel
    obtain ⟨outcome, k', ran, seen⟩ := exists_of_view view
    simp only [builtView, Prod.mk.injEq, List.cons.injEq, and_true] at seen
    obtain ⟨rfl, -, -, linked⟩ := seen
    refine ⟨k', ran, linked, fun kept => ?_⟩
    rw [kept.roots] at linked
    cases linked
  · have view : ((TableBuild.decons 4 40 256 1).call 0 10
        (builtKernel (1 + capMemFrozenFlag))).toOption.map
        (fun (outcome, k') => builtView outcome k') =
          some (.error (-Errno.einval), [none, none, none]) := by
      decide +kernel
    obtain ⟨outcome, k', ran, seen⟩ := exists_of_view view
    simp only [builtView, Prod.mk.injEq, List.cons.injEq, and_true] at seen
    obtain ⟨rfl, first, second, -⟩ := seen
    refine ⟨k', ran, first, second, fun kept => ?_⟩
    rw [kept.roots] at first
    cases first

end Composite
