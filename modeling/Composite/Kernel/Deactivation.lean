import Composite.Kernel.Pgtbl.Copies
import Composite.Kernel.ThreadRelease

/-!
# Deactivations that fail

A deactivation looks its capability up under an id that need not be the id the
capability was added under, checks whether the object may go, and removes the
capability with `captbl_clear`, which is stricter about the id.  Some of the calls
change the kernel before the capability is removed, and those that give a page back
may fail when the capability is gone.
-/

namespace Composite

open Procedure Kernel

def SyscallOp.deactivates : SyscallOp → Option CapType
  | .thdDeactivate | .thdDeactivateRoot => some .thd
  | .compDeactivate => some .comp
  | .arcvDeactivate => some .arcv
  | .captblDeactivate | .captblDeactivateRoot => some .captbl
  | .pgtblDeactivate | .pgtblDeactivateRoot => some .pgtbl
  | _ => none

def SyscallOp.releasesPage : SyscallOp → Bool
  | .thdDeactivateRoot | .captblDeactivateRoot | .pgtblDeactivateRoot => true
  | _ => false

/-- The page table and the address within it that a call names for the page to give back. -/
def SyscallArgs.released (args : SyscallArgs) : Nat × Nat :=
  if args.op.releasesPage then (args.a3, args.a4) else (0, 0)

/-- The scan of the table at `addr` has found something, and the table is not frozen any
more. -/
def Thawed (k k' : Kernel) (addr : CapAddr) : Prop :=
  ∃ (body : CapTable → CapBody) (cap : CapTable), (body = .captbl ∨ body = .pgtbl) ∧
    (k.slots addr.1 addr.2).post = body cap ∧ isFrozen cap.refcntFlags ∧
    k' = { k.putBody addr (body { cap with refcntFlags := refcntOf cap.refcntFlags }) with
      walks := k'.walks }

/-- What a deactivation of the capability with id `capin` leaves behind when it fails. -/
def LeftAlone (k : Kernel) (ct capin : Nat) : Except Int Unit → Kernel → Prop
  | .ok (), _ => True
  | .error code, k' => code ≠ 0 → SameKernel k k' ∨
      ∃ addr slot, k.found ct capin = some (addr, slot) ∧ Thawed k k' addr

/-! What the steps of a deactivation ask for. -/

/-- `captbl_clear` accepts the id. -/
def Kernel.Removes (k : Kernel) (ct capin : Nat) (type : CapType) : Prop :=
  (captblRemovable (k.roots ct) k.slots capin type).isOk

/-- `retypetbl_deref` accepts the page. -/
def Kernel.Derefs (k : Kernel) (cpu page : Nat) : Prop :=
  isFixedUmem page ∨ paBoundary k.chalKernelMemPa page ∧
    ((k.memory.entries cpu page).refcntAtom.type = .user ∨
      (k.memory.entries cpu page).refcntAtom.type = .kern) ∧
    (k.memory.entries cpu page).refcntAtom.refCnt ≠ retypeRefcntMax

def CapBody.isAbout (frame : Nat) : CapBody → Prop
  | .captbl cap => chalPa2va frame = chalPa2va cap.table
  | .pgtbl cap => chalPa2va frame = cap.table
  | .thd tc => chalPa2va frame = chalPa2va tc.t
  | _ => False

/-- The table is frozen, and has been for long enough. -/
def Kernel.Settled (k : Kernel) (cpu : Nat) (cap : CapTable) : Prop :=
  isFrozen cap.refcntFlags ∧
    if cap.lvl = 0 then tlbQuiescenceCheck k.tlb cpu cap.frozenTs
    else quiescenceCheck k.tsc cap.frozenTs kernQuiescenceCycles

/-- The scan of the page of a table. -/
def Kernel.pageScan (k : Kernel) (cpu frame : Nat) : CapBody → Int
  | .captbl cap =>
    if cap.lvl < 1 then kmemPageScanCaptbl (k.roots cap.table) pageSize
    else captblKmemScan k cap.table
  | .pgtbl cap =>
    if cap.lvl = 0 then
      kmemPageScanPgd (k.memory.words frame) (pageSize - kernelPgdRegionSize)
    else if cap.lvl = pgtblDepth - 1 then pgtblMappingScan cpu k frame
    else kmemPageScanPgd (k.memory.words frame) pageSize
  | _ => 0

def Kernel.Vacant (k : Kernel) (cpu frame : Nat) (body : CapBody) : Prop :=
  (∀ cap, body = .captbl cap ∨ body = .pgtbl cap → k.Settled cpu cap) ∧
    k.pageScan cpu frame body = 0

/-- `kmem_deact_pre` accepts the page that the entry names for the capability. -/
def Kernel.GivesUp (k : Kernel) (cpu ct : Nat) (page : Nat × Nat) (body : CapBody)
    (frame : Nat) : Prop :=
  page.1 ≠ 0 ∧ page.2 ≠ 0 ∧ ∃ capPt place, k.pgtblNamed ct page.1 = some capPt ∧
    k.pteAt cpu capPt.table (pageOf page.2) = some place ∧
    (k.wordAt place).flags.coskmem ∧ (k.wordAt place).frame = frame ∧ body.isAbout frame ∧
    k.Vacant cpu frame body

/-- `__arcv_teardown` accepts the thread. -/
def Kernel.FreesTcap (k : Kernel) (thd : Nat) : Prop :=
  ∀ tcap, (k.threads thd).rcvcap.rcvcapTcap = some tcap →
    ¬((k.tcaps tcap).refcnt > 1 ∧ (k.tcaps tcap).arcvEp = some thd)

/-- For a deactivation that has found the capability in `slot`: if the checks of the call
let it go on to its first change, the steps after that change are accepted. -/
def Kernel.InOrder (k : Kernel) (cpu ct : Nat) (page : Nat × Nat) (root : Bool)
    (table capin : Nat) (slot : Slot CapBody) : CapType → Prop
  | .comp => ∀ compc, slot.comp? = some compc → k.Removes table capin .comp
  | .arcv => ∀ arcvc, slot.arcv? = some arcvc → arcvc.cpuid = cpu →
      ¬(k.threads arcvc.thd).rcvcap.refcnt > 0 → k.FreesTcap arcvc.thd →
      k.Removes table capin .arcv
  | .thd => ∀ tc, slot.thd? = some tc → root = true → (k.threads tc.t).refcnt = 1 →
      (k.threads tc.t).rcvcap.isbound = false → k.Removes table capin .thd →
      ∀ frame, k.GivesUp cpu ct page slot.post frame → k.Derefs cpu frame
  | .captbl => ∀ cap, slot.captbl? = some cap → root = true → refcntOf cap.refcntFlags = 1 →
      cap.parent = none → k.Removes table capin .captbl →
      ∀ frame, k.GivesUp cpu ct page slot.post frame → k.Derefs cpu frame
  | .pgtbl => ∀ cap, slot.pgtbl? = some cap → refcntOf cap.refcntFlags = 1 →
      (cap.parent.isSome → root = false → k.Removes table capin .pgtbl) ∧
      (cap.parent = none → root = true → ∀ frame, k.GivesUp cpu ct page slot.post frame →
        (k.Derefs cpu frame → k.Removes table capin .pgtbl) ∧
        (¬k.Derefs cpu frame → cap.refcntFlags = capMemFrozenFlag + 1))
  | _ => True

/-! The checks before a page is given back, and its release. -/

variable {k : Kernel} {addr : CapAddr} {type : CapType}

theorem pageScan_putBody (k : Kernel) (addr : CapAddr) (later : CapBody) (cpu frame : Nat)
    (body : CapBody) : (k.putBody addr later).pageScan cpu frame body =
      k.pageScan cpu frame body := by
  have scanned : ∀ node, captblLeaflvlScan (k.putBody addr later)
      ((k.putBody addr later).slots node) = captblLeaflvlScan k (k.slots node) := by
    intro node
    simp only [captblLeaflvlScan, lineQuiescence, putBody_h]
    rfl
  cases body with
  | captbl cap =>
    simp only [Kernel.pageScan, captblKmemScan, scanned]
    rfl
  | _ => rfl

theorem kmemDeactScan_exact {body : CapTable → CapBody} {cap : CapTable} {scan : KCall Int}
    {ret : Int} (isTable : body = .captbl ∨ body = .pgtbl)
    (held : (k.slots addr.1 addr.2).post = body cap)
    (reads : ∀ later, scan.Ensures (k.putBody addr later) fun outcome k' =>
      outcome = .ok ret ∧ k' = k.putBody addr later) (cpu : Nat) :
    (kmemDeactScan cpu addr body cap scan).Ensures k fun outcome k' =>
      match outcome with
      | .error _ => (k' = k ∨ Thawed k k' addr) ∧ ¬(k.Settled cpu cap ∧ ret = 0)
      | .ok () => k' = k ∧ k.Settled cpu cap ∧ ret = 0 := by
  refine read_bind ?_
  refine leaveIf_bind (fun thawed => ⟨.inl rfl, fun passes => thawed passes.1.1⟩) fun frozen => ?_
  refine leaveIf_bind (fun early => ⟨.inl rfl, fun passes => ?_⟩) fun late => ?_
  · have quiescent := passes.1.2
    split_ifs at early quiescent <;> exact early quiescent
  have settled : k.Settled cpu cap := by
    refine ⟨not_not.mp frozen, ?_⟩
    split_ifs at late ⊢ <;> exact not_not.mp late
  refine update_bind ((reads _).bind ?_)
  rintro _ scanned ⟨rfl, rfl⟩
  refine ensures_ite.mpr ⟨fun found => ?_, fun vacant => ensures_update.mpr ⟨?_, settled, ?_⟩⟩
  · refine update_bind (ensures_leave.mpr ⟨.inr ?_, fun passes => found passes.2⟩)
    refine ⟨body, cap, isTable, held, not_not.mp frozen, ?_⟩
    rw [putBody_putBody]
  · show (k.putBody addr _).putBody addr (body cap) = k
    rw [putBody_putBody, putBody_self k addr _ held]
  · exact not_not.mp vacant

theorem kmemDeactCheck_exact (k : Kernel) (cpu : Nat) (addr : CapAddr) (old : Pte) :
    (kmemDeactCheck cpu addr old).Ensures k fun outcome k' =>
      match outcome with
      | .error _ => (k' = k ∨ Thawed k k' addr) ∧
          ¬((k.slots addr.1 addr.2).post.isAbout old.frame ∧
            k.Vacant cpu old.frame (k.slots addr.1 addr.2).post)
      | .ok () => k' = k ∧ (k.slots addr.1 addr.2).post.isAbout old.frame ∧
          k.Vacant cpu old.frame (k.slots addr.1 addr.2).post := by
  refine read_bind ?_
  dsimp only [id_eq]
  have table : ∀ (body : CapTable → CapBody) (cap : CapTable) (scan : KCall Int),
      body = .captbl ∨ body = .pgtbl → (k.slots addr.1 addr.2).post = body cap →
      (body cap).isAbout old.frame →
      (∀ later, scan.Ensures (k.putBody addr later) fun outcome k' =>
        outcome = .ok (k.pageScan cpu old.frame (body cap)) ∧ k' = k.putBody addr later) →
      (kmemDeactScan cpu addr body cap scan).Ensures k fun outcome k' =>
        match outcome with
        | .error _ => (k' = k ∨ Thawed k k' addr) ∧
            ¬((body cap).isAbout old.frame ∧ k.Vacant cpu old.frame (body cap))
        | .ok () => k' = k ∧ (body cap).isAbout old.frame ∧
            k.Vacant cpu old.frame (body cap) := by
    intro body cap scan isTable held about reads
    have vacant : k.Vacant cpu old.frame (body cap) ↔
        k.Settled cpu cap ∧ k.pageScan cpu old.frame (body cap) = 0 := by
      rcases isTable with rfl | rfl <;> simp [Kernel.Vacant]
    refine (kmemDeactScan_exact isTable held reads cpu).mono ?_
    rintro (code | ⟨⟩) k' scanned
    · exact ⟨scanned.1, fun passes => scanned.2 (vacant.mp passes.2)⟩
    · exact ⟨scanned.1, about, vacant.mpr scanned.2⟩
  split
  · rename_i cap held
    rw [held]
    refine leaveIf_bind (fun other => ⟨.inl rfl, fun passes => other passes.1⟩) fun about => ?_
    refine table .captbl cap _ (.inl rfl) held (not_not.mp about) fun later => ?_
    rw [← pageScan_putBody k addr later]
    refine read_bind (ensures_ite.mpr ⟨fun top => ?_, fun below => require_bind fun _ => ?_⟩)
    · exact ensures_pure.mpr ⟨by simp [Kernel.pageScan, top], rfl⟩
    · exact ensures_pure.mpr ⟨by simp [Kernel.pageScan, below], rfl⟩
  · rename_i cap held
    rw [held]
    refine leaveIf_bind (fun other => ⟨.inl rfl, fun passes => other passes.1⟩) fun about => ?_
    exact table .pgtbl cap _ (.inr rfl) held (not_not.mp about)
      fun later => ensures_read.mpr ⟨rfl, rfl⟩
  · rename_i tc held
    rw [held]
    refine ensures_leaveIf.mpr ⟨fun other => ⟨.inl rfl, fun passes => other passes.1⟩, ?_⟩
    exact fun about => ⟨rfl, not_not.mp about, by simp, rfl⟩
  · exact ensures_fault

theorem SameKernel.thawed {k₁ k₂ : Kernel} (same : SameKernel k k₁) (thawed : Thawed k₁ k₂ addr) :
    Thawed k k₂ addr := by
  obtain ⟨body, cap, isTable, held, frozen, after⟩ := thawed
  rw [same] at held after
  exact ⟨body, cap, isTable, held, frozen, after⟩

theorem kmemDeactPre_bind {cpu ct : Nat} {page : Nat × Nat} {rest : ErtIntern × Pte → KCall Unit}
    {post : Except Int Unit → Kernel → Prop}
    (refused : ∀ code k', SameKernel k k' ∨ Thawed k k' addr →
      (∀ frame, ¬k.GivesUp cpu ct page (k.slots addr.1 addr.2).post frame) → post (.error code) k')
    (passed : ∀ place walks, (∀ frame, k.GivesUp cpu ct page (k.slots addr.1 addr.2).post frame ↔
        frame = (k.wordAt place).frame) →
      (rest (.word place.1 place.2, k.wordAt place)).Ensures { k with walks } post) :
    Ensures (kmemDeactPre cpu addr ct page.1 page.2 >>= rest) k post := by
  refine ensures_bind.mpr ?_
  refine leaveIf_bind (fun missing => refused _ _ (.inl rfl) fun frame gives => ?_) fun present =>
    ?_
  · exact missing.elim gives.1 gives.2.1
  obtain ⟨table, address⟩ := not_or.mp present
  refine lkup_bind ?_
  refine orLeave_bind (fun other => refused _ _ (.inl rfl) fun frame gives => ?_) fun capPt named =>
    ?_
  · obtain ⟨-, -, capPt, place, named, -⟩ := gives
    cases named.symm.trans other
  refine ensures_bind.mpr (pgtblLkupPte_ensures (fun _ => ?_) ?_)
  · exact ensures_bind.mpr ensures_fault
  intro _ place k₁ _ leads same
  obtain ⟨walks, rfl⟩ : ∃ walks, k₁ = { k with walks } := ⟨_, same⟩
  refine ensures_bind.mpr (ensures_orFault.mpr ?_)
  rintro _ ⟨⟩
  refine word_bind ?_
  have gives : ∀ frame, k.GivesUp cpu ct page (k.slots addr.1 addr.2).post frame ↔
      (k.wordAt place).flags.coskmem ∧ (k.wordAt place).frame = frame ∧
        (k.slots addr.1 addr.2).post.isAbout frame ∧
        k.Vacant cpu frame (k.slots addr.1 addr.2).post := by
    intro frame
    have named : k.pgtblNamed ct page.1 = some capPt := named
    simp [-Prod.exists, Kernel.GivesUp, table, address, named, leads]
  refine leaveIf_bind (fun other => refused _ _ (.inl same) fun frame passes => ?_) fun marked => ?_
  · exact other ((gives frame).mp passes).1
  refine require_bind fun _ => ?_
  refine (kmemDeactCheck_exact _ cpu addr _).bind ?_
  rintro (code | ⟨⟩) k₂ checked
  · refine refused _ _ (checked.1.imp (fun unchanged => by rwa [unchanged]) same.thawed)
      fun frame passes => ?_
    obtain ⟨-, rfl, rest⟩ := (gives frame).mp passes
    exact checked.2 rest
  · obtain ⟨rfl, rest⟩ := checked
    refine ensures_pure.mpr (passed place walks fun frame => (gives frame).trans ⟨?_, ?_⟩)
    · exact fun passes => passes.2.1.symm
    · rintro rfl
      exact ⟨not_not.mp marked, rfl, rest⟩

theorem retypetblDeref_exact (k : Kernel) (cpu page : Nat) :
    (retypetblDeref cpu page).Ensures k fun outcome k' =>
      match outcome with
      | .error code => code ≠ 0 ∧ ¬k.Derefs cpu page ∧ k' = k
      | .ok () => k.Derefs cpu page ∧ MemoryOnly k k' := by
  refine ensures_ite.mpr
    ⟨fun fixed => ensures_pure.mpr ⟨.inl fixed, refl_of _ k⟩, fun covered => ?_⟩
  have derefs : k.Derefs cpu page ↔ paBoundary k.chalKernelMemPa page ∧
      ((k.memory.entries cpu page).refcntAtom.type = .user ∨
        (k.memory.entries cpu page).refcntAtom.type = .kern) ∧
      (k.memory.entries cpu page).refcntAtom.refCnt ≠ retypeRefcntMax :=
    or_iff_right covered
  rw [derefs]
  refine read_bind ?_
  refine leaveIf_bind (fun outside => ⟨by decide, fun passes => outside passes.1, rfl⟩)
    fun inside => ?_
  refine leaveIf_bind (fun untyped => ⟨by decide, fun passes => ?_, rfl⟩) fun typed => ?_
  · exact not_or.mpr untyped passes.2.1
  refine leaveIf_bind nofun fun _ => ?_
  refine leaveIf_bind (fun full => ⟨by decide, fun passes => passes.2.2 full, rfl⟩) fun room => ?_
  refine ensures_update.mpr ⟨⟨not_not.mp inside, ?_, room⟩, rfl, rfl⟩
  exact Decidable.or_iff_not_not_and_not.mpr typed

theorem setWord_setWord_self (m : Memory) (page index : Nat) (between : Pte) :
    (m.setWord page index between).setWord page index (m.words page index) = m := by
  simp [Memory.setWord]

theorem kmemDeactPost_exact {place : Nat × Nat} {old : Pte} (stands : k.wordAt place = old)
    (cpu : Nat) :
    (kmemDeactPost cpu (.word place.1 place.2) old).Ensures k fun outcome k' =>
      match outcome with
      | .error code => code ≠ 0 ∧ ¬k.Derefs cpu old.frame ∧ k' = k
      | .ok () => k.Derefs cpu old.frame ∧ ∃ m w, k' = { k with memory := m, walks := w } := by
  refine update_bind (ensures_bind.mpr (ensures_code.mpr ((retypetblDeref_exact _ _ _).mono ?_)))
  rintro (code | ⟨⟩) k₁ counted
  · obtain ⟨nonzero, refused, rfl⟩ := counted
    refine ensures_ite.mpr ⟨fun _ => update_bind (ensures_leave.mpr ⟨nonzero, refused, ?_⟩), ?_⟩
    · subst stands
      exact congrArg (fun m => { k with memory := m }) (setWord_setWord_self _ _ _ _)
    · exact fun zero => absurd nonzero zero
  · refine ensures_ite.mpr ⟨fun failed => absurd rfl failed, fun _ => ensures_update.mpr ?_⟩
    obtain ⟨m, w, -, rfl⟩ := counted.2.exists_eq
    exact ⟨counted.1, _, w, rfl⟩

theorem modRefcntFlags_bind {body : CapTable → CapBody} {cap : CapTable} {change : Nat → Nat}
    {rest : Unit → KCall Unit} {post : Except Int Unit → Kernel → Prop}
    (isTable : body = .captbl ∨ body = .pgtbl) (held : (k.slots addr.1 addr.2).post = body cap)
    (continues : (rest ()).Ensures
      (k.putBody addr (body { cap with refcntFlags := change cap.refcntFlags })) post) :
    Ensures (modRefcntFlags addr change >>= rest) k post := by
  refine ensures_bind.mpr (ensures_bind.mpr (ensures_bind.mpr (ensures_read.mpr ?_)))
  dsimp only
  rw [held]
  rcases isTable with rfl | rfl <;>
    exact ensures_pure.mpr (ensures_update.mpr continues)

theorem modRefcntFlags_ensures (k : Kernel) (addr : CapAddr) (change : Nat → Nat) :
    (modRefcntFlags addr change).Ensures k fun outcome k' =>
      outcome = .ok () ∧ ∃ body, k' = k.putBody addr body := by
  refine ensures_bind.mpr (read_bind ?_)
  dsimp only
  split
  · exact ensures_pure.mpr (ensures_update.mpr ⟨rfl, _, rfl⟩)
  · exact ensures_pure.mpr (ensures_update.mpr ⟨rfl, _, rfl⟩)
  · exact ensures_fault

theorem modRefcntFlags_some {change : Nat → Nat} {rest : Unit → KCall Unit}
    {post : Except Int Unit → Kernel → Prop}
    (continues : ∀ body, (rest ()).Ensures (k.putBody addr body) post) :
    Ensures (modRefcntFlags addr change >>= rest) k post := by
  refine (modRefcntFlags_ensures k addr change).bind ?_
  rintro _ k' ⟨rfl, body, rfl⟩
  exact continues body

/-! What a call that has been left alone shares with the state before. -/

def Undisturbed (k k' : Kernel) : Prop := SameKernel k k' ∨ ∃ addr, Thawed k k' addr

theorem LeftAlone.undisturbed {table capin : Nat} {code : Int} {k' : Kernel}
    (left : LeftAlone k table capin (.error code) k') (failed : code ≠ 0) : Undisturbed k k' :=
  (left failed).imp_right fun ⟨addr, _, _, thawed⟩ => ⟨addr, thawed⟩

namespace Undisturbed

variable {k' : Kernel} (left : Undisturbed k k')

include left

theorem kept : k'.threads = k.threads ∧ k'.ltbl = k.ltbl ∧
    ∀ node i, (k'.slots node i).h = (k.slots node i).h := by
  rcases left with same | ⟨addr, body, cap, -, -, -, thawed⟩
  · rw [same]
    exact ⟨rfl, rfl, fun _ _ => rfl⟩
  · rw [thawed]
    exact ⟨rfl, rfl, putBody_h k addr _⟩

theorem flags {cap : CapTable} (held : (k.slots addr.1 addr.2).post = .pgtbl cap) :
    ∃ flags, (flags = cap.refcntFlags ∨ flags = refcntOf cap.refcntFlags) ∧
      (k'.slots addr.1 addr.2).post = .pgtbl { cap with refcntFlags := flags } := by
  rcases left with same | ⟨other, body, cap', isTable, held', -, thawed⟩
  · refine ⟨_, .inl rfl, ?_⟩
    rw [same]
    exact held
  rw [thawed]
  by_cases here : addr = other
  · subst here
    rw [held] at held'
    rcases isTable with rfl | rfl <;> cases held'
    exact ⟨_, .inr rfl, (putBody_post ..).trans (if_pos rfl)⟩
  · exact ⟨_, .inl rfl, ((putBody_post ..).trans (if_neg here)).trans held⟩

end Undisturbed

theorem clear_removes {k₁ : Kernel} {table capin lid : Nat}
    {post : Except Int Unit → Kernel → Prop}
    (refused : ∀ code, code ≠ 0 → ¬k₁.Removes table capin type → post (.error code) k₁)
    (taken : ∀ place, captblRemovable (k₁.roots table) k₁.slots capin type = .ok place →
      k₁.Removes table capin type → post (.ok ())
        { k₁ with slots := captblRemoveCommit k₁.slots place.1 place.2 lid .free }) :
    (clear table capin type lid).Ensures k₁ post := by
  refine clear_ensures (fun code removable => ?_) fun place removable => taken place removable ?_
  · refine refused code (captblRemovable_error removable) ?_
    rw [Kernel.Removes, removable]
    nofun
  · rw [Kernel.Removes, removable]
    rfl

theorem forall_found {table capin : Nat} {slot : Slot CapBody} {holds : Slot CapBody → Prop}
    (found : k.found table capin = some (addr, slot)) :
    (∀ addr slot, k.found table capin = some (addr, slot) → holds slot) ↔ holds slot := by
  simp [-Prod.forall, found]

theorem removes_putBody (k : Kernel) (addr : CapAddr) (body : CapBody) (table capin : Nat)
    (type : CapType) :
    (k.putBody addr body).Removes table capin type ↔ k.Removes table capin type := by
  rw [Kernel.Removes, captblRemovable_putBody]
  rfl

/-! The five calls. -/

section Calls

variable {cpu t capin lid : Nat} {page : Nat × Nat} {destCt : CapTable} {root : Bool}

theorem thdDeactivate_exact :
    (thdDeactivate cpu t destCt capin lid page.1 page.2 root).Ensures k fun outcome k' =>
      LeftAlone k destCt.table capin outcome k' ↔
        ∀ addr slot, k.found destCt.table capin = some (addr, slot) →
          k.InOrder cpu t page root destCt.table capin slot .thd := by
  refine lkup_bind (cast_bind (fun other => ?_) fun addr slot tc found isThd => ?_)
  · refine iff_of_true (fun _ => .inl rfl) fun addr slot found tc isThd => ?_
    cases (other addr slot found).symm.trans isThd
  simp only [forall_found found, Kernel.InOrder, isThd, Option.some.injEq, forall_eq']
  refine read_bind ?_
  refine require_bind fun _ => ?_
  refine ensures_ite.mpr ⟨fun last => ?_, fun others => ?_⟩
  · refine leaveIf_bind (fun copy => ?_) fun isRoot => ?_
    · exact iff_of_true (fun _ => .inl rfl) fun isRoot => absurd isRoot copy
    refine leaveIf_bind (fun bound => ?_) fun unbound => ?_
    · refine iff_of_true (fun _ => .inl rfl) fun _ _ unbound => ?_
      cases unbound.symm.trans bound
    obtain rfl := found_names found
    refine kmemDeactPre_bind (fun code k₁ left none => ?_) fun place walks gives => ?_
    · refine iff_of_true (fun _ => ?_) fun _ _ _ _ frame gives => absurd gives (none frame)
      exact left.imp_right fun thawed => ⟨addr, _, found, thawed⟩
    refine ensures_bind.mpr (clear_removes (fun code _ kept => ?_) fun taken _ removes => ?_)
    · exact iff_of_true (fun _ => .inl rfl) fun _ _ _ removes => absurd removes kept
    refine update_bind (update_bind ((kmemDeactPost_exact ?_ cpu).mono ?_))
    · rfl
    rintro (code | ⟨⟩) k₃ released
    · obtain ⟨failed, refused, rfl⟩ := released
      refine iff_of_false (fun left => ?_) fun inOrder => ?_
      · have refcnt : (k.threads tc.t).refcnt - 1 = (k.threads tc.t).refcnt := by
          simpa [Threads.modify] using congrArg Thread.refcnt
            (congrFun (left.undisturbed failed).kept.1 tc.t)
        rw [show (k.threads tc.t).refcnt = 1 from last] at refcnt
        cases refcnt
      · exact refused (inOrder (not_not.mp isRoot) last (Bool.eq_false_iff.mpr unbound) removes _
          ((gives _).mpr rfl))
    · refine iff_of_true trivial fun _ _ _ _ frame passes => ?_
      rw [(gives frame).mp passes]
      exact released.1
  · refine leaveIf_bind (fun isRoot => ?_) fun _ => ?_
    · exact iff_of_true (fun _ => .inl rfl) fun _ last => absurd last others
    refine ensures_bind.mpr
      (clear_removes (fun code _ _ => ?_) fun taken _ _ => ensures_update.mpr ?_)
    · exact iff_of_true (fun _ => .inl rfl) fun _ last => absurd last others
    · exact iff_of_true trivial fun _ last => absurd last others

theorem captblDeactivate_exact :
    (captblDeactivate cpu t destCt capin lid page.1 page.2 root).Ensures k fun outcome k' =>
      LeftAlone k destCt.table capin outcome k' ↔
        ∀ addr slot, k.found destCt.table capin = some (addr, slot) →
          k.InOrder cpu t page root destCt.table capin slot .captbl := by
  refine lkup_bind (cast_bind (fun other => ?_) fun addr slot cap found isCaptbl => ?_)
  · refine iff_of_true (fun _ => .inl rfl) fun addr slot found cap isCaptbl => ?_
    cases (other addr slot found).symm.trans isCaptbl
  simp only [forall_found found, Kernel.InOrder, isCaptbl, Option.some.injEq, forall_eq']
  refine leaveIf_bind (fun none => ?_) fun _ => ?_
  · refine iff_of_true (fun _ => .inl rfl) fun _ last => ?_
    cases none.symm.trans last
  refine leaveIf_bind (fun shared => ?_) fun last => ?_
  · exact iff_of_true (fun _ => .inl rfl) fun _ last => absurd last shared
  obtain rfl := found_names found
  have held := (captbl?_eq_some.mp isCaptbl).2
  cases origin : cap.parent with
  | none =>
    refine leaveIf_bind (fun copy => ?_) fun isRoot => ?_
    · exact iff_of_true (fun _ => .inl rfl) fun isRoot => absurd isRoot copy
    refine kmemDeactPre_bind (fun code k₁ left none => ?_) fun place walks gives => ?_
    · refine iff_of_true (fun _ => ?_) fun _ _ _ _ frame gives => absurd gives (none frame)
      exact left.imp_right fun thawed => ⟨addr, _, found, thawed⟩
    refine ensures_bind.mpr
      (clear_removes (fun code _ kept => ?_) fun taken removable removes => ?_)
    · exact iff_of_true (fun _ => .inl rfl) fun _ _ _ removes => absurd removes kept
    refine modRefcntFlags_some fun body => ?_
    refine ensures_bind.mpr (ensures_code.mpr ((kmemDeactPost_exact ?_ cpu).mono ?_))
    · rfl
    rintro (code | ⟨⟩) k₃ released
    · obtain ⟨failed, refused, rfl⟩ := released
      refine ensures_ite.mpr ⟨fun _ => ?_, fun zero => absurd failed zero⟩
      refine modRefcntFlags_some fun body' => ensures_leave.mpr ?_
      refine iff_of_false (fun left => ?_) fun inOrder => ?_
      · have header := (left.undisturbed failed).kept.2.2 taken.1 (lineOf taken.2)
        rw [putBody_h, putBody_h] at header
        have allocated : active (k.slots taken.1) taken.2 = true :=
          (captblRemovable_ok removable).2.2.2.2
        rw [active, ← header] at allocated
        have cleared : active (captblRemoveCommit k.slots taken.1 taken.2 lid .free taken.1)
            taken.2 = false := by
          rw [active_removed]
          simp
        cases allocated.symm.trans cleared
      · exact refused (inOrder (not_not.mp isRoot) (not_not.mp last) rfl removes _
          ((gives _).mpr rfl))
    · refine ensures_ite.mpr ⟨fun failed => absurd rfl failed, fun _ => ensures_pure.mpr ?_⟩
      refine iff_of_true trivial fun _ _ _ _ frame passes => ?_
      rw [(gives frame).mp passes]
      exact released.1
  | some parent =>
    have copied : root = true → refcntOf cap.refcntFlags = 1 → some parent = none →
        k.Removes destCt.table capin .captbl →
        ∀ frame, k.GivesUp cpu t page (k.slots addr.1 addr.2).post frame → k.Derefs cpu frame :=
      fun _ _ orphan => by cases orphan
    refine leaveIf_bind (fun _ => ?_) fun _ => require_bind fun _ => ?_
    · exact iff_of_true (fun _ => .inl rfl) copied
    refine ensures_bind.mpr
      (clear_removes (fun code _ _ => ?_) fun taken _ _ => modRefcntFlags_some fun body => ?_)
    · exact iff_of_true (fun _ => .inl rfl) copied
    refine (modRefcntFlags_ensures _ _ _).mono ?_
    rintro _ k₂ ⟨rfl, -⟩
    exact iff_of_true trivial copied

theorem epochSucc_ne (epoch : Nat) : epochSucc epoch ≠ epoch := by
  unfold epochSucc
  omega

theorem compDeactivate_exact :
    (compDeactivate destCt capin lid).Ensures k fun outcome k' =>
      LeftAlone k destCt.table capin outcome k' ↔
        ∀ addr slot, k.found destCt.table capin = some (addr, slot) →
          k.InOrder cpu t page root destCt.table capin slot .comp := by
  refine lkup_bind (ensures_bind.mpr (ensures_orFault.mpr ?_))
  rintro ⟨addr, slot⟩ found
  simp only [forall_found found, Kernel.InOrder]
  refine orLeave_bind (fun other => ?_) fun compc isComp => ?_
  · refine iff_of_true (fun _ => .inl rfl) fun compc isComp => ?_
    cases other.symm.trans isComp
  refine update_bind (ensures_bind.mpr
    (clear_removes (fun code failed kept => ?_) fun taken _ removes => ?_))
  · refine iff_of_false (fun left => ?_) fun inOrder => kept (inOrder compc isComp)
    have epoch := congrArg (·.epoch)
      (congrFun (left.undisturbed failed).kept.2.1 compc.info.liveness.id)
    simp only [ltblExpire, Function.update_self] at epoch
    exact epochSucc_ne _ epoch
  · refine modRefcntFlags_some fun body => (modRefcntFlags_ensures _ _ _).mono ?_
    rintro _ k₂ ⟨rfl, -⟩
    exact iff_of_true trivial fun _ _ => removes

theorem arcvDeactivate_exact :
    (arcvDeactivate cpu destCt capin lid).Ensures k fun outcome k' =>
      LeftAlone k destCt.table capin outcome k' ↔
        ∀ addr slot, k.found destCt.table capin = some (addr, slot) →
          k.InOrder cpu t page root destCt.table capin slot .arcv := by
  refine lkup_bind ?_
  refine orLeave_bind (fun other => ?_) fun arcvc cast => ?_
  · refine iff_of_true (fun _ => .inl rfl) fun addr slot found arcvc isArcv => ?_
    rw [found] at other
    cases other.symm.trans isArcv
  obtain ⟨⟨addr, slot⟩, found, isArcv⟩ := Option.bind_eq_some_iff.mp cast
  simp only [forall_found found, Kernel.InOrder, isArcv, Option.some.injEq, forall_eq']
  refine leaveIf_bind (fun elsewhere => ?_) fun here => ?_
  · exact iff_of_true (fun _ => .inl rfl) fun here => absurd here elsewhere
  refine read_bind ?_
  refine leaveIf_bind (fun busy => ?_) fun idle => ?_
  · exact iff_of_true (fun _ => .inl rfl) fun _ idle => absurd busy idle
  refine ensures_bind.mpr (ensures_code.mpr ((arcvTeardown_ensures k _).mono ?_))
  rintro (code | ⟨⟩) k₁ ended
  · obtain ⟨rfl, failed, tcap, bound, refused⟩ := ended
    refine leaveIf_bind (fun _ => iff_of_true (fun _ => .inl rfl) fun _ _ tearsDown => ?_) ?_
    · exact absurd refused (tearsDown tcap bound)
    · exact fun zero => absurd failed zero
  · refine leaveIf_bind (fun failed => absurd rfl failed) fun _ => ?_
    obtain ⟨tcap, bound, allowed, rfl⟩ := ended
    refine clear_removes (fun code failed kept => ?_) fun _ _ removes => ?_
    · refine iff_of_false (fun left => ?_) fun inOrder => kept (inOrder ?_ idle ?_)
      · have released := congrArg (·.rcvcap.rcvcapTcap)
          (congrFun (left.undisturbed failed).kept.1 arcvc.thd)
        simp [Threads.release_rcvcap, bound] at released
      · exact not_not.mp here
      · intro other bound'
        cases bound'.symm.trans bound
        exact allowed
    · exact iff_of_true trivial fun _ _ _ => removes

theorem pgtblDeactivate_exact :
    (pgtblDeactivate cpu t destCt capin lid page.1 page.2 root).Ensures k fun outcome k' =>
      LeftAlone k destCt.table capin outcome k' ↔
        ∀ addr slot, k.found destCt.table capin = some (addr, slot) →
          k.InOrder cpu t page root destCt.table capin slot .pgtbl := by
  refine lkup_bind (cast_bind (fun other => ?_) fun addr slot cap found isPgtbl => ?_)
  · refine iff_of_true (fun _ => .inl rfl) fun addr slot found cap isPgtbl => ?_
    cases (other addr slot found).symm.trans isPgtbl
  simp only [forall_found found, Kernel.InOrder, isPgtbl, Option.some.injEq, forall_eq']
  refine require_bind fun _ => ?_
  refine leaveIf_bind (fun shared => ?_) fun shared => ?_
  · exact iff_of_true (fun _ => .inl rfl) fun last => absurd last shared
  have last : refcntOf cap.refcntFlags = 1 := not_not.mp shared
  obtain rfl := found_names found
  have held := (pgtbl?_eq_some.mp isPgtbl).2
  -- The count is one before and for the two ways in which a call may be left alone.
  have uncounted : ∀ {code k' flags}, code ≠ 0 →
      (k'.slots addr.1 addr.2).post = .pgtbl { cap with refcntFlags := flags } →
      flags ≠ cap.refcntFlags → flags ≠ 1 →
      ¬LeftAlone k destCt.table capin (.error code) k' := by
    intro code k' flags failed after changed notOne left
    obtain ⟨flags', kept, after'⟩ := (left.undisturbed failed).flags held
    rw [after] at after'
    cases after'
    exact kept.elim changed fun one => notOne (one.trans last)
  have counted : ∀ {flags}, refcntOf flags ≠ 1 → flags ≠ cap.refcntFlags ∧ flags ≠ 1 := by
    rintro flags other
    exact ⟨fun same => other (same ▸ last), fun one => other (by rw [one]; rfl)⟩
  cases origin : cap.parent with
  | none =>
    have copied : (none : Option CapAddr).isSome → root = false →
        k.Removes destCt.table capin .pgtbl := fun some => by cases some
    refine leaveIf_bind (fun copy => ?_) fun isRoot => ?_
    · exact iff_of_true (fun _ => .inl rfl) fun _ => ⟨copied, fun _ isRoot => absurd isRoot copy⟩
    refine kmemDeactPre_bind (fun code k₁ left none => ?_) fun place walks gives => ?_
    · refine iff_of_true (fun _ => ?_) fun _ => ⟨copied, ?_⟩
      · exact left.imp_right fun thawed => ⟨addr, _, found, thawed⟩
      · exact fun _ _ frame gives => absurd gives (none frame)
    refine modRefcntFlags_bind (.inr rfl) held ?_
    refine ensures_bind.mpr (ensures_code.mpr ((kmemDeactPost_exact ?_ cpu).mono ?_))
    · rfl
    rintro (code | ⟨⟩) k₃ released
    · obtain ⟨failed, refused, rfl⟩ := released
      refine ensures_ite.mpr ⟨fun _ => ?_, fun zero => absurd failed zero⟩
      refine modRefcntFlags_bind (.inr rfl) ((putBody_post ..).trans (if_pos rfl)) ?_
      refine ensures_leave.mpr ?_
      rw [putBody_putBody]
      by_cases flags : cap.refcntFlags = capMemFrozenFlag + 1
      · refine iff_of_true (fun _ => .inl ?_) fun _ => ⟨copied, fun _ _ frame passes => ?_⟩
        · have restored : { cap with refcntFlags := refcntInc capMemFrozenFlag } = cap := by
            rw [show refcntInc capMemFrozenFlag = cap.refcntFlags from flags.symm]
          rw [restored]
          rw [putBody_self { k with walks } addr _ held]
          rfl
        · rw [(gives frame).mp passes]
          exact ⟨fun derefs => absurd derefs refused, fun _ => flags⟩
      · refine iff_of_false (uncounted failed ((putBody_post ..).trans (if_pos rfl))
          (Ne.symm flags) (show capMemFrozenFlag + 1 ≠ 1 by decide)) fun inOrder => flags ?_
        exact ((inOrder last).2 rfl (not_not.mp isRoot) _ ((gives _).mpr rfl)).2 refused
    · refine ensures_ite.mpr ⟨fun failed => absurd rfl failed, fun _ => ?_⟩
      obtain ⟨derefs, m, w, rfl⟩ := released
      obtain ⟨changed, notOne⟩ := @counted capMemFrozenFlag (by decide)
      refine clear_removes (fun code failed kept => ?_) fun _ _ removes => ?_
      · refine iff_of_false (uncounted failed ((putBody_post ..).trans (if_pos rfl)) changed
          notOne) fun inOrder => kept ?_
        refine (removes_putBody k addr (.pgtbl { cap with refcntFlags := capMemFrozenFlag }) ..).mpr
          ?_
        exact ((inOrder last).2 rfl (not_not.mp isRoot) _ ((gives _).mpr rfl)).1 derefs
      · refine iff_of_true trivial fun _ => ⟨copied, fun _ _ frame passes => ⟨fun _ => ?_, ?_⟩⟩
        · exact (removes_putBody k addr
            (.pgtbl { cap with refcntFlags := capMemFrozenFlag }) ..).mp removes
        · rw [(gives frame).mp passes]
          exact fun refused => absurd derefs refused
  | some parent =>
    refine leaveIf_bind (fun isRoot => ?_) fun copy => require_bind fun _ => ?_
    · refine iff_of_true (fun _ => .inl rfl) fun _ => ⟨fun _ copy => ?_, fun orphan => ?_⟩
      · cases copy.symm.trans isRoot
      · cases orphan
    have condition : (refcntOf cap.refcntFlags = 1 →
        ((some parent).isSome → root = false → k.Removes destCt.table capin .pgtbl) ∧
        (some parent = none → root = true → ∀ frame,
          k.GivesUp cpu t page (k.slots addr.1 addr.2).post frame →
            (k.Derefs cpu frame → k.Removes destCt.table capin .pgtbl) ∧
            (¬k.Derefs cpu frame → cap.refcntFlags = capMemFrozenFlag + 1))) ↔
        k.Removes destCt.table capin .pgtbl := by
      simp [last, copy]
    simp only [condition]
    have clears : ∀ {k₂ flags}, (k₂.slots addr.1 addr.2).post =
        .pgtbl { cap with refcntFlags := flags } → refcntOf flags ≠ 1 →
        (k₂.Removes destCt.table capin .pgtbl ↔ k.Removes destCt.table capin .pgtbl) →
        (clear destCt.table capin .pgtbl lid).Ensures k₂ fun outcome k' =>
          LeftAlone k destCt.table capin outcome k' ↔ k.Removes destCt.table capin .pgtbl := by
      intro k₂ flags held₂ other removes
      obtain ⟨changed, notOne⟩ := counted other
      refine clear_removes (fun code failed kept => ?_) fun _ _ taken => ?_
      · exact iff_of_false (uncounted failed held₂ changed notOne) fun taken =>
          kept (removes.mpr taken)
      · exact iff_of_true trivial (removes.mp taken)
    refine modRefcntFlags_bind (.inr rfl) held ?_
    by_cases same : parent = addr
    · subst same
      refine modRefcntFlags_bind (.inr rfl) ((putBody_post ..).trans (if_pos rfl)) ?_
      refine clears ((putBody_post ..).trans (if_pos rfl))
        (show refcntOf (refcntDec capMemFrozenFlag) ≠ 1 by decide) ?_
      rw [putBody_putBody]
      exact removes_putBody ..
    · refine modRefcntFlags_some fun body => ?_
      refine @clears _ capMemFrozenFlag ?_ (by decide) ?_
      · rw [putBody_post, if_neg (Ne.symm same)]
        exact (putBody_post ..).trans (if_pos rfl)
      · exact (removes_putBody ..).trans (removes_putBody ..)

end Calls

def Kernel.calledTable (k : Kernel) (call : TableCall) : Option Nat := do
  let (_, ch) ← k.found call.ct call.cap
  let opCap ← ch.captbl?
  some opCap.table

def Kernel.DeactivatesInOrder (k : Kernel) (call : TableCall) (type : CapType) : Prop :=
  ∀ table ∈ k.calledTable call, ∀ addr slot, k.found table call.args.a1 = some (addr, slot) →
    k.InOrder call.cpu call.ct call.args.released call.args.op.releasesPage table call.args.a1
      slot type

def returnedCode : Except Int Int → Int
  | .ok code => code
  | .error code => code

theorem captblOp_exact {call : TableCall} (deactivates : call.args.op.deactivates = some type)
    (opCap : CapTable) (thd : Nat) :
    ∃ callee : KCall Unit, (callee.Ensures k fun outcome k' =>
        LeftAlone k opCap.table call.args.a1 outcome k' ↔
          ∀ addr slot, k.found opCap.table call.args.a1 = some (addr, slot) →
            k.InOrder call.cpu call.ct call.args.released call.args.op.releasesPage opCap.table
              call.args.a1 slot type) ∧
      captblOp call.cpu call.ct call.cap thd opCap call.args call.stale = code callee := by
  obtain ⟨cpu, ct, cap, ⟨op, a1, a2, a3, a4⟩, stale⟩ := call
  cases op <;> cases deactivates
  case thdDeactivate => exact ⟨_, thdDeactivate_exact, rfl⟩
  case thdDeactivateRoot => exact ⟨_, thdDeactivate_exact, rfl⟩
  case compDeactivate => exact ⟨_, compDeactivate_exact, rfl⟩
  case arcvDeactivate => exact ⟨_, arcvDeactivate_exact, rfl⟩
  case captblDeactivate => exact ⟨_, captblDeactivate_exact, rfl⟩
  case captblDeactivateRoot => exact ⟨_, captblDeactivate_exact, rfl⟩
  case pgtblDeactivate => exact ⟨_, pgtblDeactivate_exact, rfl⟩
  case pgtblDeactivateRoot => exact ⟨_, pgtblDeactivate_exact, rfl⟩

theorem pgtblOp_deactivates {args : SyscallArgs} (deactivates : args.op.deactivates = some type)
    (cpu ct cap : Nat) (pt : CapTable) : pgtblOp cpu ct cap pt args = leave (-Errno.enoent) := by
  obtain ⟨op, a1, a2, a3, a4⟩ := args
  cases op <;> cases deactivates <;> rfl

/-- A deactivation that returns a code other than zero leaves the kernel as it was, but for
the frozen mark of a table that cannot be given back yet, exactly if no step that is refused
comes after one that has changed something. -/
theorem deactivation_unchanged (k k' : Kernel) (call : TableCall) (type : CapType)
    (outcome : Except Int Int) (deactivates : call.args.op.deactivates = some type)
    (ran : tableCall call k = .ok (outcome, k')) :
    (returnedCode outcome ≠ 0 → SameKernel k k' ∨ ∃ table ∈ k.calledTable call, ∃ addr slot,
      k.found table call.args.a1 = some (addr, slot) ∧ Thawed k k' addr) ↔
      k.DeactivatesInOrder call type := by
  suffices holds : (tableCall call).Ensures k fun outcome k' => (returnedCode outcome ≠ 0 →
      SameKernel k k' ∨ ∃ table ∈ k.calledTable call, ∃ addr slot,
        k.found table call.args.a1 = some (addr, slot) ∧ Thawed k k' addr) ↔
      k.DeactivatesInOrder call type from
    holds outcome k' ran
  refine lkup_bind ?_
  refine orLeave_bind (fun absent => ?_) ?_
  · refine iff_of_true (fun failed => absurd rfl failed) ?_
    simp [Kernel.DeactivatesInOrder, Kernel.calledTable, absent]
  rintro ⟨place, ch⟩ found
  refine read_bind ?_
  cases cast : ch.captbl? with
  | some opCap =>
    have called : k.calledTable call = some opCap.table := by
      simp [Kernel.calledTable, found, cast]
    obtain ⟨callee, exact_, dispatched⟩ := captblOp_exact deactivates opCap _
    dsimp only
    rw [dispatched]
    refine ensures_code.mpr (exact_.mono ?_)
    rintro (code | ⟨⟩) k' left
    all_goals
      simp only [Kernel.DeactivatesInOrder, called, Option.mem_def, Option.some.injEq, forall_eq',
        ← left]
      simp [LeftAlone, returnedCode, returned]
  | none =>
    have uncalled : k.DeactivatesInOrder call type := by
      simp [Kernel.DeactivatesInOrder, Kernel.calledTable, found, cast]
    cases ch.pgtbl? with
    | some pt =>
      dsimp only
      rw [pgtblOp_deactivates deactivates]
      exact ensures_leave.mpr (iff_of_true (fun _ => .inl rfl) uncalled)
    | none => exact ensures_leave.mpr (iff_of_true (fun _ => .inl rfl) uncalled)

/-! A component with a capability table that is frozen and still in use, a page table and a
copy of it, a second end-point, and a thread whose frame has lost its type, as it may after
the count of its set has wrapped around. -/

def crowdedWords (page i : Nat) : Pte :=
  if page = 20 ∧ i = 0 then ⟨21, .internDef⟩
  else if page = 21 ∧ i = 1 then (Pte.ofFrame 2).setCoskmem true
  else if page = 21 ∧ i = 2 then (Pte.ofFrame 30).setCoskmem true
  else .zero

def crowdedCaps : Nat → Option (CapType × CapBody)
  | 36 => some (.pgtbl, .pgtbl ⟨2, 20, 0, none, 0⟩)
  | 40 => some (.captbl, .captbl ⟨1 + capMemFrozenFlag, 30, 1, none, 0⟩)
  | 44 => some (.pgtbl, .pgtbl ⟨1, 20, 0, some ((10, true), 36), 0⟩)
  | 48 => some (.arcv, .arcv ⟨rootComp, 0, 0, 3, 1⟩)
  | _ => none

def crowdedSlots (node : Node) (i : Nat) : Slot CapBody :=
  if node = (30, false) ∧ i = 0 then ⟨⟨0, 1, captblCap2sz .sret, 0, .sret⟩, .none⟩
  else
    match crowdedCaps i with
    | some (type, body) =>
      if node = (10, true) then ⟨⟨0, 1, captblCap2sz type, 0, type⟩, body⟩
      else rootKernel.slots node i
    | none => rootKernel.slots node i

def crowdedKernel : Kernel :=
  { rootKernel with
    memory :=
      { rootKernel.memory with
        words := crowdedWords
        kobj := fun page =>
          if page = 20 then .pgd else if page = 21 then .pte
          else if page = 30 then .captblLeaf else rootKobj page
        entries := fun _ page => ⟨if page = 2 then ⟨.untyped, 0⟩ else ⟨.kern, 1⟩, 0⟩ }
    slots := crowdedSlots
    threads := Threads.bind rootThreads 3 4 1
    tcaps := Function.update rootTcaps 4 ((rootTcaps 4).bind 3)
    tsc := 2 * kernQuiescenceCycles }

def deactivateCall (op : SyscallOp) (capin pgtblCap cosframeAddr : Nat) : TableCall :=
  ⟨0, 10, 4, ⟨op, capin, 0, pgtblCap, cosframeAddr⟩, ⟨0, 0⟩⟩

def crowdedView (outcome : Except Int Int) (k : Kernel) :
    Int × CapBody × Nat × Int × Option Nat :=
  (returnedCode outcome, (k.slots (10, true) 36).post, (k.ltbl 0).epoch, (k.threads 2).refcnt,
    (k.threads 3).rcvcap.rcvcapTcap)

theorem crowdedKernel_inOrder : crowdedKernel.DeactivatesInOrder
    (deactivateCall .captblDeactivateRoot 40 36 0x2000) .captbl := by
  intro table called addr slot found
  have own : crowdedKernel.calledTable (deactivateCall .captblDeactivateRoot 40 36 0x2000) =
      some 10 := by decide +kernel
  have there : crowdedKernel.found 10 40 =
      some (((10, true), 40), crowdedSlots (10, true) 40) := by decide +kernel
  cases Option.mem_unique called own
  cases found.symm.trans there
  intro cap isCaptbl _ _ _ _ frame gives
  obtain ⟨-, -, capPt, place, -, -, -, -, -, -, scanned⟩ := gives
  have occupied : crowdedKernel.pageScan 0 frame
      (.captbl ⟨1 + capMemFrozenFlag, 30, 1, none, 0⟩) ≠ 0 := by
    show captblKmemScan crowdedKernel 30 ≠ 0
    decide +kernel
  exact absurd scanned occupied

/-- The table is in use, so the call fails, and the table is not frozen any more. -/
theorem deactivation_unchanged_frozen :
    ∃ outcome k', tableCall (deactivateCall .captblDeactivateRoot 40 36 0x2000) crowdedKernel =
        .ok (outcome, k') ∧ returnedCode outcome = -Errno.einval ∧
      (SameKernel crowdedKernel k' ∨ ∃ table ∈ crowdedKernel.calledTable
        (deactivateCall .captblDeactivateRoot 40 36 0x2000), ∃ addr slot,
          crowdedKernel.found table 40 = some (addr, slot) ∧ Thawed crowdedKernel k' addr) := by
  have viewed : (tableCall (deactivateCall .captblDeactivateRoot 40 36 0x2000)
      crowdedKernel).toOption.map (fun (outcome, k') => crowdedView outcome k') =
        some (-Errno.einval, .pgtbl ⟨2, 20, 0, none, 0⟩, 0, 1, some 4) := by
    decide +kernel
  obtain ⟨outcome, k', ran, seen⟩ := exists_of_view viewed
  have failed : returnedCode outcome = -Errno.einval := congrArg Prod.fst seen
  refine ⟨outcome, k', ran, failed, ?_⟩
  refine (deactivation_unchanged _ _ _ .captbl _ rfl ran).mpr crowdedKernel_inOrder ?_
  rw [failed]
  decide

def Kernel.ChangedInFailure (k : Kernel) (call : TableCall) : Prop :=
  ∃ outcome k', tableCall call k = .ok (outcome, k') ∧ returnedCode outcome ≠ 0 ∧
    ¬Undisturbed k k'

theorem crowdedKernel_changed {call : TableCall} {code : Int} {post : CapBody} {epoch : Nat}
    {refcnt : Int} {tcap : Option Nat}
    (viewed : (tableCall call crowdedKernel).toOption.map
      (fun (outcome, k') => crowdedView outcome k') = some (code, post, epoch, refcnt, tcap))
    (failed : code ≠ 0)
    (differs : (post, epoch, refcnt, tcap) ≠ (.pgtbl ⟨2, 20, 0, none, 0⟩, 0, 1, some 4)) :
    crowdedKernel.ChangedInFailure call := by
  obtain ⟨outcome, k', ran, seen⟩ := exists_of_view viewed
  refine ⟨outcome, k', ran, ?_, fun left => differs ?_⟩
  · exact fun zero => failed ((congrArg Prod.fst seen).symm.trans zero)
  · obtain ⟨threads, ltbl, -⟩ := left.kept
    have held : (crowdedKernel.slots (10, true) 36).post = .pgtbl ⟨2, 20, 0, none, 0⟩ := rfl
    obtain ⟨flags, kept, after⟩ := @Undisturbed.flags _ ((10, true), 36) _ left _ held
    have counted : flags = 2 := kept.elim id id
    rw [crowdedView, threads, ltbl, after, counted] at seen
    exact (congrArg Prod.snd seen).symm

/-- Under an alias of its id a component comes to its end, an end-point is torn down and a
page table loses a reference.  A thread whose page cannot be given back loses its
capability. -/
theorem deactivation_changes :
    crowdedKernel.ChangedInFailure (deactivateCall .compDeactivate (captblMaxid + 8) 0 0) ∧
      crowdedKernel.ChangedInFailure (deactivateCall .arcvDeactivate (captblMaxid + 48) 0 0) ∧
      crowdedKernel.ChangedInFailure (deactivateCall .pgtblDeactivate (captblMaxid + 44) 0 0) ∧
      crowdedKernel.ChangedInFailure (deactivateCall .thdDeactivateRoot 16 36 0x1000) := by
  have expired : (tableCall (deactivateCall .compDeactivate (captblMaxid + 8) 0 0)
      crowdedKernel).toOption.map (fun (outcome, k') => crowdedView outcome k') =
        some (-Errno.einval, .pgtbl ⟨2, 20, 0, none, 0⟩, 1, 1, some 4) := by
    decide +kernel
  have tornDown : (tableCall (deactivateCall .arcvDeactivate (captblMaxid + 48) 0 0)
      crowdedKernel).toOption.map (fun (outcome, k') => crowdedView outcome k') =
        some (-Errno.einval, .pgtbl ⟨2, 20, 0, none, 0⟩, 0, 1, none) := by
    decide +kernel
  have uncounted : (tableCall (deactivateCall .pgtblDeactivate (captblMaxid + 44) 0 0)
      crowdedKernel).toOption.map (fun (outcome, k') => crowdedView outcome k') =
        some (-Errno.einval, .pgtbl ⟨1, 20, 0, none, 0⟩, 0, 1, some 4) := by
    decide +kernel
  have removed : (tableCall (deactivateCall .thdDeactivateRoot 16 36 0x1000)
      crowdedKernel).toOption.map (fun (outcome, k') => crowdedView outcome k') =
        some (-Errno.eperm, .pgtbl ⟨2, 20, 0, none, 0⟩, 0, 0, some 4) := by
    decide +kernel
  exact ⟨crowdedKernel_changed expired (by decide) (by decide),
    crowdedKernel_changed tornDown (by decide) (by decide),
    crowdedKernel_changed uncounted (by decide) (by decide),
    crowdedKernel_changed removed (by decide) (by decide)⟩

end Composite
