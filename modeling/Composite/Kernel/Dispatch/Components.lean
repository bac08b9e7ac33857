import Composite.Kernel.Deactivation
import Composite.Kernel.Dispatch

/-!
# Deactivated components

A component has the epoch that its entry of the liveness table has when it is
activated.  Its deactivation ends the epoch.  Invocations, sends, returns and switches
compare the epoch that they have recorded with that of the table.
-/

namespace Composite

open Function List

structure CompWorld where
  ltbl : Ltbl
  tsc : Nat
  comps : List LivenessData

/-- An activation comes with what the memory of the new capability has at the place of the
liveness data.  Any capability to a component may be used to deactivate it. -/
inductive CompOp where
  | activate (lid : Nat) (stale : LivenessData)
  | deactivate (comp : Nat)
  | wait (cycles : Nat)
  deriving DecidableEq, Repr

namespace CompWorld

/-- `comp_activate` does not look at the result of `ltbl_get`. -/
def next (w : CompWorld) : CompOp → Option CompWorld
  | .activate lid stale => some { w with comps := w.comps ++ [(ltblGet w.ltbl lid).getD stale] }
  | .deactivate comp =>
    w.comps[comp]?.map fun ld => { w with ltbl := ltblExpire w.ltbl w.tsc ld }
  | .wait cycles => some { w with tsc := w.tsc + cycles }

def deactivated (_ : CompWorld) (op : CompOp) (dead : List Nat) : List Nat :=
  match op with
  | .deactivate comp => comp :: dead
  | .activate .. | .wait _ => dead

def Careful (w : CompWorld) : CompOp → Prop
  | .activate lid _ => lid < ltblEnts
  | .deactivate comp => ∀ ld, w.comps[comp]? = some ld → (w.ltbl ld.id).epoch % 2 ^ 32 ≠ 2 ^ 32 - 1
  | .wait _ => True

structure Ordered (w : CompWorld) (dead : List Nat) : Prop where
  issued : ∀ ld ∈ w.comps, ld.epoch ≤ (w.ltbl ld.id).epoch
  activated : ∀ comp ∈ dead, comp < w.comps.length
  ended : ∀ comp ∈ dead, ∀ ld, w.comps[comp]? = some ld → ld.epoch < (w.ltbl ld.id).epoch

end CompWorld

theorem epochSucc_eq {epoch : Nat} (carries : epoch % 2 ^ 32 ≠ 2 ^ 32 - 1) :
    epochSucc epoch = epoch + 1 := by
  unfold epochSucc
  omega

variable {ld : LivenessData}

theorem epoch_le_expire {ltbl : Ltbl} (tsc : Nat)
    (carries : (ltbl ld.id).epoch % 2 ^ 32 ≠ 2 ^ 32 - 1) (id : Nat) :
    (ltbl id).epoch ≤ (ltblExpire ltbl tsc ld id).epoch := by
  unfold ltblExpire
  rw [update_apply]
  split_ifs with same
  · rw [same, epochSucc_eq carries]
    exact Nat.le_succ _
  · exact le_rfl

namespace CompWorld

theorem Ordered.next {w w' : CompWorld} {op : CompOp} {dead : List Nat} (ordered : w.Ordered dead)
    (careful : w.Careful op) (stepped : w.next op = some w') :
    w'.Ordered (w.deactivated op dead) := by
  cases op with
  | activate lid stale =>
    cases stepped
    have known : ltblGet w.ltbl lid = some ⟨(w.ltbl lid).epoch, lid⟩ := if_neg (not_le.mpr careful)
    refine ⟨fun ld member => ?_, fun comp member => ?_, fun comp member ld recorded => ?_⟩
    · rw [known, mem_append, mem_singleton] at member
      rcases member with old | rfl
      · exact ordered.issued ld old
      · exact le_rfl
    · have before := ordered.activated comp member
      rw [length_append]
      omega
    · rw [List.getElem?_append_left (ordered.activated comp member)] at recorded
      exact ordered.ended comp member ld recorded
  | deactivate comp =>
    obtain ⟨ld, recorded, rfl⟩ := Option.map_eq_some_iff.mp stepped
    have carries := careful ld recorded
    have forward := epoch_le_expire w.tsc carries
    refine ⟨fun other member => ?_, fun other member => ?_, fun other member ld' recorded' => ?_⟩
    · exact (ordered.issued other member).trans (forward _)
    · rcases mem_cons.mp member with rfl | old
      · exact (List.getElem?_eq_some_iff.mp recorded).1
      · exact ordered.activated other old
    · rcases mem_cons.mp member with rfl | old
      · rw [recorded] at recorded'
        cases recorded'
        have issued := ordered.issued ld (mem_of_getElem? recorded)
        simp only [ltblExpire, update_self, epochSucc_eq carries]
        omega
      · exact (ordered.ended other old ld' recorded').trans_le (forward _)
  | wait cycles =>
    cases stepped
    exact ⟨ordered.issued, ordered.activated, ordered.ended⟩

end CompWorld

/-- What goes through the liveness data does not find the component alive: invocations are
refused, sends find no end-point, a return stays with the page table in use, and a switch
stays with the current thread. -/
structure Unreachable (ltbl : Ltbl) (ld : LivenessData) : Prop where
  dead : ltblIsalive ltbl ld = false
  invocation : ∀ (cpu : CpuState) (sinvc : CapSinv) (regs : PtRegs), sinvc.compInfo.liveness = ld →
    sinvCall ltbl cpu sinvc regs =
      .ok { cpu with regs := regs.set (-Errno.efault) regs.getsp regs.getip }
  send : ∀ (s : Core) (caps : CapLookup) (asnd : CapAsnd), s.ltbl = ltbl →
    asnd.compInfo.liveness = ld → s.asndToArcv caps asnd = none
  return_ : ∀ (cpu cpu' : CpuState) (regs : PtRegs), cpu.cosInfo.invstkTop ≠ 0 →
    ((cpu.threads cpu.cosInfo.currThd).invstk (cpu.cosInfo.invstkTop - 1)).compInfo.liveness = ld →
    sretRet ltbl cpu regs = .ok cpu' →
    cpu'.pgtbl = cpu.pgtbl ∧ cpu'.regs = regs.set (-Errno.efault) regs.getsp regs.getip
  switch : ∀ (cpu cpu' : CpuState) (curr next : Nat) (ci : CompInfo) (regs : PtRegs), curr ≠ next →
    ((cpu.threads next).invstk (cpu.threads next).invstkTop).compInfo.liveness = ld →
    capThdSwitch ltbl cpu curr next ci regs = .ok cpu' →
    cpu'.cosInfo = cpu.cosInfo ∧ cpu'.pgtbl = cpu.pgtbl

theorem Unreachable.of_dead {ltbl : Ltbl} (dead : ltblIsalive ltbl ld = false) :
    Unreachable ltbl ld := by
  refine ⟨dead, ?_, ?_, ?_, ?_⟩
  · intro cpu sinvc regs same
    simp [sinvCall, same, dead]
  · intro s caps asnd table same
    simp [Core.asndToArcv, table, same, dead]
  · intro cpu cpu' regs called same result
    unfold sretRet thdInvstkPop at result
    rw [if_neg called] at result
    obtain ⟨popped, pop, rest⟩ := Checked.bind_eq_ok.mp result
    obtain ⟨entry, current, found⟩ := Checked.bind_eq_ok.mp pop
    unfold thdInvstkCurrent Thread.invstkAt at current
    split_ifs at current
    cases current
    cases found
    simp only [same, dead] at rest
    cases rest
    exact ⟨rfl, rfl⟩
  · intro cpu cpu' curr next ci regs different same switched
    rcases capThdSwitch_cases switched with ⟨rfl, -⟩ | ⟨-, ⟨unchanged, -⟩ | ⟨alive, -⟩⟩
    · exact absurd rfl different
    · rw [unchanged]
      exact ⟨rfl, rfl⟩
    · rw [same, dead] at alive
      cases alive

/-- In every run whose steps are careful, a component that was deactivated is never found
alive again through what was recorded for it. -/
theorem dead_components (start w : CompWorld) (ops : List CompOp)
    (issued : ∀ ld ∈ start.comps, ld.epoch ≤ (start.ltbl ld.id).epoch)
    (careful : Transition.Meets CompWorld.Careful CompWorld.next start ops)
    (executed : Transition.exec CompWorld.next start ops = some w) :
    ∀ comp ∈ Transition.trace CompWorld.next CompWorld.deactivated start ops [],
      ∀ ld, w.comps[comp]? = some ld → Unreachable w.ltbl ld := by
  have kept : ∀ (before : CompWorld) op after (dead : List Nat), before.Ordered dead →
      before.Careful op → before.next op = some after →
        after.Ordered (before.deactivated op dead) :=
    fun _ _ _ _ ordered careful stepped => ordered.next careful stepped
  have ordered : w.Ordered (Transition.trace CompWorld.next CompWorld.deactivated start ops []) :=
    Transition.exec_invariant_trace kept ⟨issued, nofun, nofun⟩ careful executed
  intro comp member ld recorded
  refine .of_dead ?_
  have behind := ordered.ended comp member ld recorded
  simp only [ltblIsalive, beq_eq_false_iff_ne]
  omega

/-! The calls of the kernel. -/

namespace CompWorld

open Procedure Kernel

/-- The liveness table and the time are those of the kernel. -/
structure Shows (w : CompWorld) (k : Kernel) : Prop where
  ltbl : w.ltbl = k.ltbl
  tsc : w.tsc = k.tsc

theorem compConstruct_activates (k : Kernel) (t cap capin : Nat) (ctcAddr ptcAddr : CapAddr)
    (ctc ptc : CapTable) (lid entryAddr : Nat) (stale : LivenessData) :
    (compConstruct t cap capin ctcAddr ptcAddr ctc ptc lid entryAddr stale).Ensures k
      fun outcome k' => k'.ltbl = k.ltbl ∧ k'.tsc = k.tsc ∧ (returned outcome = 0 →
        ∃ (addr : CapAddr) (compc : CapComp), (k'.slots addr.1 addr.2).post = .comp compc ∧
          compc.info.liveness = (ltblGet k.ltbl lid).getD stale) := by
  refine (capCapactivatePre_activates k t cap capin .comp).bind ?_
  rintro (code | target) k₁ ⟨rfl, activated⟩
  · exact ⟨rfl, rfl, fun zero => absurd zero activated.1⟩
  · refine read_bind (ensures_update.mpr ⟨rfl, rfl, fun _ => ⟨target, ⟨entryAddr, ptcAddr, ctcAddr,
      ⟨(ltblGet k.ltbl lid).getD stale, ptc.table, ctc.table⟩⟩, ?_, rfl⟩⟩)
    rw [putBody_slots, if_pos rfl]
    rfl

/-- A component that `comp_activate` makes has the liveness data that its activation adds to the
world. -/
theorem activate_of_compActivate (k : Kernel) (t cap capin captblCap pgtblCap lid entryAddr : Nat)
    (stale : LivenessData) :
    (compActivate t cap capin captblCap pgtblCap lid entryAddr stale).Ensures k fun outcome k' =>
      ∀ w : CompWorld, w.Shows k → w.Shows k' ∧ (outcome = .ok () →
        ∃ (addr : CapAddr) (compc : CapComp) (w' : CompWorld),
          (k'.slots addr.1 addr.2).post = .comp compc ∧ w.next (.activate lid stale) = some w' ∧
          w'.Shows k' ∧ w'.comps = w.comps ++ [compc.info.liveness]) := by
  refine lkup_bind (orLeave_bind (fun _ _ shows => ⟨shows, nofun⟩) fun (ctcAddr, ctc) _ => ?_)
  refine leaveIf_bind (fun _ _ shows => ⟨shows, nofun⟩) fun _ => lkup_bind ?_
  refine orLeave_bind (fun _ _ shows => ⟨shows, nofun⟩) fun (ptcAddr, ptc) _ => ?_
  refine leaveIf_bind (fun _ _ shows => ⟨shows, nofun⟩) fun _ => ?_
  refine leaveIf_bind (fun _ _ shows => ⟨shows, nofun⟩) fun _ => modRefcntFlags_some fun body => ?_
  refine ensures_ite.mpr ⟨fun _ => modRefcntFlags_some fun _ => ensures_leave.mpr ?_,
    fun _ => modRefcntFlags_some fun _ => ?_⟩
  · exact fun _ shows => ⟨⟨shows.ltbl, shows.tsc⟩, nofun⟩
  refine ensures_bind.mpr
    (ensures_code.mpr ((compConstruct_activates _ _ _ _ _ _ _ _ _ _ _).mono ?_))
  rintro outcome k₁ ⟨ltbl, tsc, made⟩
  refine ensures_ite.mpr ⟨fun _ => modRefcntFlags_some fun _ => modRefcntFlags_some fun _ =>
    ensures_leave.mpr ?_, fun returned => ensures_pure.mpr ?_⟩
  · exact fun _ shows => ⟨⟨shows.ltbl.trans ltbl.symm, shows.tsc.trans tsc.symm⟩, nofun⟩
  · intro w shows
    have after : w.Shows k₁ := ⟨shows.ltbl.trans ltbl.symm, shows.tsc.trans tsc.symm⟩
    obtain ⟨addr, compc, held, recorded⟩ := made (not_not.mp returned)
    refine ⟨after, fun _ => ⟨addr, compc, _, held, rfl, ⟨after.ltbl, after.tsc⟩, ?_⟩⟩
    rw [recorded, ← ltbl, ← after.ltbl]

/-- What `comp_deactivate` does to the liveness table, the deactivation of the component that it
finds does to the world. -/
theorem deactivate_of_compDeactivate (k : Kernel) (ct : CapTable) (capin lid : Nat) :
    (compDeactivate ct capin lid).Ensures k fun outcome k' =>
      (k' = k ∧ outcome ≠ .ok ()) ∨ ∃ addr slot compc, k.found ct.table capin = some (addr, slot) ∧
        slot.comp? = some compc ∧ ∀ (w : CompWorld) (comp : Nat), w.Shows k →
          w.comps[comp]? = some compc.info.liveness →
          ∃ w', w.next (.deactivate comp) = some w' ∧ w'.Shows k' := by
  refine lkup_bind (ensures_bind.mpr (ensures_orFault.mpr ?_))
  rintro ⟨addr, slot⟩ found
  refine orLeave_bind (fun _ => .inl ⟨rfl, nofun⟩) fun compc isComp => update_bind ?_
  have expires {k' : Kernel} (ltbl : k'.ltbl = ltblExpire k.ltbl k.tsc compc.info.liveness)
      (tsc : k'.tsc = k.tsc) (w : CompWorld) (comp : Nat) (shows : w.Shows k)
      (recorded : w.comps[comp]? = some compc.info.liveness) :
      ∃ w', w.next (.deactivate comp) = some w' ∧ w'.Shows k' := by
    refine ⟨{ w with ltbl := ltblExpire w.ltbl w.tsc compc.info.liveness }, ?_, ?_,
      shows.tsc.trans tsc.symm⟩
    · rw [next, recorded]
      rfl
    · rw [ltbl, ← shows.ltbl, ← shows.tsc]
  refine ensures_bind.mpr (clear_ensures (fun _ _ => ?_) fun _ _ => ?_)
  · exact .inr ⟨addr, slot, compc, found, isComp, expires rfl rfl⟩
  · refine modRefcntFlags_some fun _ => (modRefcntFlags_ensures _ _ _).mono ?_
    rintro _ _ ⟨-, _, rfl⟩
    exact .inr ⟨addr, slot, compc, found, isComp, expires rfl rfl⟩

end CompWorld

instance (w : CompWorld) (op : CompOp) : Decidable (w.Careful op) :=
  match op with
  | .activate lid _ => inferInstanceAs (Decidable (lid < ltblEnts))
  | .deactivate comp =>
    match found : w.comps[comp]? with
    | none => .isTrue (by simp [CompWorld.Careful, found])
    | some ld =>
      decidable_of_iff ((w.ltbl ld.id).epoch % 2 ^ 32 ≠ 2 ^ 32 - 1)
        (by simp [CompWorld.Careful, found])
  | .wait _ => .isTrue trivial

def reuseId : List CompOp :=
  [.activate 5 ⟨0, 0⟩, .deactivate 0, .wait 10, .activate 5 ⟨0, 0⟩, .deactivate 1]

theorem dead_components_reuse :
    ∃ w ∈ Transition.exec CompWorld.next ⟨ltblInit, 0, []⟩ reuseId,
      w.comps = [⟨0, 5⟩, ⟨1, 5⟩] ∧ Unreachable w.ltbl ⟨0, 5⟩ ∧ Unreachable w.ltbl ⟨1, 5⟩ := by
  obtain ⟨w, ran, comps⟩ :
      ∃ w ∈ Transition.exec CompWorld.next ⟨ltblInit, 0, []⟩ reuseId,
        w.comps = [⟨0, 5⟩, ⟨1, 5⟩] := by
    decide +kernel
  have dead := dead_components ⟨ltblInit, 0, []⟩ w reuseId nofun (by decide +kernel) ran
  exact ⟨w, ran, comps, dead 0 (by decide +kernel) _ (by rw [comps]; rfl),
    dead 1 (by decide +kernel) _ (by rw [comps]; rfl)⟩

theorem exec_deactivations (n : Nat) {w : CompWorld} {comp : Nat}
    (recorded : w.comps[comp]? = some ld) :
    ∃ w', Transition.exec CompWorld.next w (List.replicate n (.deactivate comp)) = some w' ∧
      w'.comps = w.comps ∧
      (w'.ltbl ld.id).epoch = (w.ltbl ld.id).epoch / 2 ^ 32 * 2 ^ 32 +
        ((w.ltbl ld.id).epoch + n) % 2 ^ 32 := by
  induction n generalizing w with
  | zero => exact ⟨w, rfl, rfl, by omega⟩
  | succ n ih =>
    obtain ⟨w', ran, comps, epoch⟩ :=
      ih (w := { w with ltbl := ltblExpire w.ltbl w.tsc ld }) recorded
    refine ⟨w', ?_, comps, ?_⟩
    · rw [replicate_succ, Transition.exec_cons_eq_some]
      exact ⟨_, by simp [CompWorld.next, recorded], ran⟩
    · rw [epoch]
      simp only [ltblExpire, update_self, epochSucc]
      omega

/-- A liveness id outside of the table leaves what the memory of the capability had, here an
epoch that is still to come.  And after `2 ^ 32` deactivations the epoch comes round. -/
theorem dead_components_alive :
    (∃ w ∈ Transition.exec CompWorld.next ⟨ltblInit, 0, []⟩
        [.activate 5 ⟨0, 0⟩, .activate ltblEnts ⟨2, 5⟩, .deactivate 1, .deactivate 0],
      w.comps[1]? = some ⟨2, 5⟩ ∧ ltblIsalive w.ltbl ⟨2, 5⟩ = true) ∧
    ∃ w ∈ Transition.exec CompWorld.next ⟨ltblInit, 0, [⟨0, 5⟩]⟩
        (List.replicate (2 ^ 32) (.deactivate 0)),
      w.comps[0]? = some ⟨0, 5⟩ ∧ ltblIsalive w.ltbl ⟨0, 5⟩ = true := by
  refine ⟨by decide +kernel, ?_⟩
  have recorded : (⟨ltblInit, 0, [⟨0, 5⟩]⟩ : CompWorld).comps[0]? = some ⟨0, 5⟩ := rfl
  obtain ⟨w, ran, comps, epoch⟩ := exec_deactivations (2 ^ 32) recorded
  refine ⟨w, ran, by rw [comps]; rfl, ?_⟩
  simp only [ltblIsalive, epoch, ltblInit]
  decide

end Composite
