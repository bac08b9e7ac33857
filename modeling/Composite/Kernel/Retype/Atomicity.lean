import Composite.Kernel.Retype.Invariant

/-!
# The calls on a memory set are atomic

Every interleaving of the calls leaves the table as their effects, taken one
after the other, would.  The one return value that does not fit is the zero of
a `retypetbl_retype2frame` that loses the race for the lock of the global type.
-/

namespace Composite.RetypeProtocol

open Finset Function Option

section Steps

variable {m m' : Machine} {view : SetView} {c : Nat}

theorem settled_of_not_untyped {type : MemType}
    (typed : ¬(type ≠ .user ∧ type ≠ .kern)) : Settled type := by
  by_cases user : type = .user
  · exact .inl user
  · exact .inr (by simpa [user] using typed)

theorem Invariant.refLoad {op : Bool} {typeCheck : Option MemType}
    (invariant : Invariant m view) (stands : m.pc c = .refLoad op typeCheck)
    (stepped : m.instr c = some m') : Invariant m' view := by
  simp only [Machine.instr, stands, some.injEq] at stepped
  subst stepped
  refine invariant.goto_outside (by rw [stands]; rfl) ?_ ?_
  · split_ifs <;> rfl
  · split_ifs with untyped mismatch overflow op
    · trivial
    · trivial
    · trivial
    · exact ⟨settled_of_not_untyped untyped, fun deref => by cases deref⟩
    · exact settled_of_not_untyped untyped

theorem Invariant.frameRead (invariant : Invariant m view) (stands : m.pc c = .frameRead)
    (stepped : m.instr c = some m') : Invariant m' view := by
  simp only [Machine.instr, stands, some.injEq] at stepped
  subst stepped
  refine invariant.goto_outside (by rw [stands]; rfl) ?_ ?_
  · split_ifs <;> rfl
  · split_ifs with untyped
    · trivial
    · exact settled_of_not_untyped untyped

/-! The steps of a core `c`. -/

section Core

variable (invariant : Invariant m view) (bounded : c < numCpu)

include invariant bounded

theorem Invariant.factsOf {pc : Pc} (stands : m.pc c = pc) :
    LocalFacts m.tlb view c (m.entries c).lastUnmap pc := by
  rw [← stands]
  exact invariant.facts c bounded

variable {old : RefcntAtom} {type oldType : MemType} {cpu lastUnmap : Nat} {refSum : Int}

theorem Invariant.refCas_success {op : Bool} {stamp : Nat}
    (stands : m.pc c = .refCas op old stamp) (same : m.atom c = old) :
    Invariant ((m.setEntry c ((m.entries c).setRefCnt
      (refcntField (if op then old.refCnt + 1 else old.refCnt - 1)))).goto c (.returned 0))
      (effect m (.step c) view) := by
  obtain ⟨settled, stamped⟩ := invariant.factsOf bounded stands
  subst same
  have view_lastUnmap : ∀ k < numCpu,
      (if op then view.lastUnmap else update view.lastUnmap c stamp) k ≤
        (m.entries k).lastUnmap := by
    intro k boundedK
    cases op with
    | true => exact invariant.stamped k boundedK
    | false =>
      by_cases self : k = c
      · subst self
        simpa using stamped rfl
      · simpa [self] using invariant.stamped k boundedK
  have word : ∀ holder, (∀ k < numCpu, m.atom k = overlay view holder k) →
      Settled (overlay view holder c).type ∧
        m.atom c = ⟨(overlay view holder c).type, view.refCnt c⟩ := by
    intro holder words
    have usable : Settled (overlay view holder c).type := by
      rw [← words c bounded]
      exact settled
    refine ⟨usable, ?_⟩
    rw [← overlay_refCnt usable, ← words c bounded]
  have entries : ∀ k, ((m.setEntry c ((m.entries c).setRefCnt
      (refcntField (if op then (m.atom c).refCnt + 1 else (m.atom c).refCnt - 1)))).entries
        k).lastUnmap = (m.entries k).lastUnmap := Machine.setEntry_lastUnmap rfl
  simp only [effect, stands, if_true]
  refine invariant.of_outside (by rw [stands]; rfl) rfl rfl rfl rfl rfl ?_ trivial ?_ ?_
  · intro k boundedK
    have kept := entries k
    simp only [Machine.goto, kept]
    exact ⟨le_rfl, invariant.clock k boundedK, view_lastUnmap k boundedK⟩
  · intro holder words k boundedK
    obtain ⟨usable, value⟩ := word holder words
    rw [Machine.goto_atom, Machine.setEntry_atom, overlay_reference _ _ usable]
    by_cases self : k = c
    · have atom : (m.entries c).refcntAtom = _ := value
      simp only [self, if_true, RetypeEntry.setRefCnt_refcntAtom, atom, value]
    · simp only [self, if_false]
      exact words k boundedK
  · intro d time holder inside words facts
    refine facts.reference _ _ (word holder words).1 ?_ inside
    intro k different
    cases op <;> simp [different]

theorem Invariant.retypeCas_success (stands : m.pc c = .retypeCas type)
    (untyped : m.glbType = .untyped) :
    Invariant ((m.setGlb .retyping).goto c (.retypeWrite type 0)) { view with type := type } := by
  have settled : Settled type := invariant.factsOf bounded stands
  refine invariant.enter bounded (by rw [untyped]; decide) rfl settled.ne_retyping rfl ?_ ?_
  · intro k _ global
    simp [overlay, SetView.atom, ← global, untyped]
  · exact ⟨settled, rfl, Nat.zero_le _⟩

variable (stepped : m.instr c = some m')

include stepped

theorem Invariant.refStamp (stands : m.pc c = .refStamp old) : Invariant m' view := by
  simp only [Machine.instr, stands, some.injEq] at stepped
  subst stepped
  have settled : Settled old.type := invariant.factsOf bounded stands
  have atoms : ∀ k, (m.setEntry c { m.entries c with lastUnmap := m.tsc }).atom k = m.atom k := by
    intro k
    rw [Machine.setEntry_atom]
    split_ifs with same
    · rw [same]; rfl
    · rfl
  refine invariant.of_outside (by rw [stands]; rfl) rfl rfl rfl rfl rfl ?_ ?_ ?_ ?_
  · intro k boundedK
    have before := invariant.clock k boundedK
    have view := invariant.stamped k boundedK
    by_cases same : k = c
    · subst same
      simp only [Machine.goto, Machine.setEntry, update_self]
      exact ⟨before, le_rfl, view.trans before⟩
    · simp only [Machine.goto, Machine.setEntry, update_of_ne same]
      exact ⟨le_rfl, before, view⟩
  · exact ⟨settled, fun _ => by simp [Machine.goto, Machine.setEntry]⟩
  · intro holder words k boundedK
    rw [Machine.goto_atom, atoms, words k boundedK]
  · exact fun _ _ _ _ _ facts => facts

theorem Invariant.retypeRead {accessible : Bool} (stands : m.pc c = .retypeRead type accessible) :
    Invariant m' view := by
  simp only [Machine.instr, stands, some.injEq] at stepped
  subst stepped
  have settled : Settled type := invariant.factsOf bounded stands
  refine invariant.goto_outside (by rw [stands]; rfl) ?_ ?_
  · split_ifs <;> rfl
  · split_ifs
    · trivial
    · trivial
    · trivial
    · exact settled

theorem Invariant.retypeWrite {i : Nat} (stands : m.pc c = .retypeWrite type i) :
    Invariant m' view := by
  obtain ⟨settled, viewType, within⟩ : Settled type ∧ view.type = type ∧ i ≤ numCpu :=
    invariant.factsOf bounded stands
  have global := (invariant.lockedAt bounded stands rfl).1
  simp only [Machine.instr, stands, global, if_true] at stepped
  split_ifs at stepped with remaining
  · obtain rfl := some.inj stepped
    refine invariant.write bounded stands rfl rfl rfl ?_ ?_ ⟨settled, viewType, remaining⟩
    · simp [invariant.wordAt bounded stands rfl remaining, overlay]
    · exact fun k other => by simp [overlay, Nat.le_iff_lt_or_eq, other]
  · obtain rfl := some.inj stepped
    subst viewType
    refine invariant.leave bounded stands rfl view invariant.settled rfl fun k boundedK => ?_
    simp [overlay, SetView.atom, show k < i by omega]

theorem Invariant.frameLock (stands : m.pc c = .frameLock oldType) : Invariant m' view := by
  have settled : Settled oldType := invariant.factsOf bounded stands
  simp only [Machine.instr, stands] at stepped
  split_ifs at stepped with won
  · obtain rfl := some.inj stepped
    have free : m.glbType ≠ .retyping := by
      rw [won]
      exact settled.ne_retyping
    have global := (invariant.unlocked (invariant.unlocked_of_glbType free)).1
    have viewType : view.type = oldType := global.symm.trans won
    refine invariant.enter bounded free rfl invariant.settled rfl ?_ ?_
    · intro k _ _
      simp [overlay, SetView.atom, viewType]
    · exact ⟨settled, viewType, Nat.zero_le _, by simp, fun k negative => by omega⟩
  · obtain rfl := some.inj stepped
    exact invariant.goto_outside (by rw [stands]; rfl) rfl trivial

theorem Invariant.frameLoad (stands : m.pc c = .frameLoad oldType cpu refSum lastUnmap) :
    Invariant m' view := by
  obtain ⟨settled, viewType, within, sum, latest⟩ := invariant.factsOf bounded stands
  simp only [Machine.instr, stands, some.injEq] at stepped
  subst stepped
  have word (remaining : cpu < numCpu) : (m.atom cpu).type = oldType := by
    simp [(invariant.lockedAt bounded stands rfl).2 cpu remaining, overlay]
  split_ifs with remaining strange counted flushed
  · exact absurd (word remaining) strange.1
  · exact invariant.goto_inside bounded stands rfl rfl (fun _ _ => rfl)
      ⟨settled, viewType, remaining, sum, latest, word remaining⟩
  · exact invariant.goto_inside bounded stands rfl rfl (fun _ _ => rfl)
      ⟨settled, viewType, within, by decide⟩
  · obtain rfl : cpu = numCpu := by omega
    refine invariant.goto_inside bounded stands rfl rfl ?_ ?_
    · intro k boundedK
      simp [overlay, boundedK]
    · refine ⟨Nat.zero_le _, by rw [← sum]; simpa using counted, ?_⟩
      intro k boundedK
      exact tlbQuiescenceCheck_mono (latest k boundedK) (fun _ => le_rfl) (fun _ => le_rfl)
        flushed
  · exact invariant.goto_inside bounded stands rfl rfl (fun _ _ => rfl)
      ⟨settled, viewType, within, by decide⟩

theorem Invariant.frameCas (stands : m.pc c = .frameCas oldType cpu refSum lastUnmap old) :
    Invariant m' view := by
  obtain ⟨settled, viewType, within, sum, latest, wordType⟩ := invariant.factsOf bounded stands
  have word := invariant.wordAt bounded stands rfl within
  simp only [Machine.instr, stands] at stepped
  split_ifs at stepped with won
  · obtain rfl := some.inj stepped
    refine invariant.write bounded stands rfl rfl rfl ?_ ?_ ⟨settled, viewType, within, ?_, latest⟩
    · simp [word, overlay]
    · exact fun k other => by simp [overlay, Nat.le_iff_lt_or_eq, other]
    · rw [Finset.sum_range_succ, ← sum, ← won, Machine.atom, word]
      rfl
  · obtain rfl := some.inj stepped
    exact invariant.goto_inside bounded stands rfl rfl (fun _ _ => rfl)
      ⟨settled, viewType, within.le, by decide⟩

theorem Invariant.frameUnmap (stands : m.pc c = .frameUnmap oldType cpu refSum lastUnmap) :
    Invariant m' view := by
  obtain ⟨settled, viewType, within, sum, latest⟩ := invariant.factsOf bounded stands
  simp only [Machine.instr, stands, some.injEq] at stepped
  subst stepped
  refine invariant.goto_inside bounded stands rfl rfl (fun _ _ => rfl)
    ⟨settled, viewType, within, sum, ?_⟩
  intro k smaller
  have own := invariant.stamped cpu within
  by_cases self : k = cpu
  · subst self
    split_ifs <;> omega
  · have earlier := latest k (by omega)
    split_ifs <;> omega

theorem Invariant.frameClearCnt_step (stands : m.pc c = .frameClearCnt cpu) :
    Invariant m' (effect m (.step c) view) := by
  have facts := invariant.factsOf bounded stands
  have global := (invariant.lockedAt bounded stands rfl).1
  simp only [Machine.instr, stands, global, if_true] at stepped
  simp only [effect, stands]
  split_ifs at stepped ⊢ with remaining
  · obtain rfl := some.inj stepped
    refine invariant.write bounded stands rfl rfl rfl ?_ ?_ ⟨remaining, facts.2⟩
    · simp [invariant.wordAt bounded stands rfl remaining, overlay]
    · exact fun k other => by simp [overlay, other]
  · obtain rfl := some.inj stepped
    refine invariant.leave bounded stands rfl { view with type := .untyped, refCnt := fun _ => 0 }
      (by simp) rfl fun k boundedK => ?_
    simp [overlay, SetView.atom, show k < cpu by omega]

theorem Invariant.frameClearType (stands : m.pc c = .frameClearType cpu) : Invariant m' view := by
  have facts := invariant.factsOf bounded stands
  simp only [Machine.instr, stands, some.injEq] at stepped
  subst stepped
  refine invariant.write bounded stands rfl rfl rfl ?_ ?_ ⟨facts.1, facts.2⟩
  · simp [invariant.wordAt bounded stands rfl facts.1, overlay]
  · exact fun k other => by simp [overlay, Nat.le_iff_lt_or_eq, other]

theorem Invariant.frameRestore {ret : Int} (stands : m.pc c = .frameRestore oldType cpu ret) :
    Invariant m' view := by
  obtain ⟨settled, viewType, within, failed⟩ := invariant.factsOf bounded stands
  obtain ⟨global, atoms⟩ := invariant.lockedAt bounded stands rfl
  cases cpu with
  | zero =>
    simp only [Machine.instr, stands, global, if_true, some.injEq] at stepped
    subst stepped viewType
    refine invariant.leave bounded stands rfl view invariant.settled rfl fun k _ => ?_
    simp [overlay, SetView.atom]
  | succ cpu =>
    simp only [Machine.instr, stands, some.injEq] at stepped
    subst stepped
    refine invariant.goto_inside bounded stands rfl rfl (fun _ _ => rfl)
      ⟨settled, viewType, by omega, failed, ?_⟩
    simp [atoms cpu (by omega), overlay]

theorem Invariant.frameRestoreCas {ret : Int}
    (stands : m.pc c = .frameRestoreCas oldType cpu old ret) : Invariant m' view := by
  obtain ⟨settled, viewType, within, failed, word⟩ := invariant.factsOf bounded stands
  have atom := invariant.wordAt bounded stands rfl within
  have locked : m.atom cpu = old := by simp [Machine.atom, atom, word, overlay]
  simp only [Machine.instr, stands, locked, if_true, some.injEq] at stepped
  subst stepped
  refine invariant.write bounded stands rfl rfl rfl ?_ ?_ ⟨settled, viewType, within.le, failed⟩
  · simp [atom, overlay]
  · exact fun k other => by simp [overlay, Nat.le_iff_lt_or_eq, other]

def Pc.Quiet : Pc → Prop
  | .refCas .. | .retypeCas _ | .frameClearCnt _ => False
  | _ => True

theorem Invariant.quiet (quiet : (m.pc c).Quiet) : Invariant m' view := by
  cases stands : m.pc c with
  | idle | returned | died => simp [Machine.instr, stands] at stepped
  | refCas | retypeCas | frameClearCnt => simp [stands, Pc.Quiet] at quiet
  | refLoad => exact invariant.refLoad stands stepped
  | refStamp => exact invariant.refStamp bounded stepped stands
  | retypeRead => exact invariant.retypeRead bounded stepped stands
  | retypeWrite => exact invariant.retypeWrite bounded stepped stands
  | frameRead => exact invariant.frameRead stands stepped
  | frameLock => exact invariant.frameLock bounded stepped stands
  | frameLoad => exact invariant.frameLoad bounded stepped stands
  | frameCas => exact invariant.frameCas bounded stepped stands
  | frameUnmap => exact invariant.frameUnmap bounded stepped stands
  | frameClearType => exact invariant.frameClearType bounded stepped stands
  | frameRestore => exact invariant.frameRestore bounded stepped stands
  | frameRestoreCas => exact invariant.frameRestoreCas bounded stepped stands

theorem Invariant.instr : Invariant m' (effect m (.step c) view) := by
  cases stands : m.pc c with
  | refCas op old stamp =>
    by_cases same : m.atom c = old
    · simp only [Machine.instr, stands, same, if_true, some.injEq] at stepped
      subst stepped
      exact invariant.refCas_success bounded stands same
    · simp only [Machine.instr, stands, same, if_false, some.injEq] at stepped
      subst stepped
      simp only [effect, stands, same, if_false]
      exact invariant.goto_outside (by rw [stands]; rfl) rfl trivial
  | retypeCas type =>
    by_cases untyped : m.glbType = .untyped
    · simp only [Machine.instr, stands, untyped, if_true, some.injEq] at stepped
      subst stepped
      simp only [effect, stands, untyped, if_true]
      exact invariant.retypeCas_success bounded stands untyped
    · simp only [Machine.instr, stands, untyped, if_false, some.injEq] at stepped
      subst stepped
      simp only [effect, stands, untyped, if_false]
      exact invariant.goto_outside (by rw [stands]; rfl) rfl trivial
  | frameClearCnt cpu => exact invariant.frameClearCnt_step bounded stepped stands
  | _ =>
    have unaffected : effect m (.step c) view = view := by simp only [effect, stands]
    rw [unaffected]
    exact invariant.quiet bounded stepped (by rw [stands]; trivial)

end Core

theorem Invariant.environment (invariant : Invariant m view)
    (same : m'.glbType = m.glbType ∧ m'.entries = m.entries ∧ m'.pc = m.pc)
    (periodic : ∀ i, (m.tlb i).lastPeriodicFlush ≤ (m'.tlb i).lastPeriodicFlush)
    (mandatory : ∀ i, (m.tlb i).lastMandatoryFlush ≤ (m'.tlb i).lastMandatoryFlush)
    (later : m.tsc ≤ m'.tsc) : Invariant m' view := by
  obtain ⟨glbType, entries, pcs⟩ := same
  refine ⟨⟨?_, ?_⟩, invariant.settled, ?_, ?_, ?_, ?_⟩
  · simpa only [Machine.atom, glbType, entries, pcs] using invariant.unlocked
  · simpa only [Machine.atom, glbType, entries, pcs] using invariant.locked
  · simpa only [pcs] using invariant.exclusive
  · intro c bounded
    rw [pcs, entries]
    exact (invariant.facts c bounded).mono periodic mandatory le_rfl
  · simpa only [entries] using invariant.stamped
  · intro k bounded
    rw [entries]
    exact (invariant.clock k bounded).trans later

theorem Invariant.call {call : Call} (invariant : Invariant m view) (free : (m.pc c).free = true) :
    Invariant (m.goto c call.start) view := by
  refine invariant.goto_outside ?_ ?_ ?_
  · cases stands : m.pc c with
    | _ => first | rfl | simp [stands, Pc.free] at free
  · cases call <;> rfl
  · cases call with
    | retype2user => exact .inl rfl
    | retype2kern accessible => exact .inr rfl
    | _ => trivial

theorem update_mono {tlb : Nat → TlbQuiescence} {record : TlbQuiescence}
    (flush : TlbQuiescence → Nat) (later : flush (tlb c) ≤ flush record) (i : Nat) :
    flush (tlb i) ≤ flush (update tlb c record i) := by
  by_cases same : i = c
  · rw [same, update_self]
    exact later
  · rw [update_of_ne same]

theorem Invariant.step {event : Event} (invariant : Invariant m view)
    (stepped : next m event = some m') : Invariant m' (effect m event view) := by
  cases event with
  | call c call =>
    simp only [next, ite_none_right_eq_some, some.injEq] at stepped
    obtain ⟨⟨-, free⟩, rfl⟩ := stepped
    exact invariant.call free
  | step c =>
    simp only [next, ite_none_right_eq_some] at stepped
    exact invariant.instr stepped.1 stepped.2
  | tick =>
    simp only [next, some.injEq] at stepped
    subst stepped
    exact invariant.environment ⟨rfl, rfl, rfl⟩ (fun _ => le_rfl) (fun _ => le_rfl)
      (Nat.le_succ _)
  | periodicFlush c time =>
    simp only [next, ite_none_right_eq_some, some.injEq] at stepped
    obtain ⟨⟨later, -⟩, rfl⟩ := stepped
    exact invariant.environment ⟨rfl, rfl, rfl⟩ (update_mono (·.lastPeriodicFlush) later)
      (update_mono (·.lastMandatoryFlush) le_rfl) le_rfl
  | mandatoryFlush c time =>
    simp only [next, ite_none_right_eq_some, some.injEq] at stepped
    obtain ⟨⟨later, -⟩, rfl⟩ := stepped
    exact invariant.environment ⟨rfl, rfl, rfl⟩ (update_mono (·.lastPeriodicFlush) le_rfl)
      (update_mono (·.lastMandatoryFlush) later) le_rfl

end Steps

theorem Invariant.boot (tlb : Nat → TlbQuiescence) (tsc : Nat) :
    Invariant (boot tlb tsc) .boot where
  unlocked := fun _ => ⟨rfl, fun _ _ => rfl⟩
  locked := fun _ _ inside => by cases inside
  settled := by decide
  exclusive := fun _ _ _ _ inside _ => by cases inside
  facts := fun _ _ => trivial
  stamped := fun _ _ => le_rfl
  clock := fun _ _ => Nat.zero_le _

end Composite.RetypeProtocol
