import Mathlib.Algebra.BigOperators.Intervals
import Composite.Kernel.Retype.Protocol

/-!
# What the calls on a memory set have produced

`SetView` is the memory set as an atomic object: one type, one count per core
and the time of each core's last unmapping.  `effect` gives the change that a
step commits to: a successful compare-and-swap of a reference, the lock of a
retype to user or kernel, and the final write of a retype to frame.  All other
steps, and with them every failing call, have no effect.

The invariant says that the words of the table are those of the view, except
for what the one core inside a retype has written so far (`overlay`).
-/

namespace Composite.RetypeProtocol

open Finset Function

structure SetView where
  type : MemType
  refCnt : Nat → Int
  lastUnmap : Nat → Nat

def SetView.atom (view : SetView) (cpu : Nat) : RefcntAtom := ⟨view.type, view.refCnt cpu⟩

def SetView.boot : SetView := ⟨.untyped, fun _ => 0, fun _ => 0⟩

def effect (m : Machine) (event : Event) (view : SetView) : SetView :=
  match event with
  | .step c =>
    match m.pc c with
    | .refCas op old stamp =>
      if m.atom c = old then
        { view with
          refCnt := Function.update view.refCnt c
            (refcntField (if op then view.refCnt c + 1 else view.refCnt c - 1))
          lastUnmap := if op then view.lastUnmap else Function.update view.lastUnmap c stamp }
      else view
    | .retypeCas type => if m.glbType = .untyped then { view with type := type } else view
    | .frameClearCnt cpu =>
      if cpu < numCpu then view else { view with type := .untyped, refCnt := fun _ => 0 }
    | _ => view
  | _ => view

def Pc.inside : Pc → Bool
  | .retypeWrite .. | .frameLoad .. | .frameCas .. | .frameUnmap .. | .frameClearCnt ..
  | .frameClearType .. | .frameRestore .. | .frameRestoreCas .. => true
  | _ => false

def overlay (view : SetView) : Pc → Nat → RefcntAtom
  | .retypeWrite type i, k => ⟨if k < i then type else .untyped, view.refCnt k⟩
  | .frameLoad old i _ _, k | .frameCas old i _ _ _, k | .frameRestore old i _, k =>
    ⟨if k < i then .retyping else old, view.refCnt k⟩
  | .frameUnmap old i _ _, k | .frameRestoreCas old i _ _, k =>
    ⟨if k < i + 1 then .retyping else old, view.refCnt k⟩
  | .frameClearCnt i, k => if k < i then ⟨.untyped, 0⟩ else ⟨.retyping, view.refCnt k⟩
  | .frameClearType i, k =>
    if k < i then ⟨.untyped, 0⟩ else ⟨.retyping, if k = i then 0 else view.refCnt k⟩
  | _, k => view.atom k

def Settled (type : MemType) : Prop := type = .user ∨ type = .kern

/-- What a core knows at its position.  Outside a retype nothing here depends on
the set. -/
def LocalFacts (tlb : Nat → TlbQuiescence) (view : SetView) (c stamped : Nat) : Pc → Prop
  | .refStamp old => Settled old.type
  | .refCas op old stamp => Settled old.type ∧ (op = false → stamp ≤ stamped)
  | .retypeRead type _ => Settled type
  | .retypeCas type => Settled type
  | .retypeWrite type i => Settled type ∧ view.type = type ∧ i ≤ numCpu
  | .frameLock old => Settled old
  | .frameLoad old i refSum lastUnmap =>
    Settled old ∧ view.type = old ∧ i ≤ numCpu ∧ refSum = ∑ k ∈ range i, view.refCnt k ∧
      ∀ k < i, view.lastUnmap k ≤ lastUnmap
  | .frameCas old i refSum lastUnmap word =>
    Settled old ∧ view.type = old ∧ i < numCpu ∧ refSum = ∑ k ∈ range i, view.refCnt k ∧
      (∀ k < i, view.lastUnmap k ≤ lastUnmap) ∧ word.type = old
  | .frameUnmap old i refSum lastUnmap =>
    Settled old ∧ view.type = old ∧ i < numCpu ∧ refSum = ∑ k ∈ range (i + 1), view.refCnt k ∧
      ∀ k < i, view.lastUnmap k ≤ lastUnmap
  | .frameClearCnt i =>
    i ≤ numCpu ∧ ∑ k ∈ range numCpu, view.refCnt k = 0 ∧
      ∀ k < numCpu, tlbQuiescenceCheck tlb c (view.lastUnmap k) = true
  | .frameClearType i =>
    i < numCpu ∧ ∑ k ∈ range numCpu, view.refCnt k = 0 ∧
      ∀ k < numCpu, tlbQuiescenceCheck tlb c (view.lastUnmap k) = true
  | .frameRestore old i ret => Settled old ∧ view.type = old ∧ i ≤ numCpu ∧ ret ≠ 0
  | .frameRestoreCas old i word ret =>
    Settled old ∧ view.type = old ∧ i < numCpu ∧ ret ≠ 0 ∧ word = ⟨.retyping, view.refCnt i⟩
  | .died => False
  | _ => True

/-- The words of the table are what the committed calls have produced, up to
the writes of the one core that is inside a retype. -/
structure Produced (m : Machine) (view : SetView) : Prop where
  unlocked : (∀ c < numCpu, (m.pc c).inside = false) →
    m.glbType = view.type ∧ ∀ k < numCpu, m.atom k = view.atom k
  locked : ∀ c < numCpu, (m.pc c).inside = true →
    m.glbType = .retyping ∧ ∀ k < numCpu, m.atom k = overlay view (m.pc c) k

structure Invariant (m : Machine) (view : SetView) : Prop extends Produced m view where
  settled : view.type ≠ .retyping
  exclusive : ∀ c < numCpu, ∀ d < numCpu, (m.pc c).inside = true → (m.pc d).inside = true → c = d
  facts : ∀ c < numCpu, LocalFacts m.tlb view c (m.entries c).lastUnmap (m.pc c)
  stamped : ∀ k < numCpu, view.lastUnmap k ≤ (m.entries k).lastUnmap
  clock : ∀ k < numCpu, (m.entries k).lastUnmap ≤ m.tsc

namespace Machine

@[simp]
theorem goto_pc_self (m : Machine) (c : Nat) (pc : Pc) : (m.goto c pc).pc c = pc := by
  simp [goto]

theorem goto_pc_other (m : Machine) {c d : Nat} (pc : Pc) (different : d ≠ c) :
    (m.goto c pc).pc d = m.pc d := by
  simp [goto, different]

@[simp]
theorem goto_atom (m : Machine) (c : Nat) (pc : Pc) (k : Nat) :
    (m.goto c pc).atom k = m.atom k := rfl

@[simp]
theorem setGlb_atom (m : Machine) (type : MemType) (k : Nat) :
    (m.setGlb type).atom k = m.atom k := rfl

theorem setEntry_atom (m : Machine) (i : Nat) (entry : RetypeEntry) (k : Nat) :
    (m.setEntry i entry).atom k = if k = i then entry.refcntAtom else m.atom k := by
  by_cases same : k = i <;> simp [setEntry, atom, same]

theorem setEntry_lastUnmap {m : Machine} {i : Nat} {entry : RetypeEntry}
    (kept : entry.lastUnmap = (m.entries i).lastUnmap) (k : Nat) :
    ((m.setEntry i entry).entries k).lastUnmap = (m.entries k).lastUnmap := by
  by_cases same : k = i
  · subst same
    simp [setEntry, kept]
  · simp [setEntry, same]

end Machine

theorem Settled.ne_retyping {type : MemType} (settled : Settled type) : type ≠ .retyping := by
  rcases settled with rfl | rfl <;> decide

theorem Settled.ne_untyped {type : MemType} (settled : Settled type) : type ≠ .untyped := by
  rcases settled with rfl | rfl <;> decide

/-- Outside a retype the facts of a core survive whatever happens to the set. -/
theorem LocalFacts.outside {tlb tlb' : Nat → TlbQuiescence} {view view' : SetView}
    {c stamped stamped' : Nat} {pc : Pc} (facts : LocalFacts tlb view c stamped pc)
    (outside : pc.inside = false) (later : stamped ≤ stamped') :
    LocalFacts tlb' view' c stamped' pc := by
  cases pc with
  | refCas op old stamp => exact ⟨facts.1, fun deref => (facts.2 deref).trans later⟩
  | _ => first | exact facts | simp [Pc.inside] at outside

theorem LocalFacts.mono {tlb tlb' : Nat → TlbQuiescence} {view : SetView}
    {c stamped stamped' : Nat} {pc : Pc} (facts : LocalFacts tlb view c stamped pc)
    (periodic : ∀ i, (tlb i).lastPeriodicFlush ≤ (tlb' i).lastPeriodicFlush)
    (mandatory : ∀ i, (tlb i).lastMandatoryFlush ≤ (tlb' i).lastMandatoryFlush)
    (later : stamped ≤ stamped') : LocalFacts tlb' view c stamped' pc := by
  cases pc with
  | refCas op old stamp => exact ⟨facts.1, fun deref => (facts.2 deref).trans later⟩
  | frameClearCnt i =>
    exact ⟨facts.1, facts.2.1, fun k bounded =>
      tlbQuiescenceCheck_mono le_rfl periodic mandatory (facts.2.2 k bounded)⟩
  | frameClearType i =>
    exact ⟨facts.1, facts.2.1, fun k bounded =>
      tlbQuiescenceCheck_mono le_rfl periodic mandatory (facts.2.2 k bounded)⟩
  | _ => exact facts

theorem Invariant.of_outside {m m' : Machine} {view view' : SetView} {c : Nat} {pc : Pc}
    (invariant : Invariant m view) (was : (m.pc c).inside = false) (stays : pc.inside = false)
    (glbType : m'.glbType = m.glbType) (pcs : m'.pc = update m.pc c pc)
    (tlb : m'.tlb = m.tlb) (type : view'.type = view.type)
    (stamps : ∀ k < numCpu, (m.entries k).lastUnmap ≤ (m'.entries k).lastUnmap ∧
      (m'.entries k).lastUnmap ≤ m'.tsc ∧ view'.lastUnmap k ≤ (m'.entries k).lastUnmap)
    (facts : LocalFacts m.tlb view' c (m'.entries c).lastUnmap pc)
    (words : ∀ holder, (∀ k < numCpu, m.atom k = overlay view holder k) →
      ∀ k < numCpu, m'.atom k = overlay view' holder k)
    (holds : ∀ d stamped holder, holder.inside = true →
      (∀ k < numCpu, m.atom k = overlay view holder k) →
      LocalFacts m.tlb view d stamped holder → LocalFacts m.tlb view' d stamped holder) :
    Invariant m' view' := by
  have self : m'.pc c = pc := by rw [pcs, update_self]
  have other : ∀ d, d ≠ c → m'.pc d = m.pc d := by
    intro d different
    rw [pcs, update_of_ne different]
  have holder : ∀ d, (m'.pc d).inside = true → d ≠ c ∧ m'.pc d = m.pc d := by
    intro d inside
    have different : d ≠ c := by
      rintro rfl
      rw [self, stays] at inside
      cases inside
    exact ⟨different, other d different⟩
  refine ⟨⟨?_, ?_⟩, ?_, ?_, ?_, ?_, ?_⟩
  · intro noneInside
    have before : ∀ d < numCpu, (m.pc d).inside = false := by
      intro d bounded
      by_cases same : d = c
      · rw [same, was]
      · rw [← other d same, noneInside d bounded]
    obtain ⟨global, atoms⟩ := invariant.unlocked before
    exact ⟨by rw [glbType, global, type], words .idle atoms⟩
  · intro d bounded inside
    obtain ⟨-, same⟩ := holder d inside
    rw [same] at inside ⊢
    obtain ⟨global, atoms⟩ := invariant.locked d bounded inside
    exact ⟨by rw [glbType, global], words _ atoms⟩
  · rw [type]
    exact invariant.settled
  · intro d boundedD e boundedE insideD insideE
    obtain ⟨-, sameD⟩ := holder d insideD
    obtain ⟨-, sameE⟩ := holder e insideE
    rw [sameD] at insideD
    rw [sameE] at insideE
    exact invariant.exclusive d boundedD e boundedE insideD insideE
  · intro d bounded
    rw [tlb]
    by_cases same : d = c
    · subst same
      rw [self]
      exact facts
    · rw [other d same]
      have before := invariant.facts d bounded
      cases inside : (m.pc d).inside with
      | false => exact before.outside inside (stamps d bounded).1
      | true =>
        have kept := holds d _ _ inside (invariant.locked d bounded inside).2 before
        exact kept.mono (fun _ => le_rfl) (fun _ => le_rfl) (stamps d bounded).1
  · exact fun k bounded => (stamps k bounded).2.2
  · exact fun k bounded => (stamps k bounded).2.1

theorem Invariant.goto_outside {m : Machine} {view : SetView} {c : Nat} {pc : Pc}
    (invariant : Invariant m view) (was : (m.pc c).inside = false) (stays : pc.inside = false)
    (facts : LocalFacts m.tlb view c (m.entries c).lastUnmap pc) :
    Invariant (m.goto c pc) view :=
  invariant.of_outside was stays rfl rfl rfl rfl
    (fun k bounded => ⟨le_rfl, invariant.clock k bounded, invariant.stamped k bounded⟩) facts
    (fun _ atoms => atoms) (fun _ _ _ _ _ facts => facts)

theorem overlay_outside (view : SetView) {pc : Pc} (outside : pc.inside = false) (k : Nat) :
    overlay view pc k = view.atom k := by
  cases pc with
  | _ => first | rfl | simp [Pc.inside] at outside

theorem Invariant.of_alone {m m' : Machine} {view view' : SetView} {c : Nat} {pc : Pc}
    (invariant : Invariant m view) (bounded : c < numCpu)
    (alone : ∀ d < numCpu, d ≠ c → (m.pc d).inside = false)
    (pcs : m'.pc = update m.pc c pc)
    (glbType : m'.glbType = if pc.inside then .retyping else view'.type)
    (tlb : m'.tlb = m.tlb) (tsc : m'.tsc = m.tsc)
    (entries : ∀ k, (m'.entries k).lastUnmap = (m.entries k).lastUnmap)
    (settled : view'.type ≠ .retyping) (unmaps : view'.lastUnmap = view.lastUnmap)
    (words : ∀ k < numCpu, m'.atom k = overlay view' pc k)
    (facts : LocalFacts m.tlb view' c (m.entries c).lastUnmap pc) : Invariant m' view' := by
  have self : m'.pc c = pc := by rw [pcs, update_self]
  have other : ∀ d, d ≠ c → m'.pc d = m.pc d := by
    intro d different
    rw [pcs, update_of_ne different]
  have holder : ∀ d < numCpu, (m'.pc d).inside = true → d = c := by
    intro d boundedD inside
    by_contra different
    rw [other d different, alone d boundedD different] at inside
    cases inside
  refine ⟨⟨?_, ?_⟩, settled, ?_, ?_, ?_, ?_⟩
  · intro noneInside
    have outside : pc.inside = false := by rw [← self]; exact noneInside c bounded
    rw [glbType, outside]
    exact ⟨rfl, fun k boundedK => by rw [words k boundedK, overlay_outside view' outside]⟩
  · intro d boundedD inside
    obtain rfl := holder d boundedD inside
    rw [self] at inside ⊢
    exact ⟨by rw [glbType, inside, if_pos rfl], words⟩
  · intro d boundedD e boundedE insideD insideE
    rw [holder d boundedD insideD, holder e boundedE insideE]
  · intro d boundedD
    rw [tlb, entries]
    by_cases same : d = c
    · subst same
      rw [self]
      exact facts
    · rw [other d same]
      exact (invariant.facts d boundedD).outside (alone d boundedD same) le_rfl
  · intro k boundedK
    rw [unmaps, entries]
    exact invariant.stamped k boundedK
  · intro k boundedK
    rw [tsc, entries]
    exact invariant.clock k boundedK

theorem Invariant.unlocked_of_glbType {m : Machine} {view : SetView}
    (invariant : Invariant m view) (free : m.glbType ≠ .retyping) :
    ∀ d < numCpu, (m.pc d).inside = false := by
  intro d bounded
  by_contra inside
  exact free (invariant.locked d bounded (by simpa using inside)).1

section Holder

variable {m : Machine} {view view' : SetView} {c : Nat} {pc : Pc}

variable (invariant : Invariant m view) (bounded : c < numCpu)

include invariant bounded

theorem Invariant.enter (free : m.glbType ≠ .retyping) (inside : pc.inside = true)
    (settled : view'.type ≠ .retyping) (unmaps : view'.lastUnmap = view.lastUnmap)
    (words : ∀ k < numCpu, m.glbType = view.type → view.atom k = overlay view' pc k)
    (facts : LocalFacts m.tlb view' c (m.entries c).lastUnmap pc) :
    Invariant ((m.setGlb .retyping).goto c pc) view' := by
  have unlocked := invariant.unlocked_of_glbType free
  obtain ⟨global, atoms⟩ := invariant.unlocked unlocked
  refine invariant.of_alone bounded (fun d boundedD _ => unlocked d boundedD) rfl ?_ rfl rfl
    (fun _ => rfl) settled unmaps ?_ facts
  · rw [inside, if_pos rfl]
    rfl
  · intro k boundedK
    rw [← words k boundedK global]
    exact atoms k boundedK

variable {was : Pc} (stands : m.pc c = was) (inside : was.inside = true)

include stands inside

theorem Invariant.lockedAt : m.glbType = .retyping ∧
    ∀ k < numCpu, m.atom k = overlay view was k := by
  subst stands
  exact invariant.locked c bounded inside

theorem Invariant.wordAt {i : Nat} (within : i < numCpu) :
    (m.entries i).refcntAtom = overlay view was i :=
  (invariant.lockedAt bounded stands inside).2 i within

theorem Invariant.others_outside : ∀ d < numCpu, d ≠ c → (m.pc d).inside = false := by
  intro d boundedD different
  by_contra insideD
  exact different
    (invariant.exclusive d boundedD c bounded (by simpa using insideD) (stands ▸ inside))

theorem Invariant.goto_inside (stays : pc.inside = true)
    (words : ∀ k < numCpu, overlay view was k = overlay view pc k)
    (facts : LocalFacts m.tlb view c (m.entries c).lastUnmap pc) :
    Invariant (m.goto c pc) view := by
  obtain ⟨global, atoms⟩ := invariant.lockedAt bounded stands inside
  refine invariant.of_alone bounded (invariant.others_outside bounded stands inside) rfl ?_ rfl rfl
    (fun _ => rfl) invariant.settled rfl ?_ facts
  · rw [stays, if_pos rfl]
    exact global
  · intro k boundedK
    rw [Machine.goto_atom, atoms k boundedK, words k boundedK]

/-- The holder of the lock writes the word of core `i`. -/
theorem Invariant.write (stays : pc.inside = true) {i : Nat} {entry : RetypeEntry}
    (kept : entry.lastUnmap = (m.entries i).lastUnmap)
    (written : entry.refcntAtom = overlay view pc i)
    (others : ∀ k, k ≠ i → overlay view was k = overlay view pc k)
    (facts : LocalFacts m.tlb view c (m.entries c).lastUnmap pc) :
    Invariant ((m.setEntry i entry).goto c pc) view := by
  obtain ⟨global, atoms⟩ := invariant.lockedAt bounded stands inside
  refine invariant.of_alone bounded (invariant.others_outside bounded stands inside) rfl ?_ rfl rfl
    (Machine.setEntry_lastUnmap kept) invariant.settled rfl ?_ facts
  · rw [stays, if_pos rfl]
    exact global
  · intro k boundedK
    rw [Machine.goto_atom, Machine.setEntry_atom]
    split_ifs with self
    · rw [written, self]
    · rw [atoms k boundedK, others k self]

/-- The holder of the lock releases it and returns. -/
theorem Invariant.leave (view' : SetView) {ret : Int} (settled : view'.type ≠ .retyping)
    (unmaps : view'.lastUnmap = view.lastUnmap)
    (words : ∀ k < numCpu, overlay view was k = view'.atom k) :
    Invariant ((m.setGlb view'.type).goto c (.returned ret)) view' := by
  obtain ⟨-, atoms⟩ := invariant.lockedAt bounded stands inside
  refine invariant.of_alone bounded (invariant.others_outside bounded stands inside) rfl rfl rfl rfl
    (fun _ => rfl) settled unmaps ?_ trivial
  intro k boundedK
  rw [overlay_outside view' rfl, ← words k boundedK]
  exact atoms k boundedK

end Holder

section Reference

variable {view : SetView} {holder : Pc} {c : Nat} (count : Int) (unmaps : Nat → Nat)

theorem not_settled_clearing {i : Nat} : ¬Settled (overlay view (.frameClearCnt i) c).type ∧
    ¬Settled (overlay view (.frameClearType i) c).type := by
  by_cases cleared : c < i <;> simp [overlay, cleared, Settled]

theorem overlay_refCnt (usable : Settled (overlay view holder c).type) :
    (overlay view holder c).refCnt = view.refCnt c := by
  cases holder with
  | frameClearCnt i => exact absurd usable not_settled_clearing.1
  | frameClearType i => exact absurd usable not_settled_clearing.2
  | _ => rfl

theorem overlay_reference (usable : Settled (overlay view holder c).type) (k : Nat) :
    overlay { view with refCnt := update view.refCnt c count, lastUnmap := unmaps }
        holder k =
      if k = c then ⟨(overlay view holder c).type, count⟩ else overlay view holder k := by
  by_cases same : k = c
  · subst same
    cases holder with
    | frameClearCnt i => exact absurd usable not_settled_clearing.1
    | frameClearType i => exact absurd usable not_settled_clearing.2
    | _ => simp [overlay, SetView.atom]
  · cases holder with
    | _ => simp [overlay, SetView.atom, same]

theorem sum_update_of_le {count : Int} {refCnt : Nat → Int} {i : Nat} (beyond : i ≤ c) :
    ∑ k ∈ range i, update refCnt c count k = ∑ k ∈ range i, refCnt k := by
  refine Finset.sum_congr rfl fun k member => ?_
  have bounded : k < i := by simpa using member
  rw [update_of_ne (by omega)]

/-- A holder of the lock has not used the count of a word it has not locked. -/
theorem LocalFacts.reference {tlb : Nat → TlbQuiescence} {d stamped : Nat}
    (usable : Settled (overlay view holder c).type)
    (elsewhere : ∀ k, k ≠ c → unmaps k = view.lastUnmap k) (inside : holder.inside = true)
    (facts : LocalFacts tlb view d stamped holder) :
    LocalFacts tlb
      { view with refCnt := update view.refCnt c count, lastUnmap := unmaps }
      d stamped holder := by
  have beyond : ∀ {i old}, Settled (if c < i then MemType.retyping else old) → i ≤ c := by
    intro i old settled
    by_contra locked
    simp [not_le.mp locked, Settled] at settled
  have latest : ∀ {i lastUnmap}, i ≤ c → (∀ k < i, view.lastUnmap k ≤ lastUnmap) →
      ∀ k < i, unmaps k ≤ lastUnmap :=
    fun ordered latest k smaller => (elsewhere k (by omega)).trans_le (latest k smaller)
  cases holder with
  | retypeWrite type i => exact facts
  | frameRestore old i ret => exact facts
  | frameLoad old i refSum lastUnmap =>
    obtain ⟨settled, type, bounded, sum, before⟩ := facts
    exact ⟨settled, type, bounded, by rw [sum, sum_update_of_le (beyond usable)],
      latest (beyond usable) before⟩
  | frameCas old i refSum lastUnmap word =>
    obtain ⟨settled, type, bounded, sum, before, wordType⟩ := facts
    exact ⟨settled, type, bounded, by rw [sum, sum_update_of_le (beyond usable)],
      latest (beyond usable) before, wordType⟩
  | frameUnmap old i refSum lastUnmap =>
    obtain ⟨settled, type, bounded, sum, before⟩ := facts
    exact ⟨settled, type, bounded, by rw [sum, sum_update_of_le (beyond usable)],
      latest (Nat.le_of_succ_le (beyond usable)) before⟩
  | frameRestoreCas old i word ret =>
    obtain ⟨settled, type, bounded, failed, word⟩ := facts
    have other : i ≠ c := Nat.ne_of_lt (beyond usable)
    exact ⟨settled, type, bounded, failed, by simpa [other] using word⟩
  | frameClearCnt i => exact absurd usable not_settled_clearing.1
  | frameClearType i => exact absurd usable not_settled_clearing.2
  | _ => simp [Pc.inside] at inside

end Reference

end Composite.RetypeProtocol
