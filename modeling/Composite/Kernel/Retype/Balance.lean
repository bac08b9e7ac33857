import Composite.Lib.Transition
import Composite.Kernel.Retype.Calls

/-!
# The balance of references

The count of a memory set on a core is a signed field of 28 bits.  It is compared
with the largest value of an unsigned one, so that a reference or a dereference at
the limit of the field wraps around.
-/

namespace Composite

open Procedure Kernel

inductive RetypeEvent where
  | kernRef (cpu page : Nat)
  | ref (cpu page : Nat)
  | deref (cpu page : Nat)
  | retype2user (page : Nat)
  | retype2kern (page : Nat)
  | retype2frame (cpu page : Nat)
  | time (tsc : Nat)
  | flush (cpu : Nat) (record : TlbQuiescence)
  deriving DecidableEq, Repr

namespace RetypeEvent

def call : RetypeEvent → KCall Unit
  | .kernRef cpu page => retypetblKernRef cpu page
  | .ref cpu page => retypetblRef cpu page
  | .deref cpu page => retypetblDeref cpu page
  | .retype2user page => retypetblRetype2user page
  | .retype2kern page => retypetblRetype2kern page
  | .retype2frame cpu page => retypetblRetype2frame cpu page
  | .time tsc => update fun k => { k with tsc := tsc }
  | .flush cpu record => update fun k => { k with tlb := Function.update k.tlb cpu record }

def next (k : Kernel) (event : RetypeEvent) : Option Kernel := (event.call k).toOption.map (·.2)

def succeeds (k : Kernel) (event : RetypeEvent) : Bool :=
  match event.call k with
  | .ok (.ok (), _) => true
  | _ => false

def balance (k : Kernel) (event : RetypeEvent) (counts : Nat → Nat → Int) : Nat → Nat → Int :=
  if event.succeeds k then
    match event with
    | .kernRef cpu page | .ref cpu page =>
      Function.update counts cpu (Function.update (counts cpu) page (counts cpu page + 1))
    | .deref cpu page =>
      Function.update counts cpu (Function.update (counts cpu) page (counts cpu page - 1))
    | .retype2user page | .retype2kern page | .retype2frame _ page =>
      fun cpu => Function.update (counts cpu) page 0
    | _ => counts
  else counts

end RetypeEvent

/-! What the stores do to the word of an entry. -/

namespace Memory

variable (m : Memory) (page : Nat) (type : MemType) {cpu : Nat} (valid : cpu < numCpu) (other : Nat)

include valid in
theorem setMemType_refcntAtom :
    ((m.setMemType page type).entries cpu other).refcntAtom =
      ⟨if other = page then type else (m.entries cpu other).refcntAtom.type,
        (m.entries cpu other).refcntAtom.refCnt⟩ := by
  by_cases same : other = page
  · subst same
    simp [setMemType, valid]
  · simp [setMemType, valid, same]

@[simp]
theorem setMemType_glb :
    (m.setMemType page type).glb other = if other = page then type else m.glb other :=
  Function.update_apply _ _ _ _

include valid in
theorem clearRefCnt_refcntAtom :
    ((m.clearRefCnt page).entries cpu other).refcntAtom =
      ⟨(m.entries cpu other).refcntAtom.type,
        if other = page then 0 else (m.entries cpu other).refcntAtom.refCnt⟩ := by
  by_cases same : other = page
  · subst same
    simp [clearRefCnt, valid]
  · simp [clearRefCnt, valid, same]

end Memory

/-! The calls. -/

theorem modRefCnt_outcome (k : Kernel) (cpu page : Nat) (op : Bool) (typeCheck : Option MemType) :
    (modRefCnt cpu page op typeCheck).Ensures k fun outcome k' =>
      match outcome with
      | .error _ => k' = k
      | .ok () => cosMemBound ≤ page ∧ k' = k ∨ page < cosMemBound ∧
          (k.memory.entries cpu page).refcntAtom.type ≠ .untyped ∧
          ∃ entry : RetypeEntry, entry.refcntAtom = ⟨(k.memory.entries cpu page).refcntAtom.type,
            refcntField ((k.memory.entries cpu page).refcntAtom.refCnt + if op then 1 else -1)⟩ ∧
          k' = { k with memory := k.memory.setEntry cpu page entry } := by
  refine ensures_ite.mpr ⟨fun fixed => ensures_pure.mpr (.inl ⟨of_decide_eq_true fixed, rfl⟩), ?_⟩
  intro covered
  have below : page < cosMemBound := not_le.mp fun above => covered (decide_eq_true above)
  refine read_bind ?_
  refine leaveIf_bind (fun _ => rfl) fun _ => ?_
  refine leaveIf_bind (fun _ => rfl) fun typed => ?_
  refine leaveIf_bind (fun _ => rfl) fun _ => ?_
  refine leaveIf_bind (fun _ => rfl) fun _ => ensures_update.mpr ?_
  refine .inr ⟨below, fun untyped => typed ?_, _, ?_, rfl⟩
  · rw [id_eq, untyped]
    exact ⟨nofun, nofun⟩
  · cases op <;> rfl

theorem modMemType_outcome (k : Kernel) (page : Nat) (type : MemType) :
    (modMemType page type).Ensures k fun outcome k' =>
      match outcome with
      | .error _ => k' = k
      | .ok () => cosMemBound ≤ page ∧ k' = k ∨ k.memory.glb page = .untyped ∧
          k' = { k with memory := k.memory.setMemType page type } := by
  refine require_bind fun _ => ?_
  refine ensures_ite.mpr ⟨fun fixed => ensures_pure.mpr (.inl ⟨of_decide_eq_true fixed, rfl⟩), ?_⟩
  intro _
  refine read_bind ?_
  refine leaveIf_bind (fun _ => rfl) fun _ => ?_
  refine leaveIf_bind (fun _ => rfl) fun _ => ?_
  refine leaveIf_bind (fun _ => rfl) fun untyped => ?_
  refine leaveIf_bind (fun _ => rfl) fun _ => ensures_update.mpr ?_
  exact .inr ⟨not_not.mp untyped, rfl⟩

theorem retypetblRetype2frame_outcome (k : Kernel) (cpu page : Nat) :
    (retypetblRetype2frame cpu page).Ensures k fun outcome k' =>
      match outcome with
      | .error _ => k' = k ∨ k' = { k with
          memory := (k.memory.setMemType page .retyping).setMemType page (k.memory.glb page) }
      | .ok () => k' = { k with
          memory := ((k.memory.setMemType page .retyping).clearRefCnt page).setMemType page
            .untyped } := by
  refine read_bind ?_
  refine leaveIf_bind (fun _ => .inl rfl) fun _ => ?_
  refine leaveIf_bind (fun _ => .inl rfl) fun _ => ?_
  refine require_bind fun _ => ?_
  refine update_bind ?_
  refine ensures_ite.mpr ⟨fun _ => ?_, fun _ => ensures_ite.mpr ⟨fun _ => ?_, fun _ => ?_⟩⟩
  · exact update_bind (ensures_leave.mpr (.inr rfl))
  · exact update_bind (ensures_leave.mpr (.inr rfl))
  · exact ensures_update.mpr rfl

/-! The invariant. -/

def Kernel.refCnt (k : Kernel) (cpu page : Nat) : Int :=
  (k.memory.entries cpu page).refcntAtom.refCnt

/-- The counts are the balances `counts`, for every set that the table covers. -/
structure Balanced (k : Kernel) (counts : Nat → Nat → Int) : Prop where
  typed : ∀ cpu < numCpu, ∀ page, (k.memory.entries cpu page).refcntAtom.type = k.memory.glb page
  exact : ∀ cpu < numCpu, ∀ page < cosMemBound, k.refCnt cpu page = counts cpu page
  fits : ∀ cpu < numCpu, ∀ page, -2 ^ 27 ≤ k.refCnt cpu page ∧ k.refCnt cpu page < 2 ^ 27
  untyped : ∀ page, k.memory.glb page = .untyped → ∀ cpu < numCpu, k.refCnt cpu page = 0

def RetypeEvent.NoWrap (k : Kernel) : RetypeEvent → Prop
  | .kernRef cpu page | .ref cpu page => k.refCnt cpu page ≠ 2 ^ 27 - 1
  | .deref cpu page => k.refCnt cpu page ≠ -2 ^ 27
  | _ => True

instance (k : Kernel) : ∀ event : RetypeEvent, Decidable (event.NoWrap k)
  | .kernRef .. | .ref .. => inferInstanceAs (Decidable (_ ≠ _))
  | .deref .. => inferInstanceAs (Decidable (_ ≠ _))
  | .retype2user _ | .retype2kern _ | .retype2frame .. | .time _ | .flush .. =>
    inferInstanceAs (Decidable True)

theorem refcntField_eq {value : Int} (low : -2 ^ 27 ≤ value) (high : value < 2 ^ 27) :
    refcntField value = value := by
  unfold refcntField
  rw [Int.bmod_eq_of_le_mul_two]
  · omega
  · omega

namespace Balanced

variable {k : Kernel} {counts : Nat → Nat → Int}

section

variable (balanced : Balanced k counts)

include balanced

/-- A reference is taken or dropped. -/
theorem count {cpu page : Nat} {entry : RetypeEntry} {step : Int}
    (typed : (k.memory.entries cpu page).refcntAtom.type ≠ .untyped)
    (stored : entry.refcntAtom = ⟨(k.memory.entries cpu page).refcntAtom.type,
      refcntField (k.refCnt cpu page + step)⟩)
    (room : cpu < numCpu → -2 ^ 27 ≤ k.refCnt cpu page + step ∧ k.refCnt cpu page + step < 2 ^ 27) :
    Balanced { k with memory := k.memory.setEntry cpu page entry }
      (Function.update counts cpu
        (Function.update (counts cpu) page (counts cpu page + step))) := by
  have after : ∀ core < numCpu, ∀ other,
      ((k.memory.setEntry cpu page entry).entries core other).refcntAtom =
        ⟨(k.memory.entries core other).refcntAtom.type,
          k.refCnt core other + if core = cpu ∧ other = page then step else 0⟩ := by
    intro core valid other
    rw [Memory.setEntry_entries]
    split_ifs with here
    · obtain ⟨rfl, rfl⟩ := here
      rw [stored, refcntField_eq (room valid).1 (room valid).2]
    · rw [add_zero]
      rfl
  refine ⟨fun core valid other => ?_, fun core valid other below => ?_,
    fun core valid other => ?_, fun other untyped core valid => ?_⟩
  · show ((k.memory.setEntry cpu page entry).entries core other).refcntAtom.type = _
    rw [after core valid]
    exact balanced.typed core valid other
  · show ((k.memory.setEntry cpu page entry).entries core other).refcntAtom.refCnt = _
    rw [after core valid, balanced.exact core valid other below]
    by_cases sameCore : core = cpu
    · subst sameCore
      by_cases samePage : other = page
      · simp [samePage]
      · simp [samePage]
    · simp [sameCore]
  · show -2 ^ 27 ≤ ((k.memory.setEntry cpu page entry).entries core other).refcntAtom.refCnt ∧
      ((k.memory.setEntry cpu page entry).entries core other).refcntAtom.refCnt < 2 ^ 27
    rw [after core valid]
    dsimp only
    split_ifs with here
    · obtain ⟨rfl, rfl⟩ := here
      exact room valid
    · rw [add_zero]
      exact balanced.fits core valid other
  · show ((k.memory.setEntry cpu page entry).entries core other).refcntAtom.refCnt = 0
    have different : ¬(core = cpu ∧ other = page) := by
      rintro ⟨rfl, rfl⟩
      exact typed ((balanced.typed core valid other).trans untyped)
    rw [after core valid, if_neg different, add_zero]
    exact balanced.untyped other untyped core valid

/-- One set is changed as a whole. -/
theorem change (page : Nat) {m : Memory} {counts' : Nat → Nat → Int}
    (glb : ∀ other ≠ page, m.glb other = k.memory.glb other)
    (kept : ∀ core < numCpu, ∀ other ≠ page,
      (m.entries core other).refcntAtom = (k.memory.entries core other).refcntAtom ∧
        counts' core other = counts core other)
    (own : ∀ core < numCpu, ∃ count, (m.entries core page).refcntAtom = ⟨m.glb page, count⟩ ∧
      (page < cosMemBound → count = counts' core page) ∧ (-2 ^ 27 ≤ count ∧ count < 2 ^ 27) ∧
      (m.glb page = .untyped → count = 0)) : Balanced { k with memory := m } counts' := by
  refine ⟨fun core valid other => ?_, fun core valid other below => ?_,
    fun core valid other => ?_, fun other free core valid => ?_⟩
  · by_cases same : other = page
    · obtain ⟨count, word, -⟩ := own core valid
      rw [same, word]
    · rw [(kept core valid other same).1, glb other same]
      exact balanced.typed core valid other
  · show (m.entries core other).refcntAtom.refCnt = _
    by_cases same : other = page
    · obtain ⟨count, word, value, -⟩ := own core valid
      rw [same, word]
      exact value (same ▸ below)
    · rw [(kept core valid other same).1, (kept core valid other same).2]
      exact balanced.exact core valid other below
  · unfold Kernel.refCnt
    by_cases same : other = page
    · obtain ⟨count, word, -, fits, -⟩ := own core valid
      rw [same, word]
      exact fits
    · rw [(kept core valid other same).1]
      exact balanced.fits core valid other
  · show (m.entries core other).refcntAtom.refCnt = 0
    by_cases same : other = page
    · obtain ⟨count, word, -, -, untyped⟩ := own core valid
      rw [same, word]
      exact untyped (same ▸ free)
    · rw [(kept core valid other same).1]
      exact balanced.untyped other (glb other same ▸ free) core valid

/-- A set without a type gets one. -/
theorem retype {page : Nat} {type : MemType} (untyped : k.memory.glb page = .untyped) :
    Balanced { k with memory := k.memory.setMemType page type }
      (fun cpu => Function.update (counts cpu) page 0) := by
  refine balanced.change page (fun other different => by simp [different]) ?_ ?_
  · intro core valid other different
    simp [Memory.setMemType_refcntAtom _ _ _ valid, different]
  · intro core valid
    have zero : (k.memory.entries core page).refcntAtom.refCnt = 0 :=
      balanced.untyped page untyped core valid
    refine ⟨0, ?_, fun _ => by simp, by decide, fun _ => rfl⟩
    simp [Memory.setMemType_refcntAtom _ _ _ valid, zero]

/-- The type of a set is taken away and given back. -/
theorem restore (page : Nat) :
    Balanced { k with
      memory := (k.memory.setMemType page .retyping).setMemType page (k.memory.glb page) }
      counts := by
  refine balanced.change page (fun other different => by simp [different]) ?_ ?_
  · intro core valid other different
    simp [Memory.setMemType_refcntAtom _ _ _ valid, different]
  · intro core valid
    refine ⟨k.refCnt core page, ?_, balanced.exact core valid page, balanced.fits core valid page,
      fun free => balanced.untyped page (by simpa using free) core valid⟩
    simp [Memory.setMemType_refcntAtom _ _ _ valid, Kernel.refCnt]

/-- A set is released. -/
theorem release (page : Nat) :
    Balanced { k with
      memory := ((k.memory.setMemType page .retyping).clearRefCnt page).setMemType page .untyped }
      (fun cpu => Function.update (counts cpu) page 0) := by
  refine balanced.change page (fun other different => ?_) ?_ ?_
  · rw [Memory.setMemType_glb, if_neg different]
    exact (Memory.setMemType_glb _ _ _ _).trans (if_neg different)
  · intro core valid other different
    simp [Memory.setMemType_refcntAtom _ _ _ valid, Memory.clearRefCnt_refcntAtom _ _ valid,
      different]
  · intro core valid
    refine ⟨0, ?_, fun _ => by simp, by decide, fun _ => rfl⟩
    simp [Memory.setMemType_refcntAtom _ _ _ valid, Memory.clearRefCnt_refcntAtom _ _ valid]

theorem congr {counts' : Nat → Nat → Int}
    (same : ∀ cpu, ∀ page < cosMemBound, counts' cpu page = counts cpu page) : Balanced k counts' :=
  ⟨balanced.typed, fun cpu valid page below =>
    (balanced.exact cpu valid page below).trans (same cpu page below).symm,
    balanced.fits, balanced.untyped⟩

variable {outcome : Except Int Unit}

theorem modRefCnt {k' : Kernel} {cpu page : Nat} {op : Bool} {typeCheck : Option MemType}
    (ran : modRefCnt cpu page op typeCheck k = .ok (outcome, k'))
    (room : k.refCnt cpu page ≠ if op then 2 ^ 27 - 1 else -2 ^ 27) :
    Balanced k' (if outcome = .ok () then Function.update counts cpu
      (Function.update (counts cpu) page (counts cpu page + if op then 1 else -1))
      else counts) := by
  have after := modRefCnt_outcome k cpu page op typeCheck _ _ ran
  cases outcome with
  | error code => exact after ▸ balanced
  | ok value =>
    rw [if_pos rfl]
    rcases after with ⟨above, rfl⟩ | ⟨-, typed, entry, stored, rfl⟩
    · refine balanced.congr fun core other below => ?_
      have different : other ≠ page := by omega
      by_cases same : core = cpu
      · subst same
        simp [different]
      · simp [same]
    · refine balanced.count typed stored fun valid => ?_
      have fits := balanced.fits cpu valid page
      cases op with
      | true =>
        simp only [if_true] at room ⊢
        omega
      | false =>
        simp only [Bool.false_eq_true, if_false] at room ⊢
        omega

theorem modMemType {k' : Kernel} {page : Nat} {type : MemType}
    (ran : modMemType page type k = .ok (outcome, k')) :
    Balanced k' (if outcome = .ok () then fun cpu => Function.update (counts cpu) page 0
      else counts) := by
  have after := modMemType_outcome k page type _ _ ran
  cases outcome with
  | error code => exact after ▸ balanced
  | ok value =>
    rw [if_pos rfl]
    rcases after with ⟨above, rfl⟩ | ⟨untyped, rfl⟩
    · refine balanced.congr fun core other below => ?_
      have different : other ≠ page := by omega
      exact Function.update_of_ne different _ _
    · exact balanced.retype untyped

theorem retype2frame {k' : Kernel} {cpu page : Nat}
    (ran : retypetblRetype2frame cpu page k = .ok (outcome, k')) :
    Balanced k' (if outcome = .ok () then fun cpu => Function.update (counts cpu) page 0
      else counts) := by
  have after := retypetblRetype2frame_outcome k cpu page _ _ ran
  cases outcome with
  | error code =>
    rcases after with rfl | rfl
    · exact balanced
    · exact balanced.restore page
  | ok value => exact after ▸ balanced.release page

end

end Balanced

namespace RetypeEvent

variable {k k' : Kernel} {counts : Nat → Nat → Int}

theorem call_of_next {event : RetypeEvent} (stepped : event.next k = some k') :
    ∃ outcome, event.call k = .ok (outcome, k') ∧
      (event.succeeds k = true ↔ outcome = .ok ()) := by
  obtain ⟨⟨outcome, after⟩, ran, rfl⟩ := Option.map_eq_some_iff.mp stepped
  cases called : event.call k with
  | error found => simp [called, Except.toOption] at ran
  | ok reached =>
    simp only [called, Except.toOption, Option.some.injEq] at ran
    subst ran
    refine ⟨outcome, rfl, ?_⟩
    cases outcome with
    | error code => simp [succeeds, called]
    | ok value => simp [succeeds, called]

theorem balanced_next {event : RetypeEvent} (balanced : Balanced k counts)
    (noWrap : event.NoWrap k) (stepped : event.next k = some k') :
    Balanced k' (event.balance k counts) := by
  obtain ⟨outcome, ran, succeeded⟩ := call_of_next stepped
  unfold balance
  simp only [succeeded]
  cases event with
  | kernRef cpu page => exact balanced.modRefCnt ran noWrap
  | ref cpu page => exact balanced.modRefCnt ran noWrap
  | deref cpu page => exact balanced.modRefCnt ran noWrap
  | retype2user page => exact balanced.modMemType ran
  | retype2kern page => exact balanced.modMemType ran
  | retype2frame cpu page => exact balanced.retype2frame ran
  | time tsc =>
    cases ran
    exact ⟨balanced.typed, balanced.exact, balanced.fits, balanced.untyped⟩
  | flush cpu record =>
    cases ran
    exact ⟨balanced.typed, balanced.exact, balanced.fits, balanced.untyped⟩

end RetypeEvent

open Transition RetypeEvent

/-- The tables as `retype_tbl_init` leaves them. -/
def Kernel.RetypeInit (k : Kernel) : Prop :=
  (∀ page, k.memory.glb page = .untyped) ∧
    ∀ cpu page, k.memory.entries cpu page = ⟨⟨.untyped, 0⟩, 0⟩

theorem Kernel.RetypeInit.balanced {k : Kernel} (fresh : k.RetypeInit) :
    Balanced k fun _ _ => 0 := by
  obtain ⟨glb, entries⟩ := fresh
  refine ⟨fun cpu _ page => ?_, fun cpu _ page _ => ?_, fun cpu _ page => ?_,
    fun page _ cpu _ => ?_⟩
  · rw [entries, glb]
  · rw [Kernel.refCnt, entries]
  · rw [Kernel.refCnt, entries]
    decide
  · rw [Kernel.refCnt, entries]

/-- As long as no count is changed at the limit of its field, every count is the number of
references taken less those dropped since the last retype. -/
theorem refcnt_balance (k k' : Kernel) (events : List RetypeEvent) (fresh : k.RetypeInit)
    (noWrap : Meets NoWrap next k events) (ran : exec next k events = some k') (cpu page : Nat)
    (valid : cpu < numCpu) (covered : page < cosMemBound) :
    k'.refCnt cpu page = trace next balance k events (fun _ _ => 0) cpu page := by
  have kept : ∀ k event k' counts, Balanced k counts → NoWrap k event → next k event = some k' →
      Balanced k' (balance k event counts) :=
    fun _ _ _ _ balanced noWrap stepped => balanced_next balanced noWrap stepped
  have balanced := exec_invariant_trace kept fresh.balanced noWrap ran
  exact balanced.exact cpu valid page covered

/-! A set of user memory with many references on the first core. -/

def bareKernel : Kernel where
  memory := ⟨fun _ _ => .zero, fun _ => .none, fun _ => .untyped, fun _ _ => ⟨⟨.untyped, 0⟩, 0⟩⟩
  roots := fun _ _ => none
  slots := fun _ _ => ⟨captblInitHeader, .none⟩
  ltbl := ltblInit
  tlb := fun _ => ⟨0, 0⟩
  tsc := 0
  threads := fun _ => .zero
  tcaps := fun _ => ⟨none, 0, 0, 0, 0, 0, 0, fun _ => ⟨0, 0⟩⟩
  cosInfo := fun cpu => ⟨cpu, 1, 0, .clear, 0, [], 0, 0, 0⟩
  pgtbl := fun _ => 0
  tls := fun _ => 0
  hwAsndCaps := fun _ => none
  chalKernelMemPa := 0
  walks := []

theorem bareKernel_retypeInit : bareKernel.RetypeInit := ⟨fun _ => rfl, fun _ _ => rfl⟩

def userKernel (refCnt : Int) : Kernel :=
  { bareKernel with
    memory := (bareKernel.memory.setMemType 0x100 .user).setEntry 0 0x100 ⟨⟨.user, refCnt⟩, 0⟩ }

theorem bareKernel_next : next bareKernel (.retype2user 0x100) = some (userKernel 0) := by
  have same : (bareKernel.memory.setMemType 0x100 .user).setEntry 0 0x100 ⟨⟨.user, 0⟩, 0⟩ =
      bareKernel.memory.setMemType 0x100 .user := by
    have entry : (bareKernel.memory.setMemType 0x100 .user).entries 0 0x100 = ⟨⟨.user, 0⟩, 0⟩ := by
      decide
    rw [← entry]
    simp only [Memory.setEntry, Function.update_eq_self]
  rw [userKernel, same]
  rfl

variable {refCnt : Int}

theorem userKernel_ref (room : refCnt ≠ retypeRefcntMax) :
    (RetypeEvent.ref 0 0x100).call (userKernel refCnt) =
      .ok (.ok (), userKernel (refcntField (refCnt + 1))) := by
  have entry : (userKernel refCnt).memory.entries 0 0x100 = ⟨⟨.user, refCnt⟩, 0⟩ := by
    simp [userKernel]
  have stored : { userKernel refCnt with
      memory := (userKernel refCnt).memory.setEntry 0 0x100
        (RetypeEntry.setRefCnt ⟨⟨.user, refCnt⟩, 0⟩ (refcntField (refCnt + 1))) } =
        userKernel (refcntField (refCnt + 1)) := by
    simp [userKernel, Memory.setEntry, RetypeEntry.setRefCnt]
  have covered : paBoundary (userKernel refCnt).chalKernelMemPa 0x100 := by
    show paBoundary 0 0x100
    decide
  show modRefCntSet 0 0x100 true none (userKernel refCnt) = _
  simp only [modRefCntSet, bind, Procedure.read, leaveIf, id_eq, entry, onMemory, update]
  rw [← stored]
  simp [pure, covered, room]

theorem userKernel_next (room : refCnt ≠ retypeRefcntMax) :
    next (userKernel refCnt) (.ref 0 0x100) = some (userKernel (refcntField (refCnt + 1))) := by
  rw [next, userKernel_ref room]
  rfl

theorem userKernel_balance (room : refCnt ≠ retypeRefcntMax) (counts : Nat → Nat → Int) :
    balance (userKernel refCnt) (.ref 0 0x100) counts 0 0x100 = counts 0 0x100 + 1 := by
  simp [balance, RetypeEvent.succeeds, userKernel_ref room]

theorem userKernel_refs {n refCnt : Nat} (room : refCnt + n < 2 ^ 27) (rest : List RetypeEvent)
    (counts : Nat → Nat → Int) :
    exec next (userKernel refCnt) (List.replicate n (.ref 0 0x100) ++ rest) =
        exec next (userKernel (refCnt + n : Nat)) rest ∧
      ∃ counts', counts' 0 0x100 = counts 0 0x100 + n ∧
        trace next balance (userKernel refCnt) (List.replicate n (.ref 0 0x100) ++ rest) counts =
          trace next balance (userKernel (refCnt + n : Nat)) rest counts' := by
  induction n generalizing refCnt counts with
  | zero => exact ⟨rfl, counts, by simp, rfl⟩
  | succ n ih =>
    have free : (refCnt : Int) ≠ retypeRefcntMax := by
      unfold retypeRefcntMax
      omega
    have stepped : next (userKernel refCnt) (.ref 0 0x100) =
        some (userKernel (refCnt + 1 : Nat)) := by
      rw [userKernel_next free, refcntField_eq (by omega) (by omega)]
      norm_cast
    obtain ⟨executed, counts', balanced, traced⟩ := @ih
      (refCnt + 1) (by omega) (balance (userKernel refCnt) (.ref 0 0x100) counts)
    have later : refCnt + 1 + n = refCnt + (n + 1) := by omega
    rw [later] at executed traced
    refine ⟨?_, counts', ?_, ?_⟩
    · rw [List.replicate_succ, List.cons_append, exec, stepped]
      exact executed
    · rw [balanced, userKernel_balance free]
      push_cast
      omega
    · rw [List.replicate_succ, List.cons_append, trace, stepped]
      exact traced

/-- A set of user memory and one reference more than `n`. -/
def refsRun (n : Nat) : List RetypeEvent :=
  .retype2user 0x100 :: (List.replicate n (.ref 0 0x100) ++ [.ref 0 0x100])

theorem refsRun_exec {n : Nat} (room : n < 2 ^ 27) :
    exec next bareKernel (refsRun n) = some (userKernel (refcntField (n + 1))) ∧
      trace next balance bareKernel (refsRun n) (fun _ _ => 0) 0 0x100 = n + 1 := by
  have free : (n : Int) ≠ retypeRefcntMax := by
    unfold retypeRefcntMax
    omega
  have start : balance bareKernel (.retype2user 0x100) (fun _ _ => 0) 0 0x100 = 0 := by
    simp only [balance]
    split_ifs <;> rfl
  obtain ⟨executed, counts, balanced, traced⟩ := @userKernel_refs n 0 (by omega) [.ref 0 0x100]
    (balance bareKernel (.retype2user 0x100) fun _ _ => 0)
  rw [Nat.zero_add] at executed traced
  constructor
  · rw [refsRun, exec, bareKernel_next]
    refine executed.trans ?_
    rw [exec, userKernel_next free]
    rfl
  · rw [refsRun, trace, bareKernel_next]
    show trace next balance (userKernel 0) _ _ 0 0x100 = _
    refine (congrFun (congrFun traced 0) 0x100).trans ?_
    rw [trace, userKernel_next free]
    show balance (userKernel n) (.ref 0 0x100) counts 0 0x100 = _
    rw [userKernel_balance free, balanced, start]
    omega

theorem refcnt_balance_three :
    ∃ k', exec next bareKernel (refsRun 2) = some k' ∧ k'.refCnt 0 0x100 = 3 := by
  obtain ⟨executed, balanced⟩ := refsRun_exec (show 2 < 2 ^ 27 by decide)
  have noWrap : Meets NoWrap next bareKernel (refsRun 2) := by
    decide +kernel
  refine ⟨_, executed, ?_⟩
  rw [refcnt_balance bareKernel _ (refsRun 2) bareKernel_retypeInit noWrap executed 0 0x100
    (by decide) (by decide), balanced]
  rfl

/-- After 2 ^ 27 references the count is negative. -/
theorem refcnt_balance_wrapped :
    ∃ k', exec next bareKernel (refsRun (2 ^ 27 - 1)) = some k' ∧
      k'.refCnt 0 0x100 = -2 ^ 27 ∧
      trace next balance bareKernel (refsRun (2 ^ 27 - 1)) (fun _ _ => 0) 0 0x100 = 2 ^ 27 := by
  obtain ⟨executed, balanced⟩ := refsRun_exec (show 2 ^ 27 - 1 < 2 ^ 27 by omega)
  refine ⟨_, executed, ?_, ?_⟩
  · simp only [userKernel, Kernel.refCnt, Memory.setEntry_entries, and_self, if_true]
    decide
  · rw [balanced]
    decide

end Composite
