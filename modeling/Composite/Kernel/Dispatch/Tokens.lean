import Composite.Kernel.Dispatch.Scheduling

/-!
# Scheduler tokens

The threads of a component that schedule on one core take tokens from a counter before they
decide, and give the token with the decision.  The kernel keeps the last token of each
receive end-point and refuses smaller ones.  The counter of the component and that of the
end-point have 32 bits, and a switch passes the token in two registers.
-/

namespace Composite

open Checked Option List

/-! The calls as the library of the components makes them. -/

/-- `call_cap_op`, with what the registers of the caller hold otherwise. -/
def callCapOp (user : PtRegs) (capNo opCode arg1 arg2 arg3 arg4 : Nat) : PtRegs :=
  { user with
    ax := ((capNo + 1) * 2 ^ 16 + opCode) % 2 ^ 32
    bx := arg1 % 2 ^ 32
    si := arg2 % 2 ^ 32
    di := arg3 % 2 ^ 32
    dx := arg4 % 2 ^ 32 }

def cosSwitch (user : PtRegs) (c tc prio timeout rcv stok : Nat) : PtRegs :=
  callCapOp user c (stok / 2 ^ 16) (tc * 2 ^ 16 % 2 ^ 32 ||| rcv) (prio % 2 ^ 32)
    (prio % 2 ^ 48 / 2 ^ 32 * 2 ^ 16 ||| stok % 2 ^ 16) timeout

def cosSchedAsnd (user : PtRegs) (snd timeout srcv stok : Nat) : PtRegs :=
  callCapOp user snd 0 srcv stok timeout 0

inductive SchedCall where
  | switch (caps : CapLookup) (thdc : CapThd) (user : PtRegs) (c tc prio timeout rcv : Nat)
  | asnd (caps : CapLookup) (asndc : CapAsnd) (user : PtRegs) (snd timeout srcv : Nat)

namespace SchedCall

def regs (tok : Nat) : SchedCall → PtRegs
  | .switch _ _ user c tc prio timeout rcv => cosSwitch user c tc prio timeout rcv tok
  | .asnd _ _ user snd timeout srcv => cosSchedAsnd user snd timeout srcv tok

def event (tok : Nat) : SchedCall → CoreEvent
  | .switch caps thdc user c tc prio timeout rcv =>
    .thd caps thdc (cosSwitch user c tc prio timeout rcv tok)
  | .asnd caps asndc user snd timeout srcv =>
    .asnd caps asndc (cosSchedAsnd user snd timeout srcv tok)

end SchedCall

/-- A component that schedules on a core: the counter of `cos_sched_sync`, the tokens that
were taken, in their order, and the numbers of those that the end-point let through. -/
structure Scheduler where
  core : Core
  stok : Nat
  tokens : List Nat
  used : List Nat

inductive SchedEvent where
  | sync
  | use (number : Nat) (call : SchedCall)
  | other (event : CoreEvent)

namespace Core

def admits (s : Core) (rcvt : Nat) (event : CoreEvent) : Bool :=
  match s.tokenUse event with
  | none => false
  | some (thd, tok) =>
    thd == rcvt &&
      match schedTokValidate s.threads thd tok with
      | .ok (some _) => true
      | _ => false

end Core

namespace Scheduler

def cosSchedSync (s : Scheduler) : Scheduler :=
  { s with stok := (s.stok + 1) % 2 ^ 32, tokens := s.tokens ++ [s.stok] }

def next (thresh rcvt : Nat) (s : Scheduler) : SchedEvent → Option Scheduler
  | .sync => some s.cosSchedSync
  | .use number call => do
      let tok ← s.tokens[number]?
      let core ← s.core.next thresh (call.event tok)
      some { s with
        core := core
        used := if s.core.admits rcvt (call.event tok) then number :: s.used else s.used }
  | .other event => do
      let core ← s.core.next thresh event
      some { s with core := core }

structure Fresh (rcvt : Nat) (s : Scheduler) : Prop where
  stok : s.stok = 0
  tokens : s.tokens = []
  used : s.used = []
  count : (s.core.threads rcvt).rcvcap.schedCount = 0

def FewTokens (s : Scheduler) : SchedEvent → Prop
  | .sync => s.tokens.length < 2 ^ 32 - 1
  | _ => True

instance (s : Scheduler) (event : SchedEvent) : Decidable (s.FewTokens event) := by
  unfold FewTokens
  cases event <;> infer_instance

def OwnTokens (rcvt : Nat) (s : Scheduler) : SchedEvent → Prop
  | .other event => ∀ tok, s.core.tokenUse event ≠ some (rcvt, tok)
  | _ => True

end Scheduler

/-! What an entry does to the counters. -/

namespace Core

variable {threads : Threads} {tok thd timeout : Nat} {ci : CompInfo} {regs : PtRegs}
    {caps : CapLookup} {top : InvstkEntry}

theorem schedTokValidate_ok {threads' : Threads} {rcvt : Nat}
    (validated : schedTokValidate threads rcvt tok = .ok (some threads')) :
    (threads rcvt).rcvcap.schedCount ≤ tok ∧ ∀ t, (threads' t).rcvcap.schedCount =
      if t = rcvt then tok else (threads t).rcvcap.schedCount := by
  unfold schedTokValidate at validated
  split_ifs at validated with last outdated
  · cases validated
  · obtain rfl := some_inj.mp (Except.ok.inj validated)
    refine ⟨Nat.le_of_not_lt outdated, fun t => ?_⟩
    rw [Threads.modify_apply]
    split_ifs <;> rfl

theorem schedTokValidate_outdated {rcvt : Nat} (bounded : tok < 2 ^ 32 - 1)
    (outdated : tok < (threads rcvt).rcvcap.schedCount) :
    schedTokValidate threads rcvt tok = .ok none := by
  unfold schedTokValidate
  rw [if_neg (Nat.not_le_of_lt bounded), if_pos outdated]

theorem schedTokValidate_current {rcvt : Nat} (bounded : tok < 2 ^ 32 - 1)
    (current : (threads rcvt).rcvcap.schedCount ≤ tok) :
    ∃ threads', schedTokValidate threads rcvt tok = .ok (some threads') := by
  unfold schedTokValidate
  rw [if_neg (Nat.not_le_of_lt bounded), if_neg (Nat.not_lt_of_le current)]
  exact ⟨_, rfl⟩

variable {s s' s₁ : Core} {thresh : Nat} {event : CoreEvent}

inductive Recorded (s : Core) (event : CoreEvent) (s' : Core) : Prop where
  | same : SameCounts s.threads s'.threads → Recorded s event s'
  | token {rcvt tok : Nat} {threads : Threads} : s.tokenUse event = some (rcvt, tok) →
      schedTokValidate s.threads rcvt tok = .ok (some threads) →
      SameCounts threads s'.threads → Recorded s event s'

theorem Readied.recorded (readied : Readied s event s₁)
    (counts : SameCounts s₁.threads s'.threads) :
    Recorded s event s' := by
  cases readied with
  | same same => exact .same (same.counts.trans counts)
  | token used validated same => exact .token used validated (same.counts.trans counts)
  | delegate named ran same => exact .same (same.counts.trans counts)
  | merge named ran same => exact .same (same.counts.trans counts)

theorem sameCounts_capUpdate {next tc : Nat} {timer : Bool}
    (updated : s.capUpdate thresh thd next tc timeout ci regs timer = .ok s') :
    SameCounts s.threads s'.threads := by
  obtain ⟨choice, -, after⟩ := capUpdate_updated updated
  exact after.counts

theorem Scheduled.recorded (scheduled : Scheduled thresh s event s') : Recorded s event s' := by
  cases scheduled with
  | back readied checked => exact readied.recorded (.refl _)
  | update readied aim updated => exact readied.recorded (sameCounts_capUpdate updated)
  | carry readied active updated current carried =>
    have before := readied.recorded (sameCounts_capUpdate updated)
    rw [carried]
    cases before with
    | same counts => exact .same counts
    | token used validated counts => exact .token used validated counts
  | resume resumed same updated => exact .same (same.counts.trans (sameCounts_capUpdate updated))
  | wait cycles waited =>
    rw [waited]
    exact .same (.refl _)

theorem sameCounts_refuse {ret : Int} (refused : s.refuse regs ret = .ok s') :
    SameCounts s.threads s'.threads := by
  cases refused
  exact .refl _

theorem sameCounts_thdOpSwitch {next tc prio : Nat}
    (switched : s.thdOpSwitch thresh caps thd next tc timeout prio ci regs = .ok s') :
    SameCounts s.threads s'.threads := by
  unfold thdOpSwitch at switched
  split_ifs at switched
  · exact sameCounts_capUpdate switched
  · split at switched
    · exact sameCounts_refuse switched
    · split_ifs at switched
      · exact sameCounts_refuse switched
      · obtain ⟨s₂, updated, rest⟩ := bind_eq_ok.mp switched
        have counts := sameCounts_capUpdate updated
        split_ifs at rest <;> cases rest <;> exact counts
      · exact sameCounts_refuse switched

theorem sameCounts_asndSwitch {rcvThd rcvTcap : Nat} {yield : Bool}
    (switched : s.asndSwitch thresh rcvThd rcvTcap thd yield timeout ci regs = .ok s') :
    SameCounts s.threads s'.threads := by
  obtain ⟨⟨threads, next, tc⟩, processed, rest⟩ := bind_eq_ok.mp switched
  exact (sameScheduling_asndProcess processed).counts.trans (sameCounts_capUpdate rest)

theorem entry_thd {thdc : CapThd} (current : thdInvstkCurrent s.toCpuState = .ok top) :
    s.entry thresh (.thd caps thdc regs) =
      s.capThdOp thresh caps thdc s.cosInfo.currThd s.currentComp regs := by
  have comp : s.currentComp = top.compInfo := by rw [thdInvstkCurrent_eq current]; rfl
  rw [comp, entry, current]
  rfl

theorem entry_asnd {asndc : CapAsnd} (current : thdInvstkCurrent s.toCpuState = .ok top) :
    s.entry thresh (.asnd caps asndc regs) =
      s.capAsndOp thresh caps asndc s.cosInfo.currThd s.currentComp regs := by
  have comp : s.currentComp = top.compInfo := by rw [thdInvstkCurrent_eq current]; rfl
  rw [comp, entry, current]
  rfl

theorem validated_of_next {rcvt : Nat} (used : s.tokenUse event = some (rcvt, tok))
    (stepped : s.next thresh event = some s') :
    schedTokValidate s.threads rcvt tok = .ok none ∧ SameCounts s.threads s'.threads ∨
      ∃ threads, schedTokValidate s.threads rcvt tok = .ok (some threads) ∧
        SameCounts threads s'.threads := by
  rw [next_eq_some] at stepped
  cases event with
  | thd caps thdc regs =>
    simp only [tokenUse, ite_none_left_eq_some, not_or, map_eq_some_iff,
      Prod.mk.injEq] at used
    obtain ⟨⟨sameCpu, thdCpu, named⟩, arcv, found, rfl, rfl⟩ := used
    obtain ⟨top, current, -⟩ := bind_eq_ok.mp stepped
    rw [entry_thd current] at stepped
    unfold capThdOp at stepped
    simp only at stepped
    rw [if_neg (not_or.mpr ⟨sameCpu, thdCpu⟩), if_neg named, found] at stepped
    obtain ⟨validated, checked, rest⟩ := bind_eq_ok.mp stepped
    cases validated with
    | none => exact .inl ⟨checked, sameCounts_refuse rest⟩
    | some threads =>
      refine .inr ⟨threads, checked, ?_⟩
      simp only at rest
      split_ifs at rest
      · exact sameCounts_refuse rest
      · exact sameCounts_thdOpSwitch rest
      · exact (sameCounts_schedulerSet threads _ _).trans (sameCounts_thdOpSwitch rest)
  | asnd caps asndc regs =>
    simp only [tokenUse, ite_none_left_eq_some, not_or, bind_eq_some_iff,
      map_eq_some_iff, Prod.mk.injEq] at used
    obtain ⟨⟨hasCap, sameCpu, named⟩, arcv, located, rcvTcap, bound, srcv, found, rfl, rfl⟩ := used
    obtain ⟨top, current, -⟩ := bind_eq_ok.mp stepped
    rw [entry_asnd current] at stepped
    unfold capAsndOp at stepped
    rw [if_neg hasCap, if_neg sameCpu, located] at stepped
    simp only [asndLocal, bound, if_neg named] at stepped
    unfold asndScheduled at stepped
    rw [found] at stepped
    obtain ⟨validated, checked, rest⟩ := bind_eq_ok.mp stepped
    cases validated with
    | none => exact .inl ⟨checked, sameCounts_refuse rest⟩
    | some threads =>
      refine .inr ⟨threads, checked, ?_⟩
      simp only at rest
      split_ifs at rest
      · exact sameCounts_refuse rest
      · exact sameCounts_capUpdate rest
      · exact sameCounts_refuse rest
      · exact (sameCounts_schedulerSet threads _ _).trans (sameCounts_asndSwitch rest)
  | _ => cases used

theorem entry_of_outdated {rcvt t : Nat} {call : SchedCall}
    (current : thdInvstkCurrent s.toCpuState = .ok top)
    (used : s.tokenUse (call.event tok) = some (rcvt, t))
    (outdated : schedTokValidate s.threads rcvt t = .ok none) :
    s.entry thresh (call.event tok) = s.refuse (call.regs tok) (-Errno.eagain) := by
  cases call with
  | switch caps thdc user c tc prio timeout rcv =>
    simp only [SchedCall.event, tokenUse, ite_none_left_eq_some, not_or,
      map_eq_some_iff, Prod.mk.injEq] at used
    obtain ⟨⟨sameCpu, thdCpu, named⟩, arcv, found, rfl, rfl⟩ := used
    simp only [SchedCall.event, entry_thd current, capThdOp,
      if_neg (not_or.mpr ⟨sameCpu, thdCpu⟩), if_neg named, found, outdated, ok_bind]
    rfl
  | asnd caps asndc user snd timeout srcv =>
    simp only [SchedCall.event, tokenUse, ite_none_left_eq_some, not_or,
      bind_eq_some_iff, map_eq_some_iff, Prod.mk.injEq] at used
    obtain ⟨⟨hasCap, sameCpu, named⟩, arcv, located, rcvTcap, bound, srcv, found, rfl, rfl⟩ := used
    simp only [SchedCall.event, entry_asnd current, capAsndOp, if_neg hasCap, if_neg sameCpu,
      located, asndLocal, bound, if_neg named, asndScheduled, found, outdated, ok_bind]
    rfl

theorem cosSwitch_usrCounter {user : PtRegs} {c tc prio timeout rcv : Nat}
    (bounded : tok < 2 ^ 32) :
    (thdOpArgs (cosSwitch user c tc prio timeout rcv tok)).usrCounter = tok := by
  have low : (prio % 2 ^ 48 / 2 ^ 32 * 2 ^ 16 ||| tok % 2 ^ 16) % 2 ^ 32 % 2 ^ 16 =
      tok % 2 ^ 16 := by
    rw [Nat.mod_mod_of_dvd _ (by decide), Nat.or_mod_two_pow, Nat.mul_mod_left, Nat.zero_or,
      Nat.mod_mod]
  have high : ((c + 1) * 2 ^ 16 + tok / 2 ^ 16) % 2 ^ 32 % 2 ^ 16 = tok / 2 ^ 16 := by omega
  simp only [thdOpArgs, cosSwitch, callCapOp, PtRegs.get3, PtRegs.getop, low, high]
  omega

theorem tokenUse_event {rcvt t : Nat} {call : SchedCall} (bounded : tok < 2 ^ 32)
    (used : s.tokenUse (call.event tok) = some (rcvt, t)) : t = tok := by
  cases call with
  | switch caps thdc user c tc prio timeout rcv =>
    simp only [SchedCall.event, tokenUse, ite_none_left_eq_some, not_or,
      map_eq_some_iff, Prod.mk.injEq] at used
    obtain ⟨-, -, -, -, rfl⟩ := used
    exact cosSwitch_usrCounter bounded
  | asnd caps asndc user snd timeout srcv =>
    simp only [SchedCall.event, tokenUse, ite_none_left_eq_some, not_or,
      bind_eq_some_iff, map_eq_some_iff, Prod.mk.injEq] at used
    obtain ⟨-, -, -, -, -, -, -, -, rfl⟩ := used
    exact Nat.mod_eq_of_lt bounded

theorem count_mono (stepped : s.next thresh event = some s') (rcvt : Nat) :
    (s.threads rcvt).rcvcap.schedCount ≤ (s'.threads rcvt).rcvcap.schedCount := by
  cases (scheduled_of_next stepped).recorded with
  | same counts => exact Nat.le_of_eq (counts rcvt).symm
  | token used validated counts =>
    obtain ⟨current, set⟩ := schedTokValidate_ok validated
    rw [counts.count, set]
    split_ifs with same
    · exact same ▸ current
    · exact Nat.le_refl _

theorem count_of_other (stepped : s.next thresh event = some s') {rcvt : Nat}
    (other : ∀ tok, s.tokenUse event ≠ some (rcvt, tok)) :
    (s'.threads rcvt).rcvcap.schedCount = (s.threads rcvt).rcvcap.schedCount := by
  cases (scheduled_of_next stepped).recorded with
  | same counts => exact counts rcvt
  | @token thd tok threads used validated counts =>
    have different : rcvt ≠ thd := by
      rintro rfl
      exact other tok used
    rw [counts.count, (schedTokValidate_ok validated).2, if_neg different]

end Core

namespace Scheduler

variable {thresh rcvt : Nat} {s s' : Scheduler} {event : SchedEvent} {call : SchedCall}

/-- The tokens are the numbers below 2³² over and over, and the end-point has kept none that
is smaller than one it let through. -/
structure Counted (rcvt : Nat) (s : Scheduler) : Prop where
  stok : s.stok = s.tokens.length % 2 ^ 32
  token : ∀ number tok, s.tokens[number]? = some tok → tok = number % 2 ^ 32
  used : ∀ number ∈ s.used, number < s.tokens.length ∧
    number % 2 ^ 32 ≤ (s.core.threads rcvt).rcvcap.schedCount

theorem Counted.sync (counted : s.Counted rcvt) : s.cosSchedSync.Counted rcvt where
  stok := by
    simp only [cosSchedSync, counted.stok, length_append, length_singleton, Nat.mod_add_mod]
  token := by
    intro number tok found
    rcases Nat.lt_or_ge number s.tokens.length with earlier | last
    · rw [cosSchedSync, List.getElem?_append_left earlier] at found
      exact counted.token number tok found
    · rw [cosSchedSync, List.getElem?_append_right last, List.getElem?_singleton] at found
      have same : number = s.tokens.length := by
        split_ifs at found with first
        omega
      rw [same, Nat.sub_self, if_pos rfl, some_inj] at found
      rw [← found, same, counted.stok]
  used := by
    intro number member
    obtain ⟨taken, kept⟩ := counted.used number member
    exact ⟨by simp only [cosSchedSync, length_append]; omega, kept⟩

theorem Counted.core {core : Core} {used : List Nat} (counted : s.Counted rcvt)
    (usedSound : ∀ number ∈ used, number < s.tokens.length ∧
      number % 2 ^ 32 ≤ (core.threads rcvt).rcvcap.schedCount) :
    Counted rcvt { s with core := core, used := used } :=
  ⟨counted.stok, counted.token, usedSound⟩

theorem count_of_admitted {core core' : Core} {tok : Nat} (bounded : tok < 2 ^ 32)
    (stepped : core.next thresh (call.event tok) = some core')
    (admitted : core.admits rcvt (call.event tok) = true) :
    (core'.threads rcvt).rcvcap.schedCount = tok := by
  unfold Core.admits at admitted
  split at admitted
  · cases admitted
  · next thd t used =>
    rw [Bool.and_eq_true, beq_iff_eq] at admitted
    obtain ⟨rfl, letThrough⟩ := admitted
    obtain rfl := Core.tokenUse_event bounded used
    rcases Core.validated_of_next used stepped with ⟨outdated, -⟩ | ⟨threads, validated, counts⟩
    · rw [outdated] at letThrough
      cases letThrough
    · rw [counts.count, (Core.schedTokValidate_ok validated).2, if_pos rfl]

theorem count_of_not_admitted {core core' : Core} {tok : Nat}
    (stepped : core.next thresh (call.event tok) = some core')
    (refused : core.admits rcvt (call.event tok) = false) :
    (core'.threads rcvt).rcvcap.schedCount = (core.threads rcvt).rcvcap.schedCount := by
  by_cases here : ∃ t, core.tokenUse (call.event tok) = some (rcvt, t)
  · obtain ⟨t, used⟩ := here
    rcases Core.validated_of_next used stepped with ⟨-, counts⟩ | ⟨threads, validated, -⟩
    · exact counts rcvt
    · simp [Core.admits, used, validated] at refused
  · exact Core.count_of_other stepped (not_exists.mp here)

theorem core_of_use {number : Nat} (stepped : s.next thresh rcvt (.use number call) = some s') :
    ∃ tok core, s.tokens[number]? = some tok ∧ s.core.next thresh (call.event tok) = some core ∧
      s' = { s with
        core := core
        used := if s.core.admits rcvt (call.event tok) then number :: s.used else s.used } := by
  obtain ⟨tok, taken, rest⟩ := bind_eq_some_iff.mp stepped
  obtain ⟨core, entered, last⟩ := bind_eq_some_iff.mp rest
  exact ⟨tok, core, taken, entered, (some_inj.mp last).symm⟩

theorem core_of_other {event : CoreEvent} (stepped : s.next thresh rcvt (.other event) = some s') :
    ∃ core, s.core.next thresh event = some core ∧ s' = { s with core := core } := by
  obtain ⟨core, entered, last⟩ := bind_eq_some_iff.mp stepped
  exact ⟨core, entered, (some_inj.mp last).symm⟩

theorem Counted.next (counted : s.Counted rcvt) (stepped : s.next thresh rcvt event = some s') :
    s'.Counted rcvt := by
  have grown {core : Core} {event : CoreEvent} (entered : s.core.next thresh event = some core) :
      ∀ number ∈ s.used, number < s.tokens.length ∧
        number % 2 ^ 32 ≤ (core.threads rcvt).rcvcap.schedCount := by
    intro number member
    obtain ⟨taken, kept⟩ := counted.used number member
    exact ⟨taken, kept.trans (Core.count_mono entered rcvt)⟩
  cases event with
  | sync =>
    obtain rfl := some_inj.mp stepped
    exact counted.sync
  | use number call =>
    obtain ⟨tok, core, taken, entered, rfl⟩ := core_of_use stepped
    refine counted.core fun other member => ?_
    split_ifs at member with admitted
    · rcases mem_cons.mp member with rfl | earlier
      · have value := counted.token other tok taken
        have bounded : tok < 2 ^ 32 := by rw [value]; exact Nat.mod_lt _ (by decide)
        refine ⟨(List.getElem?_eq_some_iff.mp taken).1, ?_⟩
        rw [count_of_admitted bounded entered admitted, value]
      · exact grown entered other earlier
    · exact grown entered other member
  | other event =>
    obtain ⟨core, entered, rfl⟩ := core_of_other stepped
    exact counted.core (grown entered)

theorem FewTokens.next (few : s.FewTokens event) (bounded : s.tokens.length ≤ 2 ^ 32 - 1)
    (stepped : s.next thresh rcvt event = some s') : s'.tokens.length ≤ 2 ^ 32 - 1 := by
  cases event with
  | sync =>
    obtain rfl := some_inj.mp stepped
    rw [cosSchedSync, length_append]
    exact few
  | use number call =>
    obtain ⟨tok, core, -, -, rfl⟩ := core_of_use stepped
    exact bounded
  | other event =>
    obtain ⟨core, -, rfl⟩ := core_of_other stepped
    exact bounded

def Behind (rcvt : Nat) (s : Scheduler) : Prop :=
  (s.core.threads rcvt).rcvcap.schedCount ≤ s.tokens.length - 1

theorem Behind.next (behind : s.Behind rcvt) (counted : s.Counted rcvt)
    (own : s.OwnTokens rcvt event) (stepped : s.next thresh rcvt event = some s') :
    s'.Behind rcvt := by
  unfold Behind at behind ⊢
  cases event with
  | sync =>
    obtain rfl := some_inj.mp stepped
    simp only [cosSchedSync, length_append]
    omega
  | use number call =>
    obtain ⟨tok, core, taken, entered, rfl⟩ := core_of_use stepped
    have value := counted.token number tok taken
    have bounded : tok < 2 ^ 32 := by rw [value]; exact Nat.mod_lt _ (by decide)
    have position := (List.getElem?_eq_some_iff.mp taken).1
    dsimp only
    cases admitted : s.core.admits rcvt (call.event tok) with
    | true =>
      rw [count_of_admitted bounded entered admitted, value]
      have small := Nat.mod_le number (2 ^ 32)
      omega
    | false =>
      rw [count_of_not_admitted entered admitted]
      exact behind
  | other event =>
    obtain ⟨core, entered, rfl⟩ := core_of_other stepped
    dsimp only
    rw [Core.count_of_other entered own]
    exact behind

theorem Fresh.counted (fresh : s.Fresh rcvt) : s.Counted rcvt := by
  refine ⟨?_, fun number tok found => ?_, fun number member => ?_⟩
  · rw [fresh.stok, fresh.tokens]
    rfl
  · rw [fresh.tokens] at found
    cases found
  · rw [fresh.used] at member
    cases member

end Scheduler

/-- In every run that takes fewer than 2³² tokens, a decision with a token is refused with
`-EAGAIN` once the end-point has let a later one through, and if only tokens of the component
are used there, the last token is let through. -/
theorem sched_tokens {thresh rcvt : Nat} {start s : Scheduler} {events : List SchedEvent}
    (fresh : start.Fresh rcvt)
    (few : Transition.Meets Scheduler.FewTokens (Scheduler.next thresh rcvt) start events)
    (reached : Transition.exec (Scheduler.next thresh rcvt) start events = some s) :
    (∀ (number later tok t : Nat) (call : SchedCall) top, s.tokens[number]? = some tok →
      number < later →
      later ∈ s.used → thdInvstkCurrent s.core.toCpuState = .ok top →
      s.core.tokenUse (call.event tok) = some (rcvt, t) →
      s.core.entry thresh (call.event tok) = s.core.refuse (call.regs tok) (-Errno.eagain)) ∧
    (Transition.Meets (Scheduler.OwnTokens rcvt) (Scheduler.next thresh rcvt) start events →
      ∀ (tok t : Nat) (call : SchedCall), s.tokens.getLast? = some tok →
        s.core.tokenUse (call.event tok) = some (rcvt, t) →
        ∃ threads, Core.schedTokValidate s.core.threads rcvt t = .ok (some threads)) := by
  have kept : ∀ (s : Scheduler) event s', s.Counted rcvt ∧ s.tokens.length ≤ 2 ^ 32 - 1 →
      s.FewTokens event → s.next thresh rcvt event = some s' →
      s'.Counted rcvt ∧ s'.tokens.length ≤ 2 ^ 32 - 1 :=
    fun _ _ _ sound few stepped => ⟨sound.1.next stepped, few.next sound.2 stepped⟩
  have none_taken : start.tokens.length ≤ 2 ^ 32 - 1 := by rw [fresh.tokens]; decide
  obtain ⟨counted, bounded⟩ :=
    Transition.exec_invariant kept ⟨fresh.counted, none_taken⟩ few reached
  refine ⟨fun number later tok t call top taken earlier letThrough current used => ?_,
    fun own tok t call last used => ?_⟩
  · have value := counted.token number tok taken
    obtain ⟨laterTaken, record⟩ := counted.used later letThrough
    rw [Nat.mod_eq_of_lt (by omega)] at value record
    obtain rfl := Core.tokenUse_event (by omega) used
    exact Core.entry_of_outdated current used (Core.schedTokValidate_outdated (by omega) (by omega))
  · have keptBehind : ∀ (s : Scheduler) event s', s.Counted rcvt ∧ s.Behind rcvt →
        s.OwnTokens rcvt event → s.next thresh rcvt event = some s' →
        s'.Counted rcvt ∧ s'.Behind rcvt :=
      fun _ _ _ sound own stepped => ⟨sound.1.next stepped, sound.2.next sound.1 own stepped⟩
    have startBehind : start.Behind rcvt := by
      unfold Scheduler.Behind
      rw [fresh.count]
      exact Nat.zero_le _
    have behind := (Transition.exec_invariant keptBehind ⟨fresh.counted, startBehind⟩ own reached).2
    rw [List.getLast?_eq_getElem?] at last
    have position := (List.getElem?_eq_some_iff.mp last).1
    have value := counted.token _ tok last
    rw [Nat.mod_eq_of_lt (by omega)] at value
    obtain rfl := Core.tokenUse_event (by omega) used
    unfold Scheduler.Behind at behind
    exact Core.schedTokValidate_current (by omega) (by omega)

/-- A component on `threeTcaps` that has taken no token. -/
def freshScheduler : Scheduler := ⟨threeTcaps, 0, [], []⟩

theorem freshScheduler_fresh : freshScheduler.Fresh 2 := ⟨rfl, rfl, rfl, rfl⟩

def switchAt2 : SchedCall := .switch endpointCaps ⟨1, 0⟩ .zero 8 0 0 0 4

/-- Two tokens are taken and the second one is used first. -/
theorem sched_tokens_overtaken :
    ∃ s ∈ Transition.exec (Scheduler.next 0 2) freshScheduler [.sync, .sync, .use 1 switchAt2],
      s.core.entry 0 (switchAt2.event 0) = s.core.refuse (switchAt2.regs 0) (-Errno.eagain) := by
  have run : ((Transition.exec (Scheduler.next 0 2) freshScheduler
      [.sync, .sync, .use 1 switchAt2]).map fun s =>
        (s.tokens, s.used, s.core.tokenUse (switchAt2.event 0))) =
      some ([0, 1], [1], some (2, 0)) := by decide +kernel
  obtain ⟨s, reached, facts⟩ := Option.map_eq_some_iff.mp run
  simp only [Prod.mk.injEq] at facts
  obtain ⟨tokens, used, named⟩ := facts
  have few : Transition.Meets Scheduler.FewTokens (Scheduler.next 0 2) freshScheduler
      [.sync, .sync, .use 1 switchAt2] := by
    decide +kernel
  have current : (Transition.exec (Scheduler.next 0 2) freshScheduler
      [.sync, .sync, .use 1 switchAt2]).map
        (fun s => (thdInvstkCurrent s.core.toCpuState).toOption) =
      some (some ⟨⟨⟨0, 2⟩, 6, 7⟩, 0, 0⟩) := by decide +kernel
  rw [reached, Option.map_some, Option.some_inj] at current
  refine ⟨s, reached, ?_⟩
  cases top : thdInvstkCurrent s.core.toCpuState with
  | error fault =>
    rw [top] at current
    cases current
  | ok entry =>
    exact (sched_tokens freshScheduler_fresh few reached).1 0 1 0 0 switchAt2 entry
      (by rw [tokens]; rfl) (by decide) (by rw [used]; decide) top named

theorem Scheduler.exec_syncs (thresh rcvt taken : Nat) (s : Scheduler) :
    ∃ s', Transition.exec (Scheduler.next thresh rcvt) s (List.replicate taken .sync) = some s' ∧
      s'.core = s.core ∧ s'.used = s.used ∧ s'.tokens.length = s.tokens.length + taken := by
  induction taken generalizing s with
  | zero => exact ⟨s, rfl, rfl, rfl, rfl⟩
  | succ taken ih =>
    obtain ⟨s', reached, core, used, length⟩ := ih s.cosSchedSync
    rw [cosSchedSync, length_append, length_singleton] at length
    exact ⟨s', reached, core, used, by omega⟩

theorem Scheduler.next_admitted {thresh rcvt number tok : Nat} {s : Scheduler} {call : SchedCall}
    {core : Core} (taken : s.tokens[number]? = some tok)
    (entered : s.core.next thresh (call.event tok) = some core)
    (admitted : s.core.admits rcvt (call.event tok) = true) :
    s.next thresh rcvt (.use number call) =
      some { s with core := core, used := number :: s.used } := by
  simp only [Scheduler.next, taken, entered, admitted, if_true, bind_eq_bind, bind_some]

/-- After 2³² + 1 tokens the last one is 0 again.  It is let through, and so is then the
token that was taken two before it. -/
theorem sched_tokens_wrapped :
    ∃ s ∈ Transition.exec (Scheduler.next 0 2) freshScheduler
        (List.replicate (2 ^ 32 + 1) .sync ++
          [.use (2 ^ 32) switchAt2, .use (2 ^ 32 - 2) switchAt2]),
      s.used = [2 ^ 32 - 2, 2 ^ 32] := by
  obtain ⟨s, synced, core, used, length⟩ := Scheduler.exec_syncs 0 2 (2 ^ 32 + 1) freshScheduler
  have counted : s.Counted 2 := by
    have kept : ∀ (s : Scheduler) event s', s.Counted 2 → True → s.next 0 2 event = some s' →
        s'.Counted 2 := fun _ _ _ counted _ stepped => counted.next stepped
    exact Transition.exec_invariant kept freshScheduler_fresh.counted
      (Transition.Meets.of_forall (fun _ _ => trivial) _ _) synced
  have token (number : Nat) (taken : number < 2 ^ 32 + 1) :
      s.tokens[number]? = some (number % 2 ^ 32) := by
    have inside : number < s.tokens.length := by
      rw [length]
      exact Nat.lt_add_left _ taken
    rw [List.getElem?_eq_getElem inside, Option.some_inj]
    exact counted.token number _ (List.getElem?_eq_getElem inside)
  have runs : ((threeTcaps.next 0 (switchAt2.event 0)).bind fun core =>
      (core.next 0 (switchAt2.event (2 ^ 32 - 2))).map fun _ =>
        (threeTcaps.admits 2 (switchAt2.event 0), core.admits 2 (switchAt2.event (2 ^ 32 - 2)))) =
      some (true, true) := by decide +kernel
  obtain ⟨core₁, first, rest⟩ := Option.bind_eq_some_iff.mp runs
  obtain ⟨core₂, second, admitted⟩ := Option.map_eq_some_iff.mp rest
  obtain ⟨admitted₁, admitted₂⟩ := Prod.mk.inj admitted
  replace core : s.core = threeTcaps := core
  rw [← core] at first admitted₁
  have last := Scheduler.next_admitted (token (2 ^ 32) (by decide)) first admitted₁
  have early : Scheduler.next 0 2 { s with core := core₁, used := 2 ^ 32 :: s.used }
      (.use (2 ^ 32 - 2) switchAt2) =
      some { s with core := core₂, used := (2 ^ 32 - 2) :: 2 ^ 32 :: s.used } :=
    Scheduler.next_admitted (token (2 ^ 32 - 2) (by decide)) second admitted₂
  refine ⟨{ s with core := core₂, used := (2 ^ 32 - 2) :: 2 ^ 32 :: s.used }, ?_,
    by rw [used, freshScheduler]⟩
  rw [Transition.exec_append, synced, Option.bind_some]
  exact Transition.exec_cons_eq_some.mpr ⟨_, last, Transition.exec_cons_eq_some.mpr ⟨_, early, rfl⟩⟩

end Composite
