import Composite.Lib.Transition
import Composite.Kernel.Invocation

/-!
# Invocation stacks across thread switches

Along a run a list of frames is kept for every thread: an invocation adds what
it has saved, a return drops the last frame, and a switch changes none.  The
stacks in the threads are these lists, with the current thread's length in the
cache of the core.
-/

namespace Composite

open Function Checked

def topOf (s : CpuState) (t : Nat) : Nat :=
  if t = s.cosInfo.currThd then s.cosInfo.invstkTop else (s.threads t).invstkTop

abbrev Frames := Nat → List InvstkEntry

/-- An invocation that is carried out saves the component, the stack pointer and
the instruction pointer. -/
def recordFrames (ltbl : Ltbl) (s : CpuState) (event : InvEvent) (frames : Frames) : Frames :=
  let curr := s.cosInfo.currThd
  match event with
  | .sinv sinvc regs =>
    if ltblIsalive ltbl sinvc.compInfo.liveness ∧ s.cosInfo.invstkTop < thdInvstkMaxsz then
      let saved : InvstkEntry :=
        ⟨((s.threads curr).invstk s.cosInfo.invstkTop).compInfo, regs.getsp, regs.getip⟩
      Function.update frames curr (saved :: frames curr)
    else frames
  | .sret _ => Function.update frames curr (frames curr).tail
  | .switch .. => frames

structure Stacked (ltbl : Ltbl) (s : CpuState) (frames : Frames) : Prop where
  bounded : ∀ t, topOf s t < thdInvstkMaxsz
  framed : ∀ t, frames t = ((List.range (topOf s t)).map (s.threads t).invstk).reverse
  alive : ∀ t, ∀ i ≤ topOf s t,
    ltblIsalive ltbl ((s.threads t).invstk i).compInfo.liveness = true

def InvFits (ltbl : Ltbl) (s : CpuState) : InvEvent → Prop
  | .sinv sinvc _ => ltblIsalive ltbl sinvc.compInfo.liveness = true →
      s.cosInfo.invstkTop ≠ thdInvstkMaxsz - 1
  | _ => True

instance (ltbl : Ltbl) (s : CpuState) (event : InvEvent) : Decidable (InvFits ltbl s event) :=
  match event with
  | .sinv sinvc _ => inferInstanceAs (Decidable (ltblIsalive ltbl sinvc.compInfo.liveness = true →
      s.cosInfo.invstkTop ≠ thdInvstkMaxsz - 1))
  | .sret _ | .switch .. => .isTrue trivial

section Steps

variable {ltbl : Ltbl} {s s' : CpuState} {frames : Frames}

theorem Stacked.congr (stacked : Stacked ltbl s frames)
    (entries : ∀ t, (s'.threads t).invstk = (s.threads t).invstk)
    (tops : ∀ t, topOf s' t = topOf s t) :
    Stacked ltbl s' frames where
  bounded := by
    intro t
    rw [tops]
    exact stacked.bounded t
  framed := by
    intro t
    rw [tops, entries]
    exact stacked.framed t
  alive := by
    intro t i below
    rw [tops] at below
    rw [entries]
    exact stacked.alive t i below

theorem Stacked.sameStacks (stacked : Stacked ltbl s frames)
    (same : SamePart Thread.stack s.threads s'.threads)
    (current : s'.cosInfo.currThd = s.cosInfo.currThd)
    (top : s'.cosInfo.invstkTop = s.cosInfo.invstkTop) : Stacked ltbl s' frames := by
  refine stacked.congr same.invstk fun t => ?_
  rw [topOf, topOf, current, top, same.invstkTop]

theorem topOf_curr (s : CpuState) : topOf s s.cosInfo.currThd = s.cosInfo.invstkTop := by
  simp [topOf]

theorem Stacked.current (stacked : Stacked ltbl s frames) :
    thdInvstkCurrent s =
      .ok ((s.threads s.cosInfo.currThd).invstk s.cosInfo.invstkTop) := by
  have bounded := stacked.bounded s.cosInfo.currThd
  rw [topOf_curr] at bounded
  simp [thdInvstkCurrent, Thread.invstkAt, bounded]

theorem Stacked.frames_succ (stacked : Stacked ltbl s frames) {top : Nat}
    (deep : s.cosInfo.invstkTop = top + 1) :
    frames s.cosInfo.currThd = (s.threads s.cosInfo.currThd).invstk top ::
      ((List.range top).map (s.threads s.cosInfo.currThd).invstk).reverse := by
  rw [stacked.framed, topOf_curr, deep, List.range_succ]
  simp

theorem thdInvstkPush_eq (ci : CompInfo) (ip sp : Nat)
    (room : s.cosInfo.invstkTop + 1 < thdInvstkMaxsz) :
    ∃ thd, thdInvstkPush s ci ip sp = .ok (some
        { s with
          threads := update s.threads s.cosInfo.currThd thd
          cosInfo := { s.cosInfo with invstkTop := s.cosInfo.invstkTop + 1 } }) ∧
      thd.invstk (s.cosInfo.invstkTop + 1) = ⟨ci, 0, 0⟩ ∧
      thd.invstk s.cosInfo.invstkTop =
        ⟨((s.threads s.cosInfo.currThd).invstk s.cosInfo.invstkTop).compInfo, sp, ip⟩ ∧
      ∀ i < s.cosInfo.invstkTop, thd.invstk i = (s.threads s.cosInfo.currThd).invstk i := by
  have bounded : s.cosInfo.invstkTop < thdInvstkMaxsz := by omega
  have notFull : ¬s.cosInfo.invstkTop ≥ thdInvstkMaxsz := by omega
  simp only [thdInvstkPush, if_neg notFull, Thread.setInvstk, if_pos bounded, if_pos room,
    ok_bind]
  refine ⟨_, rfl, ?_, ?_, ?_⟩
  · simp
  · simp
  · intro i below
    have different : i ≠ s.cosInfo.invstkTop := by omega
    have different' : i ≠ s.cosInfo.invstkTop + 1 := by omega
    simp [different, different']

section

variable (stacked : Stacked ltbl s frames)

include stacked

theorem Stacked.push {ci : CompInfo} {ip sp : Nat} {thd : Thread}
    (room : s.cosInfo.invstkTop + 1 < thdInvstkMaxsz) (live : ltblIsalive ltbl ci.liveness = true)
    (above : thd.invstk (s.cosInfo.invstkTop + 1) = ⟨ci, 0, 0⟩)
    (saved : thd.invstk s.cosInfo.invstkTop =
      ⟨((s.threads s.cosInfo.currThd).invstk s.cosInfo.invstkTop).compInfo, sp, ip⟩)
    (below : ∀ i < s.cosInfo.invstkTop, thd.invstk i = (s.threads s.cosInfo.currThd).invstk i) :
    Stacked ltbl
      { s with
        threads := update s.threads s.cosInfo.currThd thd
        cosInfo := { s.cosInfo with invstkTop := s.cosInfo.invstkTop + 1 } }
      (update frames s.cosInfo.currThd
        (⟨((s.threads s.cosInfo.currThd).invstk s.cosInfo.invstkTop).compInfo, sp, ip⟩ ::
          frames s.cosInfo.currThd)) where
  bounded := by
    intro t
    by_cases same : t = s.cosInfo.currThd
    · simpa [topOf, same] using room
    · simpa [topOf, same] using stacked.bounded t
  framed := by
    intro t
    by_cases same : t = s.cosInfo.currThd
    · subst same
      have kept : (List.range s.cosInfo.invstkTop).map thd.invstk =
          (List.range s.cosInfo.invstkTop).map (s.threads s.cosInfo.currThd).invstk := by
        refine List.map_congr_left fun i member => below i ?_
        simpa using member
      have before := stacked.framed s.cosInfo.currThd
      rw [topOf_curr] at before
      simp [topOf, List.range_succ, saved, kept, before]
    · have before := stacked.framed t
      simpa [topOf, same] using before
  alive := by
    intro t i bounded
    by_cases same : t = s.cosInfo.currThd
    · subst same
      have before := stacked.alive s.cosInfo.currThd
      simp only [topOf_curr] at before
      simp only [topOf, if_true, update_self] at bounded ⊢
      rcases Nat.lt_or_ge i (s.cosInfo.invstkTop + 1) with small | large
      · rcases Nat.lt_or_ge i s.cosInfo.invstkTop with smaller | top
        · rw [below i smaller]
          exact before i (Nat.le_of_lt smaller)
        · obtain rfl : i = s.cosInfo.invstkTop := by omega
          rw [saved]
          exact before _ (Nat.le_refl _)
      · obtain rfl : i = s.cosInfo.invstkTop + 1 := by omega
        rw [above]
        exact live
    · have before := stacked.alive t i
      simp only [topOf, same, if_false, update_of_ne same] at before bounded ⊢
      exact before bounded

theorem Stacked.sinv {sinvc : CapSinv} {regs : PtRegs} (fits : InvFits ltbl s (.sinv sinvc regs)) :
    ∃ s', invEntry ltbl s (.sinv sinvc regs) = .ok s' ∧
      Stacked ltbl s' (recordFrames ltbl s (.sinv sinvc regs) frames) := by
  have bounded := stacked.bounded s.cosInfo.currThd
  rw [topOf_curr] at bounded
  simp only [invEntry, stacked.current, ok_bind, sinvCall, recordFrames]
  by_cases live : ltblIsalive ltbl sinvc.compInfo.liveness = true
  · have room : s.cosInfo.invstkTop + 1 < thdInvstkMaxsz := by
      have free := fits live
      omega
    obtain ⟨thd, pushed, above, saved, below⟩ :=
      thdInvstkPush_eq sinvc.compInfo regs.getip regs.getsp room
    simp only [live, bounded, not_true_eq_false, if_false, pushed, ok_bind, and_self,
      if_true]
    exact ⟨_, rfl, (stacked.push room live above saved below).congr (fun _ => rfl) fun _ => rfl⟩
  · rw [if_pos live, if_neg fun carried => live carried.1]
    exact ⟨_, rfl, stacked.congr (fun _ => rfl) fun _ => rfl⟩

/-- The pop of a current thread that is inside an invocation. -/
theorem Stacked.pop {top : Nat} (deep : s.cosInfo.invstkTop = top + 1) :
    thdInvstkPop s = .ok (some ((s.threads s.cosInfo.currThd).invstk top,
        { s with cosInfo := { s.cosInfo with invstkTop := top } })) ∧
      Stacked ltbl { s with cosInfo := { s.cosInfo with invstkTop := top } }
        (update frames s.cosInfo.currThd (frames s.cosInfo.currThd).tail) := by
  have bounded := stacked.bounded s.cosInfo.currThd
  rw [topOf_curr, deep] at bounded
  have inside : top < thdInvstkMaxsz := by omega
  refine ⟨?_, ?_, ?_, ?_⟩
  · simp [thdInvstkPop, deep, thdInvstkCurrent, Thread.invstkAt, inside]
  · intro t
    by_cases same : t = s.cosInfo.currThd
    · simpa [topOf, same] using inside
    · simpa [topOf, same] using stacked.bounded t
  · intro t
    by_cases same : t = s.cosInfo.currThd
    · subst same
      simp [topOf, stacked.frames_succ deep]
    · simpa [topOf, same] using stacked.framed t
  · intro t i below
    apply stacked.alive t i
    by_cases same : t = s.cosInfo.currThd
    · simp only [topOf, same, if_true] at below ⊢
      omega
    · simpa [topOf, same] using below

theorem Stacked.sret (regs : PtRegs) :
    ∃ s', invEntry ltbl s (.sret regs) = .ok s' ∧
      Stacked ltbl s' (recordFrames ltbl s (.sret regs) frames) ∧
      ∀ frame rest, frames s.cosInfo.currThd = frame :: rest →
        s'.regs.ip = frame.ip ∧ s'.regs.sp = frame.sp ∧ s'.pgtbl = frame.compInfo.pgtbl ∧
          thdInvstkCurrent s' = .ok frame := by
  simp only [invEntry, sretRet, recordFrames]
  cases depth : s.cosInfo.invstkTop with
  | zero =>
    have empty : frames s.cosInfo.currThd = [] := by
      rw [stacked.framed, topOf_curr, depth]
      rfl
    have popped : thdInvstkPop s = .ok none := by simp [thdInvstkPop, depth]
    refine ⟨_, by rw [popped]; rfl, ?_, ?_⟩
    · rw [empty, List.tail_nil, ← empty, update_eq_self]
      exact stacked.congr (fun _ => rfl) fun _ => rfl
    · intro frame rest framed
      rw [empty] at framed
      cases framed
  | succ top =>
    obtain ⟨popped, after⟩ := stacked.pop depth
    have live := stacked.alive s.cosInfo.currThd top (by rw [topOf_curr]; omega)
    simp only [popped, ok_bind, live, not_true_eq_false, if_false]
    refine ⟨_, rfl, after.congr (fun _ => rfl) fun _ => rfl, ?_⟩
    intro frame rest framed
    rw [stacked.frames_succ depth] at framed
    obtain ⟨rfl, -⟩ := List.cons.inj framed
    refine ⟨rfl, rfl, rfl, ?_⟩
    exact after.current

end

theorem topOf_thdCurrentUpdate {next : Nat} (different : s.cosInfo.currThd ≠ next) (t : Nat) :
    topOf (thdCurrentUpdate s next s.cosInfo.currThd) t = topOf s t := by
  simp only [topOf, thdCurrentUpdate, Threads.modify]
  by_cases isNext : t = next
  · subst isNext
    simp [Ne.symm different]
  · by_cases isCurr : t = s.cosInfo.currThd
    · subst isCurr
      simp [isNext]
    · simp [isNext, isCurr]

section

variable (stacked : Stacked ltbl s frames)

include stacked

variable {next : Nat} {regs : PtRegs} {ci : CompInfo}

theorem Stacked.thdCurrentUpdate (different : s.cosInfo.currThd ≠ next) :
    Stacked ltbl (thdCurrentUpdate s next s.cosInfo.currThd) frames := by
  refine stacked.congr ?_ (topOf_thdCurrentUpdate different)
  intro t
  by_cases isCurr : t = s.cosInfo.currThd
  · subst isCurr
    simp [Composite.thdCurrentUpdate, Threads.modify]
  · simp [Composite.thdCurrentUpdate, Threads.modify, isCurr]

theorem Stacked.switchTo {nextCi : CompInfo} (different : s.cosInfo.currThd ≠ next)
    (switched : switchTo s s.cosInfo.currThd next ci nextCi regs = .ok s') :
    Stacked ltbl s' frames := by
  unfold Composite.switchTo at switched
  obtain ⟨⟨threads, nextRegs, preempt⟩, updated, done⟩ := bind_eq_ok.mp switched
  cases done
  have leaving : Stacked ltbl { s with
      threads := s.threads.modify s.cosInfo.currThd fun t => { t with regs := savedRegs t regs } }
      frames := stacked.sameStacks (by dsimp only; exact samePart_modify fun _ => rfl) rfl rfl
  refine (leaving.thdCurrentUpdate different).sameStacks ?_ rfl rfl
  dsimp only
  exact (samePart_switchUpdate undelivered_stack (fun _ _ => rfl) updated).trans
    (samePart_modify fun _ => rfl)

theorem Stacked.capThdSwitch
    (switched : capThdSwitch ltbl s s.cosInfo.currThd next ci regs = .ok s') :
    Stacked ltbl s' frames := by
  rcases capThdSwitch_cases switched with
    ⟨-, threads, after, preempt, updated, rfl⟩ | ⟨different, ⟨unchanged, -⟩ | ⟨-, switched⟩⟩
  · exact stacked.sameStacks (samePart_switchUpdate undelivered_stack (fun _ _ => rfl) updated) rfl
      rfl
  · rw [unchanged]
    exact stacked.congr (fun _ => rfl) fun _ => rfl
  · exact stacked.switchTo different switched

theorem Stacked.capThdSwitch_error {fault : Fault}
    (failed : Composite.capThdSwitch ltbl s s.cosInfo.currThd next ci regs = .error fault) :
    fault ≠ .dereference := by
  unfold Composite.capThdSwitch at failed
  split at failed
  · cases failed
    decide
  split at failed
  next same =>
    rcases bind_eq_error.mp failed with failed | ⟨updated, -, rest⟩
    · exact thdSwitchUpdate_error failed
    · cases rest
  next different =>
    have bounded := stacked.bounded next
    simp only [topOf, Ne.symm different, if_false] at bounded
    rw [Thread.invstkAt, if_pos bounded, ok_bind] at failed
    split_ifs at failed
    · unfold Composite.switchTo at failed
      rcases bind_eq_error.mp failed with failed | ⟨updated, -, rest⟩
      · exact thdSwitchUpdate_error failed
      · cases rest
    · cases failed
      decide

theorem Stacked.preempt (curr : Nat) :
    Stacked ltbl { s with threads := s.threads.modify curr fun t =>
      { t with state := { t.state with preempted := true } } } frames :=
  stacked.sameStacks (by dsimp only; exact samePart_modify fun _ => rfl) rfl rfl

theorem Stacked.switch {timer : Bool}
    (entered : invEntry ltbl s (.switch next timer regs) = .ok s') : Stacked ltbl s' frames := by
  simp only [invEntry, stacked.current, ok_bind] at entered
  split_ifs at entered
  · cases entered
    exact stacked.congr (fun _ => rfl) fun _ => rfl
  · exact (stacked.preempt s.cosInfo.currThd).capThdSwitch entered
  · exact stacked.capThdSwitch entered

theorem Stacked.switch_error {timer : Bool} {fault : Fault}
    (failed : invEntry ltbl s (.switch next timer regs) = .error fault) : fault ≠ .dereference := by
  simp only [invEntry, stacked.current, ok_bind] at failed
  split_ifs at failed
  · exact (stacked.preempt s.cosInfo.currThd).capThdSwitch_error failed
  · exact stacked.capThdSwitch_error failed

end

end Steps

def invNext (ltbl : Ltbl) (s : CpuState) (event : InvEvent) : Option CpuState :=
  (invEntry ltbl s event).toOption

/-- All threads are as `thd_activate` leaves them: at the bottom of their stack,
in a live component. -/
def Fresh (ltbl : Ltbl) (s : CpuState) : Prop :=
  s.cosInfo.invstkTop = 0 ∧ ∀ t, (s.threads t).invstkTop = 0 ∧
    ltblIsalive ltbl ((s.threads t).invstk 0).compInfo.liveness = true

theorem Fresh.topOf {ltbl : Ltbl} {s : CpuState} (fresh : Fresh ltbl s) (t : Nat) :
    topOf s t = 0 := by
  simp [Composite.topOf, fresh.1, (fresh.2 t).1]

theorem Fresh.stacked {ltbl : Ltbl} {s : CpuState} (fresh : Fresh ltbl s) :
    Stacked ltbl s fun _ => [] where
  bounded := by
    intro t
    rw [fresh.topOf]
    decide
  framed := by
    intro t
    rw [fresh.topOf]
    rfl
  alive := by
    intro t i below
    rw [fresh.topOf, Nat.le_zero] at below
    rw [below]
    exact (fresh.2 t).2

theorem Stacked.step {ltbl : Ltbl} {s s' : CpuState} {frames : Frames} {event : InvEvent}
    (stacked : Stacked ltbl s frames) (fits : InvFits ltbl s event)
    (stepped : invNext ltbl s event = some s') :
    Stacked ltbl s' (recordFrames ltbl s event frames) := by
  have entered : invEntry ltbl s event = .ok s' := by
    unfold invNext at stepped
    cases result : invEntry ltbl s event with
    | error fault =>
      rw [result] at stepped
      cases stepped
    | ok after =>
      rw [result] at stepped
      cases stepped
      rfl
  cases event with
  | sinv sinvc regs =>
    obtain ⟨after, result, kept⟩ := stacked.sinv fits
    rw [result] at entered
    cases entered
    exact kept
  | sret regs =>
    obtain ⟨after, result, kept, -⟩ := stacked.sret regs
    rw [result] at entered
    cases entered
    exact kept
  | switch next timer regs => exact stacked.switch entered

/-- In every run from fresh threads in which no invocation is carried out at the
last entry of a stack: no index leaves the stack, an invocation at the limit
changes no stack, and every return of a thread restores what its matching
invocation has saved, whatever the other threads have done since. -/
theorem invocation_stacks (ltbl : Ltbl) (start s : CpuState) (events : List InvEvent)
    (fresh : Fresh ltbl start)
    (fits : Transition.Meets (InvFits ltbl) (invNext ltbl) start events)
    (executed : Transition.exec (invNext ltbl) start events = some s) :
    let frames := Transition.trace (invNext ltbl) (recordFrames ltbl) start events fun _ => []
    (∀ event, InvFits ltbl s event → invEntry ltbl s event ≠ .error .dereference) ∧
      (∀ sinvc regs, InvFits ltbl s (.sinv sinvc regs) →
        s.cosInfo.invstkTop = thdInvstkMaxsz - 1 → ∃ s',
          invEntry ltbl s (.sinv sinvc regs) = .ok s' ∧ s'.threads = s.threads ∧
            s'.cosInfo = s.cosInfo) ∧
      ∀ regs frame rest, frames s.cosInfo.currThd = frame :: rest →
        ∃ s', invEntry ltbl s (.sret regs) = .ok s' ∧ s'.regs.ip = frame.ip ∧
          s'.regs.sp = frame.sp ∧ s'.pgtbl = frame.compInfo.pgtbl ∧
          thdInvstkCurrent s' = .ok frame := by
  intro frames
  have kept : ∀ (before : CpuState) event after (frames : Frames), Stacked ltbl before frames →
      InvFits ltbl before event → invNext ltbl before event = some after →
        Stacked ltbl after (recordFrames ltbl before event frames) :=
    fun _ _ _ _ stacked fits stepped => stacked.step fits stepped
  have stacked : Stacked ltbl s frames :=
    Transition.exec_invariant_trace kept fresh.stacked fits executed
  refine ⟨?_, ?_, ?_⟩
  · intro event fitsNow failed
    cases event with
    | sinv sinvc regs =>
      obtain ⟨after, result, -⟩ := stacked.sinv fitsNow
      rw [result] at failed
      cases failed
    | sret regs =>
      obtain ⟨after, result, -⟩ := stacked.sret regs
      rw [result] at failed
      cases failed
    | switch next timer regs =>
      exact stacked.switch_error failed rfl
  · intro sinvc regs fitsNow limit
    have dead : ¬ltblIsalive ltbl sinvc.compInfo.liveness = true := fun live => fitsNow live limit
    simp only [invEntry, stacked.current, Checked.ok_bind, sinvCall, if_pos dead]
    exact ⟨_, rfl, rfl, rfl⟩
  · intro regs frame rest framed
    obtain ⟨after, result, -, restored⟩ := stacked.sret regs
    exact ⟨after, result, restored frame rest framed⟩

section Runs

def userRegs (sp ip : Nat) : PtRegs := ⟨0, 0, ip, 0, 0, 0, sp, 0, 0⟩

theorem freshCpu_fresh (comp : CompInfo) (live : ltblIsalive ltblInit comp.liveness = true) :
    Fresh ltblInit (freshCpu comp) :=
  ⟨rfl, fun _ => ⟨rfl, live⟩⟩

def crossedRun : List InvEvent :=
  [.sinv ⟨⟨⟨0, 3⟩, 8, 9⟩, 64, 65⟩ (userRegs 20 21), .switch 2 true (userRegs 22 23),
    .sinv ⟨⟨⟨0, 3⟩, 8, 9⟩, 64, 65⟩ (userRegs 24 25), .switch 1 false (userRegs 26 27)]

theorem invocation_stacks_crossed :
    ∃ s ∈ Transition.exec (invNext ltblInit) (freshCpu ⟨⟨0, 2⟩, 6, 7⟩) crossedRun,
      ∃ s', invEntry ltblInit s (.sret (userRegs 28 29)) = .ok s' ∧ s'.regs.ip = 21 ∧
        s'.regs.sp = 20 ∧ s'.pgtbl = 6 ∧ thdInvstkCurrent s' = .ok ⟨⟨⟨0, 2⟩, 6, 7⟩, 20, 21⟩ := by
  obtain ⟨s, ran, current⟩ :
      ∃ s ∈ Transition.exec (invNext ltblInit) (freshCpu ⟨⟨0, 2⟩, 6, 7⟩) crossedRun,
        s.cosInfo.currThd = 1 := by decide +kernel
  have framed : Transition.trace (invNext ltblInit) (recordFrames ltblInit)
      (freshCpu ⟨⟨0, 2⟩, 6, 7⟩) crossedRun (fun _ => []) s.cosInfo.currThd =
        [⟨⟨⟨0, 2⟩, 6, 7⟩, 20, 21⟩] := by
    rw [current]
    decide +kernel
  exact ⟨s, ran, (invocation_stacks ltblInit (freshCpu ⟨⟨0, 2⟩, 6, 7⟩) s crossedRun
    (freshCpu_fresh _ (by decide)) (by decide +kernel) ran).2.2 _ _ _ framed⟩

/-- The thirty-second nested invocation writes the entry behind the stack. -/
theorem invocation_stacks_overflow :
    ∃ s ∈ Transition.exec (invNext ltblInit) (freshCpu ⟨⟨0, 2⟩, 6, 7⟩)
        (List.replicate 31 (.sinv ⟨⟨⟨0, 3⟩, 8, 9⟩, 64, 65⟩ (userRegs 20 21))),
      invEntry ltblInit s (.sinv ⟨⟨⟨0, 3⟩, 8, 9⟩, 64, 65⟩ (userRegs 20 21)) =
        .error .dereference := by
  decide +kernel

end Runs

end Composite
