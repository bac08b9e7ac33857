import Composite.Kernel.Dispatch.Scheduling

/-!
# The marks of a thread

A thread that was preempted is marked as such until it runs again, and so is a thread
that blocks in a receive.  The marks are set before the switch to another thread, which
the kernel refuses when the component of that thread is dead.
-/

namespace Composite

open Checked

structure Core.MarksSound (s : Core) : Prop where
  exclusive : ∀ t, ¬((s.threads t).state.preempted = true ∧ (s.threads t).state.rcving = true)
  running : (s.threads s.cosInfo.currThd).state = ⟨false, false⟩

def Mark.state : Option Mark → ThdState
  | none => ⟨false, false⟩
  | some .preempted => ⟨true, false⟩
  | some .rcving => ⟨false, true⟩

section Threads

variable {threads threads' : Threads} {thd : Nat}

theorem undelivered_state : Undelivered Thread.state := fun _ _ _ _ _ _ _ _ => rfl

theorem states_switchUpdate {regs regs' : PtRegs} {issame preempt : Bool}
    (result : thdSwitchUpdate threads thd regs issame = .ok (threads', regs', preempt)) (t : Nat) :
    (threads' t).state = if t = thd then ⟨false, false⟩ else (threads t).state := by
  rcases thdSwitchUpdate_cases result with
    ⟨marks, rfl⟩ | ⟨marks, after, delivery⟩ | ⟨marks, rfl⟩
  · rw [Threads.modify_apply]
    split_ifs <;> simp [marks]
  · rw [samePart_pendingDeliver undelivered_state delivery t, Threads.modify_apply]
    split_ifs <;> simp [marks]
  · split_ifs with same
    · rw [same, marks]
    · rfl

theorem marksFree_switchUpdate {regs : PtRegs} {issame : Bool}
    (exclusive : ¬((threads thd).state.preempted = true ∧ (threads thd).state.rcving = true)) :
    MarksFree (thdSwitchUpdate threads thd regs issame) := by
  unfold thdSwitchUpdate
  cases marks : (threads thd).state with
  | mk preempted rcving =>
    rw [marks] at exclusive
    cases preempted <;> cases rcving
    · simp
    · exact (marksFree_pendingDeliver _ _ _).bind fun _ => marksFree_ok _
    · simp
    · exact absurd ⟨rfl, rfl⟩ exclusive

end Threads

section Switch

variable {ltbl : Ltbl} {cpu cpu' : CpuState} {next : Nat} {ci : CompInfo} {regs : PtRegs}

/-- The thread `next` is the current one, or its component is alive. -/
def CpuState.Reaches (ltbl : Ltbl) (cpu : CpuState) (next : Nat) : Prop :=
  next = cpu.cosInfo.currThd ∨
    ltblIsalive ltbl
      ((cpu.threads next).invstk (cpu.threads next).invstkTop).compInfo.liveness = true

theorem sameStates_current (cpu : CpuState) (next curr : Nat) (regs : PtRegs) :
    SamePart Thread.state cpu.threads (thdCurrentUpdate { cpu with
      threads := cpu.threads.modify curr fun t => { t with regs := savedRegs t regs } }
      next curr).threads := by
  dsimp only [thdCurrentUpdate]
  refine SamePart.trans ?_ (samePart_modify fun _ => rfl)
  exact samePart_modify fun _ => rfl

theorem states_switchTo {nextCi : CompInfo} {curr : Nat}
    (switched : switchTo cpu curr next ci nextCi regs = .ok cpu') (t : Nat) :
    cpu'.cosInfo.currThd = next ∧
      (cpu'.threads t).state = if t = next then ⟨false, false⟩ else (cpu.threads t).state := by
  unfold switchTo at switched
  obtain ⟨⟨threads, nextRegs, preempt⟩, updated, rest⟩ := bind_eq_ok.mp switched
  cases rest
  refine ⟨rfl, ?_⟩
  have saved : SamePart Thread.state threads
      (threads.modify next fun t => { t with regs := nextRegs }) :=
    samePart_modify fun _ => rfl
  rw [saved t, states_switchUpdate updated t, sameStates_current cpu next curr regs t]

theorem marksFree_switchTo {nextCi : CompInfo} {curr : Nat}
    (exclusive :
      ¬((cpu.threads next).state.preempted = true ∧ (cpu.threads next).state.rcving = true)) :
    MarksFree (switchTo cpu curr next ci nextCi regs) := by
  refine (marksFree_switchUpdate ?_).bind fun _ => marksFree_ok _
  rw [sameStates_current cpu next curr regs next]
  exact exclusive

theorem states_thdSwitch
    (reaches : (cpu.threads cpu.cosInfo.currThd).state = ⟨false, false⟩ ∨ cpu.Reaches ltbl next)
    (switched : capThdSwitch ltbl cpu cpu.cosInfo.currThd next ci regs = .ok cpu') (t : Nat) :
    (cpu'.threads t).state =
      if t = cpu'.cosInfo.currThd then ⟨false, false⟩ else (cpu.threads t).state := by
  rcases capThdSwitch_cases switched with
    ⟨-, threads, after, preempt, updated, rfl⟩ | ⟨different, ⟨unchanged, dead⟩ | ⟨-, switched⟩⟩
  · exact states_switchUpdate updated t
  · have unmarked := reaches.resolve_right (not_or.mpr ⟨Ne.symm different, dead⟩)
    rw [unchanged]
    split_ifs with same
    · rw [same, unmarked]
    · rfl
  · obtain ⟨current, state⟩ := states_switchTo switched t
    rw [current, state]

theorem marksFree_thdSwitch
    (exclusive : ∀ t,
      ¬((cpu.threads t).state.preempted = true ∧ (cpu.threads t).state.rcving = true))
    (reaches : (cpu.threads cpu.cosInfo.currThd).state = ⟨false, false⟩ ∨ cpu.Reaches ltbl next) :
    MarksFree (capThdSwitch ltbl cpu cpu.cosInfo.currThd next ci regs) := by
  unfold capThdSwitch
  split
  · simp
  split
  · exact (marksFree_switchUpdate (exclusive _)).bind fun _ => marksFree_ok _
  next different =>
    intro failed
    rcases bind_eq_error.mp failed with failed | ⟨entry, found, failed⟩
    · unfold Thread.invstkAt at failed
      split_ifs at failed
      cases failed
    · unfold Thread.invstkAt at found
      split_ifs at found
      cases found
      split_ifs at failed with alive preempted
      · exact marksFree_switchTo (exclusive next) failed
      · -- the refused switch asserts that the current thread is not preempted
        rcases reaches with unmarked | same | living
        · rw [unmarked] at preempted
          cases preempted
        · exact different same.symm
        · exact alive living

end Switch

section Entries

variable {s s' s₁ : Core} {mark : Option Mark}

/-- A preparation changes no mark but that of the current thread. -/
theorem Prepared.states (prepared : Prepared s mark s₁) (sound : s.MarksSound) (t : Nat) :
    (s₁.threads t).state = if t = s.cosInfo.currThd then Mark.state mark
      else (s.threads t).state := by
  induction prepared with
  | start =>
    split_ifs with same
    · rw [same, sound.running]
      rfl
    · rfl
  | similar before similar kept => rw [similar.states, kept]
  | send receiver before sent kept =>
    rw [← kept]
    refine SamePart.trans ?_ (listsOnly_notifyLoop sent).states t
    exact samePart_modify fun _ => rfl
  | notify thd before notified kept =>
    rw [← kept]
    exact (listsOnly_notifyLoop notified).states t
  | preempt before kept =>
    simp only [Core.markPreempted, Core.withThreads, Threads.modify_apply]
    split_ifs with same
    · subst same
      rw [kept]
      simp [Mark.state]
    · rw [kept, if_neg same]
  | block all timeout before notified similar kept =>
    simp only [Core.markRcving, Core.withThreads, Threads.modify_apply]
    have others := (listsOnly_notifyLoop notified).states.trans similar.states t
    split_ifs with same
    · subst same
      rw [others, kept]
      simp [Mark.state]
    · rw [others, kept, if_neg same]

theorem Prepared.exclusive (prepared : Prepared s mark s₁) (sound : s.MarksSound) (t : Nat) :
    ¬((s₁.threads t).state.preempted = true ∧ (s₁.threads t).state.rcving = true) := by
  rw [prepared.states sound t]
  split_ifs
  · rcases mark with _ | _ | _ <;> simp [Mark.state]
  · exact sound.exclusive t

theorem Prepared.marksSound (prepared : Prepared s none s₁) (sound : s.MarksSound) :
    s₁.MarksSound where
  exclusive := prepared.exclusive sound
  running := by rw [prepared.stacks_kept.2.1.currThd, prepared.states sound, if_pos rfl, Mark.state]

theorem Core.MarksSound.of_states
    (exclusive : ∀ t, ¬((s.threads t).state.preempted = true ∧ (s.threads t).state.rcving = true))
    (states : ∀ t, (s'.threads t).state =
      if t = s'.cosInfo.currThd then ⟨false, false⟩ else (s.threads t).state) : s'.MarksSound where
  exclusive t := by
    rw [states t]
    split_ifs
    · simp
    · exact exclusive t
  running := by rw [states, if_pos rfl]

theorem Entered.marksSound {target : Nat → Prop} {result : Except Fault Core}
    (entered : Entered s target result) (sound : s.MarksSound)
    (reaches : ∀ next, target next → s.toCpuState.Reaches s.ltbl next) :
    MarksFree result ∧ ∀ s', result = .ok s' → s'.MarksSound := by
  induction entered with
  | back prepared =>
    refine ⟨marksFree_ok _, fun s' finished => ?_⟩
    cases finished
    exact prepared.marksSound sound
  | deliver prepared delivered =>
    refine ⟨marksFree_ok _, fun s' finished => ?_⟩
    cases finished
    have before := prepared.marksSound sound
    have same := samePart_pendingDeliver undelivered_state delivered
    exact ⟨fun t => same t ▸ before.exclusive t, (same _).trans before.running⟩
  | @switch mark s₁ next regs prepared aimed =>
    obtain ⟨kept, current, -, ltbl⟩ := prepared.stacks_kept
    have reached : (s₁.threads s₁.cosInfo.currThd).state = ⟨false, false⟩ ∨
        s₁.toCpuState.Reaches s₁.ltbl next := by
      cases mark with
      | none => exact .inl (prepared.marksSound sound).running
      | some mark =>
        refine .inr ?_
        unfold CpuState.Reaches
        rw [current.currThd, kept.invstk, kept.invstkTop, ltbl]
        exact reaches next (aimed nofun)
    rw [← current.currThd]
    refine ⟨(marksFree_thdSwitch (prepared.exclusive sound) reached).bind fun _ =>
      marksFree_ok _, ?_⟩
    intro s' finished
    obtain ⟨cpu, switched, rest⟩ := bind_eq_ok.mp finished
    cases rest
    exact .of_states (prepared.exclusive sound) (states_thdSwitch reached switched)
  | after before similar kept =>
    refine ⟨marksFree_ok _, fun s' finished => ?_⟩
    cases finished
    have after := kept.2 _ rfl
    refine ⟨fun t => similar.states t ▸ after.exclusive t, ?_⟩
    rw [similar.current.currThd, similar.states, after.running]
  | fault other => exact ⟨marksFree_error.mpr other, nofun⟩
  | preempted prepared preempted =>
    have running := (prepared.marksSound sound).running
    rw [prepared.stacks_kept.2.1.currThd] at running
    rw [running] at preempted
    cases preempted

end Entries

/-- What the calls on the capability tables write to a thread: a new thread in zeroed
memory, its thread-local storage, its references and its receive end-point. -/
inductive ThreadWrite where
  | activate (tid cpuid scheduler : Nat) (comp : CompInfo) (regs : PtRegs)
  | tlsSet (addr : Nat)
  | refcnt (count : Nat)
  | rcvcap (info : RcvcapInfo)

def ThreadWrite.apply (write : ThreadWrite) (thd : Thread) : Thread :=
  match write with
  | .activate tid cpuid scheduler comp regs =>
    { Thread.zero with
      tid := tid, cpuid := cpuid, refcnt := 1, regs := regs, schedulerThread := some scheduler
      invstk := fun i => ⟨if i = 0 then comp else ⟨⟨0, 0⟩, 0, 0⟩, 0, 0⟩ }
  | .tlsSet addr => { thd with tls := addr }
  | .refcnt count => { thd with refcnt := count }
  | .rcvcap info => { thd with rcvcap := info }

theorem ThreadWrite.state (write : ThreadWrite) (thd : Thread) :
    (write.apply thd).state = thd.state ∨ (write.apply thd).state = ⟨false, false⟩ := by
  cases write with
  | activate => exact .inr rfl
  | tlsSet => exact .inl rfl
  | refcnt => exact .inl rfl
  | rcvcap => exact .inl rfl

theorem Core.MarksSound.write {s : Core} (sound : s.MarksSound) (t : Nat) (write : ThreadWrite) :
    (s.withThreads (s.threads.modify t write.apply)).MarksSound := by
  have states : ∀ other, ((s.threads.modify t write.apply) other).state = (s.threads other).state ∨
      ((s.threads.modify t write.apply) other).state = ⟨false, false⟩ := by
    intro other
    rw [Threads.modify_apply]
    split_ifs with same
    · subst same
      exact write.state _
    · exact .inl rfl
  refine ⟨fun other => ?_, ?_⟩
  · rcases states other with same | unmarked
    · exact fun both => sound.exclusive other (same ▸ both)
    · exact fun both => by simp [Core.withThreads, unmarked] at both
  · rcases states s.cosInfo.currThd with same | unmarked
    · exact same.trans sound.running
    · exact unmarked

/-- What changes the threads of a core: the entries that run on it and the calls on
capability tables, from any core. -/
inductive ThreadEvent where
  | entry (event : CoreEvent)
  | write (t : Nat) (write : ThreadWrite)

namespace Core

def threadEntry (thresh : Nat) (s : Core) : ThreadEvent → Except Fault Core
  | .entry event => s.entry thresh event
  | .write t write => .ok (s.withThreads (s.threads.modify t write.apply))

def threadNext (thresh : Nat) (s : Core) (event : ThreadEvent) : Option Core :=
  (s.threadEntry thresh event).toOption

/-- Where an entry switches after it has marked the current thread, it goes to a thread
whose component is alive. -/
def MarkedAlive (thresh : Nat) (s : Core) : ThreadEvent → Prop
  | .entry event => ∀ next ∈ s.markTarget thresh event, next = s.cosInfo.currThd ∨
        ltblIsalive s.ltbl
          ((s.threads next).invstk (s.threads next).invstkTop).compInfo.liveness = true
  | .write .. => True

theorem MarksSound.of_stacks {s : Core} {cpu : CpuState} (sound : s.MarksSound)
    (only : s.toCpuState.StacksOnly cpu) : (s.withCpu cpu).MarksSound := by
  have same : SamePart Thread.state s.threads cpu.threads := only.threads.map Thread.state
  refine ⟨fun t => same t ▸ sound.exclusive t, ?_⟩
  rw [← sound.running, ← same]
  exact congrArg (fun t => (cpu.threads t).state) only.current

theorem MarksSound.threadEntry {thresh : Nat} {s : Core} (sound : s.MarksSound)
    {event : ThreadEvent}
    (alive : s.MarkedAlive thresh event) :
    MarksFree (s.threadEntry thresh event) ∧
      ∀ s', s.threadEntry thresh event = .ok s' → s'.MarksSound := by
  cases event with
  | write t write =>
    refine ⟨marksFree_ok _, fun s' finished => ?_⟩
    cases finished
    exact sound.write t write
  | entry event =>
    cases event with
    | sret regs =>
      refine ⟨(marksFree_sret _ _ _).bind fun _ => marksFree_ok _, fun s' finished => ?_⟩
      obtain ⟨cpu, result, rest⟩ := bind_eq_ok.mp finished
      cases rest
      exact sound.of_stacks (stacksOnly_sret result)
    | sinv sinvc regs =>
      refine ⟨MarksFree.bind ((marksFree_invstkCurrent _).bind fun _ => marksFree_sinv _ _ _ _)
        fun _ => marksFree_ok _, fun s' finished => ?_⟩
      obtain ⟨cpu, result, rest⟩ := bind_eq_ok.mp finished
      cases rest
      obtain ⟨entry, -, called⟩ := bind_eq_ok.mp result
      exact sound.of_stacks (stacksOnly_sinv called)
    | compDeactivate liveness =>
      refine ⟨marksFree_ok _, fun s' finished => ?_⟩
      cases finished
      exact ⟨sound.exclusive, sound.running⟩
    | wait cycles =>
      refine ⟨marksFree_ok _, fun s' finished => ?_⟩
      cases finished
      exact ⟨sound.exclusive, sound.running⟩
    | thd | asnd | arcv | tcap | hwAsnd | timer =>
      refine (entered_of_schedules ?_).marksSound sound alive
      trivial

end Core

/-- In every run whose marked switches all go to live components, no thread is preempted
and receiving, the thread that the kernel returns to is neither, and no further entry
that meets the condition fails an assertion about marks. -/
theorem thread_marks (thresh : Nat) (start s : Core) (events : List ThreadEvent)
    (sound : start.MarksSound)
    (alive : Transition.Meets (Core.MarkedAlive thresh) (Core.threadNext thresh) start events)
    (executed : Transition.exec (Core.threadNext thresh) start events = some s) :
    (∀ t, ¬((s.threads t).state.preempted = true ∧ (s.threads t).state.rcving = true)) ∧
      (s.threads s.cosInfo.currThd).state = ⟨false, false⟩ ∧
      ∀ event, s.MarkedAlive thresh event → s.threadEntry thresh event ≠ .error .marks := by
  have kept : ∀ (before : Core) event after, before.MarksSound → before.MarkedAlive thresh event →
      before.threadNext thresh event = some after → after.MarksSound := by
    intro before event after sound alive stepped
    refine (sound.threadEntry alive).2 after ?_
    unfold Core.threadNext at stepped
    cases result : before.threadEntry thresh event with
    | error fault =>
      rw [result] at stepped
      cases stepped
    | ok s' =>
      rw [result] at stepped
      cases stepped
      rfl
  have final := Transition.exec_invariant kept sound alive executed
  exact ⟨final.exclusive, final.running, fun event alive => (final.threadEntry alive).1⟩

instance (thresh : Nat) (s : Core) (event : ThreadEvent) : Decidable (s.MarkedAlive thresh event) :=
  match event with
  | .write .. => .isTrue trivial
  | .entry event => inferInstanceAs (Decidable (∀ next ∈ s.markTarget thresh event, _))

def switchAndInvoke : List ThreadEvent :=
  [.entry (.thd (fun _ _ => none) ⟨2, 0⟩ .zero), .entry (.sinv ⟨⟨⟨0, 3⟩, 8, 9⟩, 64, 65⟩ .zero)]

/-- The timer preempts the thread 2. -/
theorem thread_marks_timer :
    ∃ s ∈ Transition.exec (Core.threadNext 0) (freshCore ⟨⟨0, 2⟩, 6, 7⟩)
        (switchAndInvoke ++ [.entry (.wait 1000), .entry (.timer .zero)]),
      (s.threads 2).state = ⟨true, false⟩ ∧
        (∀ t, ¬((s.threads t).state.preempted = true ∧ (s.threads t).state.rcving = true)) ∧
        (s.threads s.cosInfo.currThd).state = ⟨false, false⟩ ∧
        ∀ event, s.MarkedAlive 0 event → s.threadEntry 0 event ≠ .error .marks := by
  obtain ⟨s, ran, preempted⟩ :
      ∃ s ∈ Transition.exec (Core.threadNext 0) (freshCore ⟨⟨0, 2⟩, 6, 7⟩)
          (switchAndInvoke ++ [.entry (.wait 1000), .entry (.timer .zero)]),
        (s.threads 2).state = ⟨true, false⟩ := by
    decide +kernel
  exact ⟨s, ran, preempted, thread_marks 0 (freshCore ⟨⟨0, 2⟩, 6, 7⟩) s
    (switchAndInvoke ++ [.entry (.wait 1000), .entry (.timer .zero)])
      ⟨fun _ => by simp [freshCore, freshCpu, Thread.zero], rfl⟩
    (by decide +kernel) ran⟩

/-- The component of the scheduler is deactivated.  A receive of the thread 2 is then
refused and returns to it with the mark, and the timer fails an assertion. -/
theorem thread_marks_dead_scheduler :
    ∃ s ∈ Transition.exec (Core.threadNext 0) (freshCore ⟨⟨0, 2⟩, 6, 7⟩)
        (switchAndInvoke ++
          [.entry (.compDeactivate ⟨0, 2⟩), .entry (.arcv ⟨⟨⟨0, 3⟩, 8, 9⟩, 0, 0, 2, 1⟩ .zero)]),
      s.cosInfo.currThd = 2 ∧ (s.threads 2).state = ⟨false, true⟩ ∧
        (s.threadEntry 0 (.entry (.timer .zero))).toOption.isNone = true := by
  decide +kernel

end Composite
