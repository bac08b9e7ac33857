import Composite.Kernel.Dispatch.Scheduling

/-!
# The loaded page table

The page table in use is that of the component on top of the current thread's
invocation stack.
-/

namespace Composite

open Checked

def CpuState.Loaded (s : CpuState) : Prop :=
  s.pgtbl = ((s.threads s.cosInfo.currThd).invstk s.cosInfo.invstkTop).compInfo.pgtbl

section Entries

variable {s s' : Core}

theorem CpuState.Loaded.congr {cpu cpu' : CpuState} (loaded : cpu.Loaded)
    (threads : SamePart Thread.stack cpu.threads cpu'.threads)
    (current : SameCurrent cpu.cosInfo cpu'.cosInfo) (pgtbl : cpu'.pgtbl = cpu.pgtbl) :
    cpu'.Loaded := by
  unfold CpuState.Loaded at loaded ⊢
  rw [pgtbl, loaded, current.currThd, current.invstkTop, threads.invstk]

theorem CpuState.Loaded.switchTo {cpu cpu' : CpuState} (loaded : cpu.Loaded) {next : Nat}
    {regs : PtRegs} (different : cpu.cosInfo.currThd ≠ next)
    (switched : Composite.switchTo cpu cpu.cosInfo.currThd next
      ((cpu.threads cpu.cosInfo.currThd).invstk cpu.cosInfo.invstkTop).compInfo
      ((cpu.threads next).invstk (cpu.threads next).invstkTop).compInfo regs = .ok cpu') :
    cpu'.Loaded := by
  unfold Composite.switchTo at switched
  obtain ⟨⟨threads, nextRegs, preempt⟩, updated, rest⟩ := bind_eq_ok.mp switched
  cases rest
  have kept : (threads next).invstk = _ :=
    samePart_switchUpdate (fun _ _ _ _ _ _ _ _ => rfl) (fun _ _ => rfl) updated next
  simp only [CpuState.Loaded, thdCurrentUpdate, Threads.modify_apply, if_true] at kept ⊢
  simp only [different.symm, if_false] at kept ⊢
  rw [kept]
  split_ifs with other
  · rfl
  · rw [not_not] at other
    rw [← other]
    exact loaded

theorem CpuState.Loaded.thdSwitch {cpu cpu' : CpuState} {ltbl : Ltbl} (loaded : cpu.Loaded)
    {next : Nat} {regs : PtRegs}
    (switched : capThdSwitch ltbl cpu cpu.cosInfo.currThd next
      ((cpu.threads cpu.cosInfo.currThd).invstk cpu.cosInfo.invstkTop).compInfo regs = .ok cpu') :
    cpu'.Loaded := by
  rcases capThdSwitch_cases switched with
    ⟨-, threads, after, preempt, updated, rfl⟩ | ⟨different, ⟨unchanged, -⟩ | ⟨-, switched⟩⟩
  · exact loaded.congr (samePart_switchUpdate undelivered_stack (fun _ _ => rfl) updated)
      (.refl _) rfl
  · rw [unchanged]
    exact loaded.congr (.refl _) (.refl _) rfl
  · exact loaded.switchTo different switched

/-- Every call that may switch threads keeps the right page table loaded. -/
theorem Entered.loaded {target : Nat → Prop} {result : Except Fault Core}
    (entered : Entered s target result) (finished : result = .ok s')
    (loaded : s.toCpuState.Loaded) :
    s'.toCpuState.Loaded := by
  induction entered generalizing s' with
  | back prepared =>
    cases finished
    obtain ⟨threads, current, pgtbl, -⟩ := prepared.stacks_kept
    exact loaded.congr threads current pgtbl
  | deliver prepared delivered =>
    cases finished
    obtain ⟨threads, current, pgtbl, -⟩ := prepared.stacks_kept
    exact loaded.congr (threads.trans (samePart_pendingDeliver undelivered_stack delivered)) current
      pgtbl
  | switch prepared aimed =>
    obtain ⟨threads, current, pgtbl, -⟩ := prepared.stacks_kept
    obtain ⟨cpu, switched, rest⟩ := bind_eq_ok.mp finished
    cases rest
    have before := loaded.congr threads current pgtbl
    rw [← current.currThd, ← current.invstkTop, ← threads.invstk] at switched
    exact before.thdSwitch switched
  | after before similar kept =>
    cases finished
    exact (kept rfl).congr similar.stacks similar.current similar.pgtbl
  | fault => cases finished
  | preempted => cases finished

theorem CpuState.Loaded.sinv {cpu cpu' : CpuState} {ltbl : Ltbl} (loaded : cpu.Loaded)
    {sinvc : CapSinv} {regs : PtRegs} (result : sinvCall ltbl cpu sinvc regs = .ok cpu') :
    cpu'.Loaded := by
  unfold sinvCall at result
  simp only at result
  split at result
  · cases result
    exact loaded
  · obtain ⟨pushed, push, rest⟩ := bind_eq_ok.mp result
    cases pushed with
    | none =>
      cases rest
      exact loaded
    | some after =>
      cases rest
      unfold thdInvstkPush at push
      simp only at push
      by_cases full : cpu.cosInfo.invstkTop ≥ thdInvstkMaxsz
      · rw [if_pos full] at push
        cases push
      rw [if_neg full] at push
      obtain ⟨saved, first, remaining⟩ := bind_eq_ok.mp push
      obtain ⟨entered, second, last⟩ := bind_eq_ok.mp remaining
      unfold Thread.setInvstk at first second
      split_ifs at first second
      cases second
      cases last
      simp [CpuState.Loaded]

theorem CpuState.Loaded.sret {cpu cpu' : CpuState} {ltbl : Ltbl} (loaded : cpu.Loaded)
    {regs : PtRegs}
    (returns : cpu.cosInfo.invstkTop ≠ 0 →
      ltblIsalive ltbl ((cpu.threads cpu.cosInfo.currThd).invstk
        (cpu.cosInfo.invstkTop - 1)).compInfo.liveness = true ∨
      ((cpu.threads cpu.cosInfo.currThd).invstk (cpu.cosInfo.invstkTop - 1)).compInfo.pgtbl =
        cpu.pgtbl)
    (result : sretRet ltbl cpu regs = .ok cpu') : cpu'.Loaded := by
  unfold sretRet at result
  obtain ⟨popped, pop, rest⟩ := bind_eq_ok.mp result
  unfold thdInvstkPop at pop
  by_cases bottom : cpu.cosInfo.invstkTop = 0
  · rw [if_pos bottom] at pop
    cases pop
    cases rest
    exact loaded
  · rw [if_neg bottom] at pop
    obtain ⟨entry, current, found⟩ := bind_eq_ok.mp pop
    have entryEq := Core.thdInvstkCurrent_eq current
    cases found
    simp only at rest
    split_ifs at rest with alive
    · cases rest
      simp [CpuState.Loaded, entryEq]
    · cases rest
      have same := (returns bottom).resolve_left (by simpa [entryEq] using alive)
      simp [CpuState.Loaded, same]

end Entries

def Core.ReturnsAlive (s : Core) : CoreEvent → Prop
  | .sret _ => s.cosInfo.invstkTop ≠ 0 →
      ltblIsalive s.ltbl ((s.threads s.cosInfo.currThd).invstk
        (s.cosInfo.invstkTop - 1)).compInfo.liveness = true ∨
      ((s.threads s.cosInfo.currThd).invstk (s.cosInfo.invstkTop - 1)).compInfo.pgtbl = s.pgtbl
  | _ => True

/-- In every run whose returns meet the condition, the page table of the component on
top of the current thread's invocation stack is loaded after every system call and
interrupt. -/
theorem loaded_pgtbl (thresh : Nat) (start s : Core) (events : List CoreEvent)
    (loaded : start.toCpuState.Loaded)
    (returns : Transition.Meets Core.ReturnsAlive (Core.next thresh) start events)
    (executed : Transition.exec (Core.next thresh) start events = some s) :
    s.pgtbl = ((s.threads s.cosInfo.currThd).invstk s.cosInfo.invstkTop).compInfo.pgtbl := by
  have kept : ∀ (before : Core) event after, before.toCpuState.Loaded → before.ReturnsAlive event →
      before.next thresh event = some after → after.toCpuState.Loaded := by
    intro before event after loaded returns stepped
    have entered := Core.next_eq_some.mp stepped
    cases event with
    | sret regs =>
      obtain ⟨cpu, result, rest⟩ := Checked.bind_eq_ok.mp entered
      cases rest
      exact loaded.sret returns result
    | sinv sinvc regs =>
      obtain ⟨cpu, result, rest⟩ := Checked.bind_eq_ok.mp entered
      cases rest
      obtain ⟨entry, -, called⟩ := Checked.bind_eq_ok.mp result
      exact loaded.sinv called
    | compDeactivate liveness =>
      cases entered
      exact loaded
    | wait cycles =>
      cases entered
      exact loaded
    | thd | asnd | arcv | tcap | hwAsnd | timer =>
      refine (Core.entered_of_schedules ?_).loaded entered loaded
      trivial
  exact Transition.exec_invariant kept loaded returns executed

/-- The current thread invokes a component with the page table 8, the timer goes off
there, and the thread returns. -/
def invokeAndReturn : List CoreEvent :=
  [.sinv ⟨⟨⟨0, 3⟩, 8, 9⟩, 64, 65⟩ .zero, .wait 1000, .timer .zero, .sret .zero]

instance (s : Core) (event : CoreEvent) : Decidable (s.ReturnsAlive event) :=
  match event with
  | .sret _ => inferInstanceAs (Decidable (_ → _ ∨ _))
  | .sinv .. | .thd .. | .asnd .. | .arcv .. | .tcap .. | .hwAsnd .. | .timer ..
  | .compDeactivate ..
  | .wait .. => .isTrue trivial

theorem loaded_pgtbl_return :
    ∃ s ∈ Transition.exec (Core.next 0) (freshCore ⟨⟨0, 2⟩, 6, 7⟩) invokeAndReturn,
      s.cosInfo.invstkTop = 0 ∧ s.cosInfo.currThd = 1 ∧
        s.pgtbl = ((s.threads s.cosInfo.currThd).invstk s.cosInfo.invstkTop).compInfo.pgtbl := by
  obtain ⟨s, ran, top, current⟩ :
      ∃ s ∈ Transition.exec (Core.next 0) (freshCore ⟨⟨0, 2⟩, 6, 7⟩) invokeAndReturn,
        s.cosInfo.invstkTop = 0 ∧ s.cosInfo.currThd = 1 := by
    decide +kernel
  exact ⟨s, ran, top, current,
    loaded_pgtbl 0 (freshCore ⟨⟨0, 2⟩, 6, 7⟩) s invokeAndReturn rfl (by decide +kernel) ran⟩

/-- The caller is deactivated while it waits: the return takes it off the stack and
leaves the page table of the callee in use. -/
theorem loaded_pgtbl_dead_caller :
    ∃ s ∈ Transition.exec (Core.next 0) (freshCore ⟨⟨0, 2⟩, 6, 7⟩)
        [.sinv ⟨⟨⟨0, 3⟩, 8, 9⟩, 64, 65⟩ .zero, .compDeactivate ⟨0, 2⟩, .sret .zero],
      s.pgtbl = 8 ∧
        ((s.threads s.cosInfo.currThd).invstk s.cosInfo.invstkTop).compInfo.pgtbl = 6 := by
  decide +kernel

end Composite
