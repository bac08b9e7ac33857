import Composite.Kernel.Dispatch.Scheduling

/-!
# Notifications in the hierarchy of schedulers

A send counts at the receiving thread and puts it on the event list of its parent, and
so on upwards as long as the parents are blocked.  A parent learns from the event
whether the thread is blocked.  Nothing is lost: a blocked thread with something to
receive waits on the list of its parent, or the parent has been told that it can run.
-/

namespace Composite

open Checked List

namespace Threads

variable {threads threads' : Threads} {e prev : Nat}

structure ListsSound (threads : Threads) : Prop where
  listed : ∀ e p, e ∈ (threads p).eventHead ↔ (threads e).eventList = some p
  nodup : ∀ p, (threads p).eventHead.Nodup
  parent : ∀ e p, (threads e).eventList = some p → threads.arcvNotif e = some p ∧ p ≠ e

/-- If the thread is blocked below another one and has something to receive, its parent
finds it on its event list or was last told that it is not blocked. -/
def Reported (threads : Threads) (e : Nat) : Prop :=
  ∀ p, (threads e).rcvcap.isbound = true → threads.arcvNotif e = some p → p ≠ e →
    (threads e).state.rcving = true → thdRcvcapPending threads e ≠ 0 →
    e ∈ (threads p).eventHead ∨ (threads e).lastReport = some false

structure Notified (threads : Threads) : Prop where
  lists : threads.ListsSound
  reported : ∀ e, threads.Reported e

theorem rcvcapPending_ne_zero (threads : Threads) (t : Nat) :
    thdRcvcapPending threads t ≠ 0 ↔
      (threads t).rcvcap.pending ≠ 0 ∨ (threads t).eventHead ≠ [] := by
  unfold thdRcvcapPending
  split_ifs with pending empty
  · simp [pending]
  · simpa using And.intro (not_not.mp pending) (isEmpty_iff.mp empty)
  · simpa using .inr fun nil => empty (isEmpty_iff.mpr nil)

/-- The thread has no more to report than before. -/
structure Quieter (t t' : Thread) : Prop where
  bound : t'.rcvcap.isbound = t.rcvcap.isbound
  notif : t'.rcvcap.rcvcapThdNotif = t.rcvcap.rcvcapThdNotif
  rcving : t'.state.rcving = true → t.state.rcving = true
  pending : t'.rcvcap.pending ≠ 0 ∨ t'.eventHead ≠ [] → t.rcvcap.pending ≠ 0 ∨ t.eventHead ≠ []
  lastReport : t'.lastReport = t.lastReport

def links (t : Thread) : Option Nat × List Nat × Option Nat :=
  (t.rcvcap.rcvcapThdNotif, t.eventHead, t.eventList)

theorem Reported.mono (reported : threads.Reported e) (quieter : Quieter (threads e) (threads' e))
    (listed : ∀ p, e ∈ (threads p).eventHead → e ∈ (threads' p).eventHead) :
    threads'.Reported e := by
  intro p isbound parent other blocked waiting
  rw [quieter.bound] at isbound
  rw [arcvNotif, quieter.notif] at parent
  rw [rcvcapPending_ne_zero] at waiting
  rcases reported p isbound parent other (quieter.rcving blocked)
    ((rcvcapPending_ne_zero threads e).mpr (quieter.pending waiting)) with member | told
  · exact .inl (listed p member)
  · exact .inr (quieter.lastReport.trans told)

section Links

variable (same : SamePart links threads threads')

include same

theorem links_notif (t : Nat) : threads'.arcvNotif t = threads.arcvNotif t :=
  congrArg Prod.fst (same t)

theorem links_eventHead (t : Nat) : (threads' t).eventHead = (threads t).eventHead :=
  congrArg (·.2.1) (same t)

theorem ListsSound.congr (lists : threads.ListsSound) : threads'.ListsSound := by
  have eventList : ∀ t, (threads' t).eventList = (threads t).eventList :=
    fun t => congrArg (·.2.2) (same t)
  refine ⟨fun e p => ?_, fun p => ?_, fun e p => ?_⟩
  · rw [links_eventHead same, eventList, lists.listed]
  · rw [links_eventHead same]
    exact lists.nodup p
  · rw [eventList, links_notif same]
    exact lists.parent e p

theorem Notified.relink (notified : threads.Notified)
    (each : ∀ e, Quieter (threads e) (threads' e) ∨ threads'.Reported e) : threads'.Notified where
  lists := notified.lists.congr same
  reported e := (each e).elim
    (fun quieter => (notified.reported e).mono quieter fun p => by
      rw [links_eventHead same]
      exact id)
    id

end Links

theorem Notified.modify {thd : Nat} {change : Thread → Thread} (notified : threads.Notified)
    (kept : ∀ t, links (change t) = links t) (quieter : ∀ t, Quieter t (change t)) :
    (threads.modify thd change).Notified := by
  refine notified.relink (samePart_modify kept) fun e => .inl ?_
  rw [modify_apply]
  split_ifs with same
  · exact same ▸ quieter _
  · exact ⟨rfl, rfl, id, id, rfl⟩

/-- What the notifications depend on. -/
def notice (t : Thread) : (Option Nat × List Nat × Option Nat) × Bool × Nat × Bool × Option Bool :=
  (links t, t.rcvcap.isbound, t.rcvcap.pending, t.state.rcving, t.lastReport)

theorem Notified.congr (notified : threads.Notified) (same : SamePart notice threads threads') :
    threads'.Notified := by
  refine notified.relink (same.map Prod.fst) fun e => .inl ?_
  have each := same e
  simp only [notice, links, Prod.mk.injEq] at each
  obtain ⟨⟨notif, eventHead, -⟩, bound, pending, rcving, lastReport⟩ := each
  exact ⟨bound, notif, by rw [rcving]; exact id, by rw [pending, eventHead]; exact id, lastReport⟩

section Enqueue

variable (threads) (head t : Nat)

theorem evtEnqueue_eventHead (p : Nat) : (threads.evtEnqueue head t p).eventHead =
    if ((threads t).eventList = none ∧ head ≠ t) ∧ p = head then (threads p).eventHead ++ [t]
    else (threads p).eventHead := by
  unfold evtEnqueue
  by_cases enqueued : (threads t).eventList = none ∧ head ≠ t
  · rw [if_pos enqueued]
    simp only [modify_apply, enqueued, true_and, if_neg enqueued.2.symm]
    by_cases atHead : p = head
    · subst atHead
      simp [enqueued.2]
    · by_cases atThread : p = t
      · subst atThread
        simp [atHead]
      · simp [atHead, atThread]
  · rw [if_neg enqueued, if_neg fun both => enqueued both.1]

theorem evtEnqueue_eventList (e : Nat) : (threads.evtEnqueue head t e).eventList =
    if ((threads t).eventList = none ∧ head ≠ t) ∧ e = t then some head
    else (threads e).eventList := by
  unfold evtEnqueue
  by_cases enqueued : (threads t).eventList = none ∧ head ≠ t
  · rw [if_pos enqueued]
    simp only [modify_apply, enqueued, true_and]
    split_ifs <;> simp_all
  · rw [if_neg enqueued, if_neg fun both => enqueued both.1]

variable {threads head t}

theorem mem_evtEnqueue (lists : threads.ListsSound) (parent : threads.arcvNotif t = some head)
    (other : head ≠ t) : t ∈ (threads.evtEnqueue head t head).eventHead := by
  rw [evtEnqueue_eventHead]
  by_cases waiting : (threads t).eventList = none
  · simp [waiting, other]
  · obtain ⟨p, listed⟩ := Option.ne_none_iff_exists'.mp waiting
    obtain ⟨isParent, -⟩ := lists.parent t p listed
    rw [if_neg fun both => waiting both.1.1, lists.listed, listed, ← isParent, parent]

theorem mem_evtEnqueue_of_mem {e p : Nat} (member : e ∈ (threads p).eventHead) :
    e ∈ (threads.evtEnqueue head t p).eventHead := by
  rw [evtEnqueue_eventHead]
  split_ifs
  · exact mem_append_left _ member
  · exact member

theorem arcvNotif_evtEnqueue (e : Nat) :
    (threads.evtEnqueue head t).arcvNotif e = threads.arcvNotif e :=
  congrArg RcvcapInfo.rcvcapThdNotif ((listsOnly_evtEnqueue threads head t).rcvcap e)

theorem ListsSound.evtEnqueue (lists : threads.ListsSound)
    (parent : threads.arcvNotif t = some head) : (threads.evtEnqueue head t).ListsSound := by
  by_cases enqueued : (threads t).eventList = none ∧ head ≠ t
  · have unlisted : ∀ p, t ∉ (threads p).eventHead := by
      intro p member
      rw [lists.listed, enqueued.1] at member
      cases member
    refine ⟨fun e p => ?_, fun p => ?_, fun e p => ?_⟩
    · simp only [evtEnqueue_eventHead, evtEnqueue_eventList, enqueued.1, ne_eq, enqueued.2,
        not_false_eq_true, true_and]
      by_cases atThread : e = t
      · subst atThread
        by_cases atHead : p = head
        · simp [atHead]
        · simp [atHead, unlisted p, Ne.symm atHead]
      · rw [if_neg atThread, ← lists.listed]
        split_ifs <;> simp [atThread]
    · rw [evtEnqueue_eventHead]
      split_ifs
      · exact (lists.nodup p).append (nodup_singleton t) (by simpa using unlisted p)
      · exact lists.nodup p
    · rw [evtEnqueue_eventList, arcvNotif_evtEnqueue]
      split_ifs with atThread
      · intro atHead
        cases atHead
        rw [atThread.2]
        exact ⟨parent, enqueued.2⟩
      · exact lists.parent e p
  · unfold Threads.evtEnqueue
    rw [if_neg enqueued]
    exact lists

end Enqueue

section

variable (lists : threads.ListsSound) (reported : ∀ e, e ≠ prev → threads.Reported e)

include lists reported

theorem Notified.of_root (root : ∀ p, threads.arcvNotif prev = some p → p = prev) :
    threads.Notified := by
  refine ⟨lists, fun e => ?_⟩
  by_cases same : e = prev
  · subst same
    exact fun p _ parent other => absurd (root p parent) other
  · exact reported e same

theorem reported_evtEnqueue {curr : Nat} (parent : threads.arcvNotif prev = some curr)
    (other : curr ≠ prev) (e : Nat) (notParent : e ≠ curr) :
    (threads.evtEnqueue curr prev).Reported e := by
  by_cases same : e = prev
  · subst same
    intro p _ isParent _ _ _
    rw [arcvNotif_evtEnqueue, parent] at isParent
    cases isParent
    exact .inl (mem_evtEnqueue lists parent other)
  · refine (reported e same).mono ?_ fun p => mem_evtEnqueue_of_mem
    have untouched : threads.evtEnqueue curr prev e = threads e := by
      unfold evtEnqueue
      split_ifs <;> simp [modify_apply, same, notParent]
    rw [untouched]
    exact ⟨rfl, rfl, id, id, rfl⟩

theorem notified_notifyLoop {left : Nat} {parent : Option Nat}
    (isParent : threads.arcvNotif prev = parent)
    (result : notifyLoop left threads prev parent = .ok threads') : threads'.Notified := by
  fun_induction notifyLoop left threads prev parent with
  | case1 left threads prev =>
    cases result
    exact .of_root lists reported fun p isRoot => by simp [isParent] at isRoot
  | case2 threads prev | case4 left threads prev =>
    cases result
    exact .of_root lists reported fun p isRoot => by simp_all
  | case3 => cases result
  | case5 left threads prev curr other enqueued running =>
    rw [← Except.ok.inj result]
    refine ⟨lists.evtEnqueue isParent, fun e => ?_⟩
    by_cases atParent : e = curr
    · subst atParent
      exact fun p _ _ _ blocked => absurd blocked running
    · exact reported_evtEnqueue lists reported isParent other e atParent
  | case6 left threads prev curr other enqueued rcving ih =>
    exact ih (lists.evtEnqueue isParent) (reported_evtEnqueue lists reported isParent other) rfl
      result

end

theorem mem_notifyLoop_of_mem {left p : Nat} {curr : Option Nat}
    (member : e ∈ (threads p).eventHead)
    (result : notifyLoop left threads prev curr = .ok threads') : e ∈ (threads' p).eventHead := by
  fun_induction notifyLoop left threads prev curr with
  | case1 | case2 | case4 =>
    cases result
    exact member
  | case3 => cases result
  | case5 left threads prev curr other enqueued running =>
    rw [← Except.ok.inj result]
    exact mem_evtEnqueue_of_mem member
  | case6 left threads prev curr other enqueued rcving ih =>
    exact ih (mem_evtEnqueue_of_mem member) result

theorem Notified.notifyParent {t : Nat} (notified : threads.Notified)
    (result : threads.notifyParent t = .ok threads') : threads'.Notified :=
  notified_notifyLoop notified.lists (fun e _ => notified.reported e) rfl result

theorem mem_notifyParent {t p : Nat} (lists : threads.ListsSound)
    (parent : threads.arcvNotif t = some p) (other : p ≠ t)
    (result : threads.notifyParent t = .ok threads') : t ∈ (threads' p).eventHead := by
  have enqueued := mem_evtEnqueue lists parent other
  unfold Threads.notifyParent at result
  rw [parent, arcvNotifDepth] at result
  unfold notifyLoop at result
  simp only [if_neg other] at result
  split_ifs at result
  · exact mem_notifyLoop_of_mem enqueued result
  · cases result
    exact enqueued

/-- A send leaves all threads reported. -/
theorem Notified.send {t : Nat} (notified : threads.Notified)
    (result : (threads.pendingInc t).notifyParent t = .ok threads') : threads'.Notified := by
  have same : SamePart links threads (threads.pendingInc t) := samePart_modify fun _ => rfl
  refine notified_notifyLoop (notified.lists.congr same) (fun e other => ?_) rfl result
  refine (notified.reported e).mono ?_ fun p => by rw [links_eventHead same]; exact id
  rw [Threads.pendingInc, modify_apply, if_neg other]
  exact ⟨rfl, rfl, id, id, rfl⟩

section Deliver

theorem Notified.dequeue {t e : Nat} {rest : List Nat} (notified : threads.Notified)
    (queue : (threads t).eventHead = e :: rest)
    (changed : ∀ x, (threads' x).eventHead = (if x = t then rest else (threads x).eventHead) ∧
      (threads' x).eventList = (if x = e then none else (threads x).eventList) ∧
      (threads' x).rcvcap = (threads x).rcvcap ∧ (threads' x).state = (threads x).state ∧
      (x ≠ e → (threads' x).lastReport = (threads x).lastReport))
    (told : thdRcvcapPending threads' e ≠ 0 → (threads' e).lastReport = some false) :
    threads'.Notified := by
  have heads := fun x => (changed x).1
  have waits := fun x => (changed x).2.1
  have rcvcap := fun x => (changed x).2.2.1
  have listed : (threads e).eventList = some t := by
    rw [← notified.lists.listed, queue]
    exact mem_cons_self
  have distinct := notified.lists.nodup t
  rw [queue, nodup_cons] at distinct
  have stays : ∀ x p, x ≠ e → (x ∈ (threads' p).eventHead ↔ x ∈ (threads p).eventHead) := by
    intro x p other
    rw [heads]
    split_ifs with atList
    · subst atList
      rw [queue, mem_cons, or_iff_right other]
    · rfl
  refine ⟨⟨fun x p => ?_, fun p => ?_, fun x p => ?_⟩, fun x => ?_⟩
  · by_cases isEvent : x = e
    · subst isEvent
      rw [waits, if_pos rfl, heads]
      split_ifs with atList
      · simp [distinct.1]
      · rw [notified.lists.listed, listed]
        simp [Ne.symm atList]
    · rw [stays x p isEvent, waits, if_neg isEvent, notified.lists.listed]
  · rw [heads]
    split_ifs
    · exact distinct.2
    · exact notified.lists.nodup p
  · rw [waits, arcvNotif, rcvcap]
    split_ifs
    · intro none
      cases none
    · exact notified.lists.parent x p
  · obtain ⟨-, -, -, state, reports⟩ := changed x
    by_cases isEvent : x = e
    · subst isEvent
      exact fun p _ _ _ _ waiting => .inr (told waiting)
    · refine (notified.reported x).mono
        ⟨by rw [rcvcap], by rw [rcvcap], by rw [state]; exact id, ?_,
        reports isEvent⟩ fun p => (stays x p isEvent).mpr
      rw [rcvcap, heads]
      split_ifs with atList
      · subst atList
        rw [queue]
        exact fun _ => .inr (cons_ne_nil e rest)
      · exact id

theorem Notified.stateEvtDeliver {t : Nat} {delivered : Option (Nat × Nat × Nat)}
    (notified : threads.Notified)
    (result : thdStateEvtDeliver threads t = .ok (threads', delivered)) : threads'.Notified := by
  unfold thdStateEvtDeliver thdRcvcapEvtDequeue at result
  cases queue : (threads t).eventHead with
  | nil =>
    simp only [queue] at result
    split_ifs at result
    cases result
    exact notified
  | cons e rest =>
    have other : t ≠ e := by
      refine (notified.lists.parent e t ?_).2
      rw [← notified.lists.listed, queue]
      exact mem_cons_self
    simp only [queue] at result
    split at result
    · cases result
    cases result
    refine notified.dequeue queue (fun x => ?_) fun waiting => ?_
    · simp only [modify_apply]
      by_cases isEvent : x = e
      · subst isEvent
        simp [other.symm]
      · by_cases atList : x = t
        · subst atList
          simp [isEvent]
        · simp [isEvent, atList]
    · simp only [thdRcvcapPending, modify_apply, if_true] at waiting ⊢
      exact congrArg some (decide_eq_false fun both => waiting both.2)

theorem Notified.pendingDeliver {t : Nat} {regs regs' : PtRegs} (notified : threads.Notified)
    (result : thdRcvcapPendingDeliver threads t regs = .ok (threads', regs')) :
    threads'.Notified := by
  unfold thdRcvcapPendingDeliver at result
  obtain ⟨⟨middle, word⟩, delivery, rest⟩ := bind_eq_ok.mp result
  have before := notified.stateEvtDeliver delivery
  simp only at rest
  split at rest
  · cases rest
    exact before.modify (fun _ => rfl) fun t => ⟨rfl, rfl, id, Or.imp_left (absurd rfl), rfl⟩
  · cases rest
    refine before.modify (fun _ => rfl) fun t =>
      ⟨rfl, rfl, id, Or.imp_left fun left none => ?_, rfl⟩
    exact left (by simp [none])

theorem Notified.switchUpdate {thd : Nat} {regs regs' : PtRegs} {issame preempt : Bool}
    (notified : threads.Notified)
    (result : thdSwitchUpdate threads thd regs issame = .ok (threads', regs', preempt)) :
    threads'.Notified := by
  rcases thdSwitchUpdate_cases result with ⟨-, rfl⟩ | ⟨-, after, delivery⟩ | ⟨-, rfl⟩
  · exact notified.modify (fun _ => rfl) fun _ => ⟨rfl, rfl, id, id, rfl⟩
  · refine Notified.pendingDeliver ?_ delivery
    exact notified.modify (fun _ => rfl) fun _ => ⟨rfl, rfl, nofun, id, rfl⟩
  · exact notified

end Deliver

/-- A thread that is on the list of its parent may block. -/
theorem Notified.block {thd : Nat} {all : Bool} {timeout : Nat} (notified : threads.Notified)
    (listed : ∀ p, threads.arcvNotif thd = some p → p ≠ thd → thd ∈ (threads p).eventHead) :
    (threads.modify thd fun t =>
      { t with
        state := { t.state with rcving := true }
        rcvcap := { t.rcvcap with isAllPending := all }
        timeout := timeout }).Notified := by
  have same : SamePart links threads (threads.modify thd fun t =>
      { t with
        state := { t.state with rcving := true }
        rcvcap := { t.rcvcap with isAllPending := all }
        timeout := timeout }) := samePart_modify fun _ => rfl
  refine notified.relink same fun x => ?_
  by_cases atThread : x = thd
  · subst atThread
    refine .inr fun p _ parent other _ _ => .inl ?_
    rw [links_notif same] at parent
    rw [links_eventHead same]
    exact listed p parent other
  · rw [modify_apply, if_neg atThread]
    exact .inl ⟨rfl, rfl, id, id, rfl⟩

end Threads

section Entries

variable {s s' s₁ : Core} {mark : Option Mark}

theorem Prepared.notified (prepared : Prepared s mark s₁) (notified : s.threads.Notified) :
    s₁.threads.Notified := by
  induction prepared with
  | start => exact notified
  | similar before similar kept => exact kept.congr (similar.threads.map Threads.notice)
  | send t before sent kept => exact kept.send sent
  | notify t before result kept => exact kept.notifyParent result
  | preempt before kept =>
    refine kept.congr ?_
    dsimp only [Core.markPreempted, Core.withThreads]
    exact samePart_modify fun _ => rfl
  | block all timeout before result similar kept =>
    have same : SamePart Threads.links _ _ := similar.threads.map Threads.links
    refine ((kept.notifyParent result).congr (similar.threads.map Threads.notice)).block
      fun p parent other => ?_
    rw [Threads.links_notif same] at parent
    rw [Threads.links_eventHead same]
    refine Threads.mem_notifyParent kept.lists ?_ other result
    rw [← parent]
    exact (congrArg RcvcapInfo.rcvcapThdNotif ((listsOnly_notifyLoop result).rcvcap _)).symm

theorem notified_thdSwitch {ltbl : Ltbl} {cpu cpu' : CpuState} {curr next : Nat} {ci : CompInfo}
    {regs : PtRegs} (notified : cpu.threads.Notified)
    (switched : capThdSwitch ltbl cpu curr next ci regs = .ok cpu') : cpu'.threads.Notified := by
  rcases capThdSwitch_cases switched with
    ⟨-, threads, after, preempt, updated, rfl⟩ | ⟨-, ⟨unchanged, -⟩ | ⟨-, switched⟩⟩
  · exact notified.switchUpdate updated
  · rw [unchanged]
    exact notified
  · obtain ⟨⟨threads, nextRegs, preempt⟩, updated, rest⟩ := bind_eq_ok.mp switched
    cases rest
    have saved : SamePart Threads.notice cpu.threads (thdCurrentUpdate { cpu with
        threads := cpu.threads.modify curr fun t => { t with regs := savedRegs t regs } }
        next curr).threads := by
      dsimp only [thdCurrentUpdate]
      refine SamePart.trans ?_ (samePart_modify fun _ => rfl)
      exact samePart_modify fun _ => rfl
    refine ((notified.congr saved).switchUpdate updated).congr ?_
    dsimp only
    exact samePart_modify fun _ => rfl

theorem Entered.notified {target : Nat → Prop} {result : Except Fault Core}
    (entered : Entered s target result) (finished : result = .ok s')
    (notified : s.threads.Notified) :
    s'.threads.Notified := by
  induction entered generalizing s' with
  | back prepared =>
    cases finished
    exact prepared.notified notified
  | deliver prepared delivered =>
    cases finished
    exact (prepared.notified notified).pendingDeliver delivered
  | switch prepared aimed =>
    obtain ⟨cpu, switched, rest⟩ := bind_eq_ok.mp finished
    cases rest
    exact notified_thdSwitch (prepared.notified notified) switched
  | after before similar kept =>
    cases finished
    exact (kept rfl).congr (similar.threads.map Threads.notice)
  | fault => cases finished
  | preempted => cases finished

end Entries

theorem Core.notified_next {thresh : Nat} {s s' : Core} {event : CoreEvent}
    (notified : s.threads.Notified) (stepped : s.next thresh event = some s') :
    s'.threads.Notified := by
  have entered := Core.next_eq_some.mp stepped
  cases event with
  | sret regs =>
    obtain ⟨cpu, result, rest⟩ := bind_eq_ok.mp entered
    cases rest
    exact notified.congr ((stacksOnly_sret result).threads.map Threads.notice)
  | sinv sinvc regs =>
    obtain ⟨cpu, result, rest⟩ := bind_eq_ok.mp entered
    cases rest
    obtain ⟨entry, -, called⟩ := bind_eq_ok.mp result
    exact notified.congr ((stacksOnly_sinv called).threads.map Threads.notice)
  | compDeactivate liveness =>
    cases entered
    exact notified
  | wait cycles =>
    cases entered
    exact notified
  | thd | asnd | arcv | tcap | hwAsnd | timer =>
    refine (Core.entered_of_schedules ?_).notified entered notified
    trivial

theorem Threads.Notified.of_quiet {threads : Threads}
    (quiet : ∀ t, (threads t).state.rcving = false ∧ (threads t).eventHead = [] ∧
      (threads t).eventList = none) : threads.Notified := by
  refine ⟨⟨fun e p => ?_, fun p => ?_, fun e p => ?_⟩, fun e p _ _ _ blocked => ?_⟩
  · simp [(quiet p).2.1, (quiet e).2.2]
  · simp [(quiet p).2.1]
  · simp [(quiet e).2.2]
  · simp [(quiet e).1] at blocked

def lowerPriority : Core :=
  let s := freshCore ⟨⟨0, 2⟩, 6, 7⟩
  { s with
    threads := s.threads.modify 2 fun t =>
      { t with rcvcap := { t.rcvcap with rcvcapTcap := some 1 } }
    tcaps := Function.update s.tcaps 1
      { s.tcaps 0 with permPrio := 1, delegations := fun _ => ⟨0, 1⟩ } }

/-- The scheduler switches to the thread 2, which blocks in a receive.  The scheduler goes on
with its own tcap and sends to the thread. -/
def blockAndSend : List CoreEvent :=
  [.thd (fun _ _ => none) ⟨2, 0⟩ .zero, .arcv ⟨⟨⟨0, 2⟩, 6, 7⟩, 0, 0, 2, 1⟩ .zero,
    .thd (fun _ _ => some (.tcap ⟨0, 0⟩)) ⟨1, 0⟩ { PtRegs.zero with bx := 2 ^ 16 },
    .asnd (fun _ _ => some (.arcv ⟨⟨⟨0, 2⟩, 6, 7⟩, 0, 0, 2, 1⟩))
      ⟨0, 0, 5, 0, ⟨⟨0, 2⟩, 6, 7⟩, 0, 0, 0⟩
      .zero]

end Composite
