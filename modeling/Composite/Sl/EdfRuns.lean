import Composite.Lib.Transition
import Composite.Sl.Edf
import Composite.Sl.View

/-!
# The threads of a core under earliest deadline first

Threads are created and started, woken from other cores with new deadlines, and block when they
run.  The run queue is always the set of the started threads that can run, and the policy picks one
of the least deadline.
-/

namespace Composite.Sl

open Transition Function Checked
open Eos (SlThdState cosFaa schedParamValue schedParamValue_ne_max)

/-- How far the life of a thread has come.  A thread of fixed priority never blocks. -/
inductive Stage where
  | absent
  | created
  | started (blocks : Bool)
  deriving DecidableEq, Repr

structure EdfRun where
  cpu : Cpu edf
  stage : Nat → Stage

inductive EdfEvent where
  | create (t : Nat)
  /-- `SCHEDP_PRIO`. -/
  | setPrio (t prio : Nat)
  /-- `SCHEDP_PRIO_BLOCK`. -/
  | setPrioBlock (t prio : Nat)
  /-- `SL_XCPU_THD_WAKEUP_WITH_DL`. -/
  | wakeupWithDl (t sp : Nat)
  | block (t : Nat)
  deriving DecidableEq, Repr

def EdfRun.moveTo (s : EdfRun) (t : Nat) (stage : Stage) (cpu : Cpu edf) : EdfRun :=
  ⟨cpu, Function.update s.stage t stage⟩

def EdfRun.step (s : EdfRun) : EdfEvent → Except Failure EdfRun
  | .create t => (slThdAllocInit s.cpu t).map (s.moveTo t .created)
  | .setPrio t prio => (slModThdParamSet s.cpu t .prio prio).map (s.moveTo t (.started false))
  | .setPrioBlock t prio =>
    (slModThdParamSet s.cpu t .prioBlock prio).map (s.moveTo t (.started true))
  | .wakeupWithDl t sp => (slXcpuWakeupWithDl s.cpu t sp).map ({ s with cpu := · })
  | .block t => (slThdBlock s.cpu t).map ({ s with cpu := · })

def EdfRun.next (s : EdfRun) (event : EdfEvent) : Option EdfRun := (s.step event).toOption

/-- After `sl_mod_init`. -/
def EdfRun.initial (thd : Nat → Thd) (timeouts : Heap Nat) : EdfRun where
  cpu := ⟨thd, timeouts, ⟨fun _ => 0, heapInit (fun _ => 0) (fun _ => 0) slEdfMaxThds⟩, []⟩
  stage _ := .absent

def Stage.isStarted : Stage → Bool
  | .started _ => true
  | _ => false

def EdfRun.Ready (s : EdfRun) (t : Nat) : Prop :=
  (s.stage t).isStarted = true ∧ slThdIsRunnable (s.cpu.thd t).state = true

/-- Which events may come: every thread of `threads` is created and started once, is woken after
that, and blocks when it runs if it may. -/
def EdfRun.Legal (threads : Finset Nat) (s : EdfRun) : EdfEvent → Prop
  | .create t => t ∈ threads ∧ s.stage t = .absent
  | .setPrio t _ | .setPrioBlock t _ => s.stage t = .created
  | .wakeupWithDl t _ => (s.stage t).isStarted = true
  | .block t => s.stage t = .started true ∧ slThdIsRunnable (s.cpu.thd t).state = true

instance (threads : Finset Nat) (s : EdfRun) (event : EdfEvent) :
    Decidable (s.Legal threads event) := by
  cases event <;> unfold EdfRun.Legal <;> infer_instance

structure EdfRun.Sound (threads : Finset Nat) (s : EdfRun) : Prop where
  queues : EdfRq.Queues s.cpu.rq s.Ready (fun t => s.stage t ≠ .absent)
  among : ∀ t, s.stage t ≠ .absent → t ∈ threads
  plain : ∀ t, s.stage t ≠ .absent → (s.cpu.thd t).rcvSuspended = false ∧
    ((s.cpu.thd t).state = .runnable ∨ (s.cpu.thd t).state = .blocked)
  fresh : ∀ t, s.stage t = .created → (s.cpu.thd t).state = .runnable

def Thd.woken (thd : Thd) : Thd :=
  { thd with state := .runnable, rcvSuspended := false, wakeupCnt := cosFaa thd.wakeupCnt 1 }

variable {P : Policy}

theorem slThdWakeupNoCsRm_eq {c : Cpu P} {t : Nat} {rq : P.Rq} (woken : P.wakeup c.rq t = some rq) :
    slThdWakeupNoCsRm c t =
      if (c.thd t).wakeupCnt ≥ 0 then
        .ok ((c.set t (c.thd t).woken).withRq rq)
      else .error .count := by
  have queued : (c.set t { c.thd t with state := .runnable }).policy (P.wakeup · t) = .ok _ :=
    Cpu.policy_of_eq woken
  simp only [slThdWakeupNoCsRm, queued, ok_bind, Cpu.withRq_thd, Cpu.set_thd_self, check]
  by_cases counted : (c.thd t).wakeupCnt ≥ 0
  · rw [if_pos counted, if_pos counted, ok_bind]
    exact congrArg (fun c' : Cpu P => Except.ok (c'.withRq rq)) (c.set_set t _ _)
  · rw [if_neg counted, if_neg counted, error_bind]

theorem slThdBlockNoCs_eq {c : Cpu P} {t : Nat} {rq : P.Rq} (runs : (c.thd t).state = .runnable)
    (plain : (c.thd t).rcvSuspended = false) (blocked : P.block c.rq t = some rq) :
    slThdBlockNoCs c t .blocked 0 =
      .ok ((c.set t { c.thd t with state := .blocked }).withRq rq) := by
  have stays : slThdSchedUnblockNoCs c t = .ok c := if_pos (by simp [plain])
  have left : c.policy (P.block · t) = .ok _ := Cpu.policy_of_eq blocked
  simp only [slThdBlockNoCs, runs, stays, left, check, sleep, ok_bind]
  rfl

def Thd.counted (thd : Thd) : Thd := { thd with wakeupCnt := cosFaa thd.wakeupCnt (-1) }

theorem slThdBlock_eq (c : Cpu P) (t : Nat) :
    slThdBlock c t =
      if (c.thd t).wakeupCnt ≥ 1 then
        if (c.thd t).wakeupCnt = 1 then slThdBlockNoCs (c.set t (c.thd t).counted) t .blocked 0
        else .ok (c.set t (c.thd t).counted)
      else .error .count := by
  simp only [slThdBlock, check, Thd.counted]
  by_cases enough : (c.thd t).wakeupCnt ≥ 1
  · rw [if_pos enough, if_pos enough]
    rfl
  · rw [if_neg enough, if_neg enough]
    rfl

namespace EdfRun

variable {threads : Finset Nat} {s s' : EdfRun} {t : Nat}

theorem initial_sound (thd : Nat → Thd) (timeouts : Heap Nat) :
    (initial thd timeouts).Sound threads where
  queues := by
    refine ⟨heapInit_sound .., rfl, fun u => ⟨fun held => ?_, fun ready => ?_⟩, fun u known => ?_⟩
    · exact (heapInit_not_holds _ _ _ _ held).elim
    · cases ready.1
    · exact absurd rfl known
  among _ known := absurd rfl known
  plain _ known := absurd rfl known
  fresh _ created := nomatch created

def put (s : EdfRun) (t : Nat) (stage : Stage) (thd : Thd) (rq : EdfRq) : EdfRun :=
  ⟨(s.cpu.set t thd).withRq rq, Function.update s.stage t stage⟩

theorem put_same (s : EdfRun) (t : Nat) (thd : Thd) (rq : EdfRq) :
    s.put t (s.stage t) thd rq = { s with cpu := (s.cpu.set t thd).withRq rq } := by
  unfold put
  rw [update_eq_self]

theorem Sound.put (sound : s.Sound threads) (member : t ∈ threads) {stage : Stage} {thd : Thd}
    {rq : EdfRq} {ready known : Nat → Prop} (queues : rq.Queues ready known)
    (atThread : ready t ↔ stage.isStarted = true ∧ slThdIsRunnable thd.state = true)
    (away : ∀ u, u ≠ t → (ready u ↔ s.Ready u))
    (fewer : ∀ u, u = t ∨ s.stage u ≠ .absent → known u)
    (plain : thd.rcvSuspended = false ∧ (thd.state = .runnable ∨ thd.state = .blocked))
    (fresh : stage = .created → thd.state = .runnable) : (s.put t stage thd rq).Sound threads := by
  have stageAt : (s.put t stage thd rq).stage t = stage := update_self ..
  have thdAt : (s.put t stage thd rq).cpu.thd t = thd := update_self ..
  have others : ∀ u, u ≠ t → (s.put t stage thd rq).stage u = s.stage u ∧
      (s.put t stage thd rq).cpu.thd u = s.cpu.thd u := fun u other =>
    ⟨update_of_ne other .., update_of_ne other ..⟩
  refine ⟨queues.congr (fun u => ?_) fun u isKnown => fewer u ?_, fun u isKnown => ?_,
    fun u isKnown => ?_, fun u isCreated => ?_⟩
  all_goals by_cases isThread : u = t
  · rw [isThread, Ready, stageAt, thdAt]
    exact atThread
  · rw [Ready, (others u isThread).1, (others u isThread).2]
    exact away u isThread
  · exact .inl isThread
  · exact .inr ((others u isThread).1 ▸ isKnown)
  · exact isThread ▸ member
  · exact sound.among u ((others u isThread).1 ▸ isKnown)
  · rw [isThread, thdAt]
    exact plain
  · rw [(others u isThread).2]
    exact sound.plain u ((others u isThread).1 ▸ isKnown)
  · rw [isThread, stageAt] at isCreated
    rw [isThread, thdAt]
    exact fresh isCreated
  · rw [(others u isThread).2]
    exact sound.fresh u ((others u isThread).1 ▸ isCreated)

theorem Sound.ready_among (sound : s.Sound threads) {u : Nat} (ready : s.Ready u) : u ∈ threads :=
  sound.among u fun absent => by
    rw [Ready, absent] at ready
    cases ready.1

theorem Sound.room (sound : s.Sound threads) : heapSize s.cpu.rq.hs ≤ threads.card :=
  sound.queues.sound.indexed.size_le fun _ held =>
    sound.ready_among ((sound.queues.holds _).mp held)

theorem Sound.room_absent (sound : s.Sound threads) (member : t ∈ threads)
    (absent : s.stage t = .absent) : heapSize s.cpu.rq.hs + 1 ≤ threads.card := by
  have fewer : heapSize s.cpu.rq.hs ≤ (threads.erase t).card := by
    refine sound.queues.sound.indexed.size_le fun u held => ?_
    have ready := (sound.queues.holds u).mp held
    refine Finset.mem_erase.mpr ⟨fun same => ?_, sound.ready_among ready⟩
    rw [Ready, same, absent] at ready
    cases ready.1
  have positive := Finset.card_pos.mpr ⟨t, member⟩
  rw [Finset.card_erase_of_mem member] at fewer
  omega

theorem not_ready_of_not_started (notStarted : (s.stage t).isStarted = false) : ¬s.Ready t := by
  intro ready
  rw [Ready, notStarted] at ready
  cases ready.1

theorem create_sound (sound : s.Sound threads) (small : threads.card < slEdfMaxThds)
    (legal : s.Legal threads (.create t)) :
    ∃ s', s.step (.create t) = .ok s' ∧ s'.Sound threads := by
  obtain ⟨member, absent⟩ := legal
  have notReady : ¬s.Ready t := not_ready_of_not_started (by rw [absent]; rfl)
  have room := sound.room_absent member absent
  obtain ⟨rq', created, queues⟩ := sound.queues.create notReady (by omega)
  refine ⟨s.put t .created ⟨.runnable, false, false, 0, 0, 0, 0, 0⟩ rq', ?_,
    sound.put member queues ?_ (fun u _ => .rfl) (fun u isKnown => isKnown) ⟨rfl, .inl rfl⟩
    fun _ => rfl⟩
  · rw [step, slThdAllocInit, Cpu.policy_of_eq created]
    rfl
  · exact ⟨fun ready => absurd ready notReady, fun ready => nomatch ready.1⟩

theorem setPrio_sound (sound : s.Sound threads) (small : threads.card < slEdfMaxThds) {prio : Nat}
    (legal : s.Legal threads (.setPrio t prio)) :
    ∃ s', s.step (.setPrio t prio) = .ok s' ∧ s'.Sound threads := by
  have created : s.stage t = .created := legal
  have known : s.stage t ≠ .absent := by simp [created]
  have notReady : ¬s.Ready t := not_ready_of_not_started (by rw [created]; rfl)
  have room := sound.room
  have unplaced := sound.queues.unplaced t known notReady
  have queues := sound.queues.setDeadline notReady Eos.slEdfMaxDeadline
  obtain ⟨rq', added, _, queues'⟩ := queues.add notReady (by simp only [EdfRq.setDeadline]; omega)
  have runs := sound.fresh t created
  refine ⟨s.put t (.started false) (s.cpu.thd t) rq', ?_, sound.put (sound.among t known) queues' ?_
    (fun u other => ?_) (fun u isKnown => ?_) (sound.plain t known) (by simp)⟩
  · have kept : s.cpu.set t (s.cpu.thd t) = s.cpu := by
      simp only [Cpu.set, update_eq_self]
    have set : slModThdParamSet s.cpu t .prio prio = _ :=
      (if_pos (by simp only [EdfRq.setDeadline]; omega)).trans (Cpu.policy_of_eq added)
    rw [step, set, put, kept]
    rfl
  · exact ⟨fun _ => ⟨rfl, by rw [runs]; rfl⟩, fun _ => .inl rfl⟩
  · exact ⟨fun ready => ready.resolve_left other, .inr⟩
  · rcases isKnown with rfl | isKnown
    · exact known
    · exact isKnown

theorem setPrioBlock_sound (sound : s.Sound threads) {prio : Nat}
    (legal : s.Legal threads (.setPrioBlock t prio)) :
    ∃ s', s.step (.setPrioBlock t prio) = .ok s' ∧ s'.Sound threads := by
  have created : s.stage t = .created := legal
  have known : s.stage t ≠ .absent := by simp [created]
  have notReady : ¬s.Ready t := not_ready_of_not_started (by rw [created]; rfl)
  have unplaced := sound.queues.unplaced t known notReady
  have queues := sound.queues.setDeadline notReady Eos.slEdfMaxDeadline
  refine ⟨s.put t (.started true) { s.cpu.thd t with state := .blocked } _, ?_,
    sound.put (sound.among t known) queues ?_ (fun _ _ => .rfl) (fun u isKnown => ?_)
    ⟨(sound.plain t known).1, .inr rfl⟩ (by simp)⟩
  · have set : slModThdParamSet s.cpu t .prioBlock prio = _ :=
      if_pos (by simp only [EdfRq.setDeadline, Cpu.set]; omega)
    exact congrArg (Except.map _) set
  · exact ⟨fun ready => absurd ready notReady, fun ready => by cases ready.2⟩
  · rcases isKnown with rfl | isKnown
    · exact known
    · exact isKnown

theorem known_of_started (started : (s.stage t).isStarted = true) : s.stage t ≠ .absent := by
  intro absent
  rw [absent] at started
  cases started

theorem wakeupWithDl_eq (sound : s.Sound threads) (small : threads.card < slEdfMaxThds) (sp : Nat)
    (known : s.stage t ≠ .absent) :
    ∃ rq' : EdfRq, rq'.deadline = update s.cpu.rq.deadline t (schedParamValue sp) ∧
      rq'.Queues (fun u => u = t ∨ s.Ready u) (fun t => s.stage t ≠ .absent) ∧
      s.step (.wakeupWithDl t sp) =
        if (s.cpu.thd t).wakeupCnt ≥ 0 then .ok (s.put t (s.stage t) (s.cpu.thd t).woken rq')
        else .error .count := by
  have room := sound.room
  obtain ⟨rq', woken, deadline, queues⟩ :=
    sound.queues.wakeup known (by omega) (schedParamValue_ne_max sp)
  refine ⟨rq', deadline, queues, ?_⟩
  have step_eq : s.step (.wakeupWithDl t sp) =
      (slThdWakeupNoCsRm (s.cpu.withRq (EdfRq.setDeadline s.cpu.rq t (schedParamValue sp))) t).map
        ({ s with cpu := · }) := rfl
  rw [step_eq, slThdWakeupNoCsRm_eq woken, put_same, Cpu.withRq_thd]
  split_ifs <;> rfl

theorem wakeupWithDl_sound (sound : s.Sound threads) (small : threads.card < slEdfMaxThds)
    {sp : Nat}
    (legal : s.Legal threads (.wakeupWithDl t sp)) :
    (∃ s', s.step (.wakeupWithDl t sp) = .ok s' ∧ s'.Sound threads) ∨
      s.step (.wakeupWithDl t sp) = .error .count := by
  have started : (s.stage t).isStarted = true := legal
  have known := known_of_started started
  obtain ⟨rq', -, queues, step_eq⟩ := wakeupWithDl_eq sound small sp known
  rw [step_eq]
  split_ifs
  · refine .inl ⟨_, rfl, sound.put (sound.among t known) queues ?_ (fun u other => ?_)
      (fun u isKnown => ?_) ⟨rfl, .inl rfl⟩ fun _ => rfl⟩
    · exact ⟨fun _ => ⟨started, rfl⟩, fun _ => .inl rfl⟩
    · exact ⟨fun ready => ready.resolve_left other, .inr⟩
    · rcases isKnown with rfl | isKnown
      · exact known
      · exact isKnown
  · exact .inr rfl

theorem block_eq (sound : s.Sound threads) (legal : s.Legal threads (.block t)) :
    (s.cpu.thd t).state = .runnable ∧ (s.cpu.thd t).rcvSuspended = false ∧
      ∃ rq' : EdfRq, rq'.deadline = s.cpu.rq.deadline ∧
        rq'.Queues (fun u => u ≠ t ∧ s.Ready u) (fun t => s.stage t ≠ .absent) ∧
        s.step (.block t) =
          if (s.cpu.thd t).wakeupCnt ≥ 1 then
            if (s.cpu.thd t).wakeupCnt = 1 then
              .ok (s.put t (s.stage t) { (s.cpu.thd t).counted with state := .blocked } rq')
            else .ok (s.put t (s.stage t) (s.cpu.thd t).counted s.cpu.rq)
          else .error .count := by
  obtain ⟨blocks, runs⟩ := legal
  have started : (s.stage t).isStarted = true := by rw [blocks]; rfl
  obtain ⟨plain, running | sleeping⟩ := sound.plain t (known_of_started started)
  swap
  · rw [sleeping] at runs
    cases runs
  obtain ⟨rq', blocked, deadline, queues⟩ := sound.queues.block ⟨started, runs⟩
  refine ⟨running, plain, rq', deadline, queues, ?_⟩
  have slept := slThdBlockNoCs_eq (c := s.cpu.set t (s.cpu.thd t).counted) (t := t)
    (by rw [Cpu.set_thd_self]; exact running) (by rw [Cpu.set_thd_self]; exact plain) blocked
  rw [step, slThdBlock_eq, slept, Cpu.set_set, Cpu.set_thd_self, put_same, put_same]
  split_ifs <;> rfl

theorem block_sound (sound : s.Sound threads) (legal : s.Legal threads (.block t)) :
    (∃ s', s.step (.block t) = .ok s' ∧ s'.Sound threads) ∨ s.step (.block t) = .error .count := by
  obtain ⟨running, plain, rq', -, queues, step_eq⟩ := block_eq sound legal
  have known : s.stage t ≠ .absent := by rw [legal.1]; exact nofun
  have known' : ∀ u, u = t ∨ s.stage u ≠ .absent → s.stage u ≠ .absent := by
    rintro u (rfl | isKnown)
    · exact known
    · exact isKnown
  rw [step_eq]
  split_ifs
  · refine .inl ⟨_, rfl, sound.put (sound.among t known) queues ?_ (fun u other => ?_) known'
      ⟨plain, .inr rfl⟩ ?_⟩
    · exact ⟨fun ready => absurd rfl ready.1, fun ready => nomatch ready.2⟩
    · exact ⟨fun ready => ready.2, fun ready => ⟨other, ready⟩⟩
    · rw [legal.1]
      exact nofun
  · exact .inl ⟨_, rfl, sound.put (sound.among t known) sound.queues .rfl (fun _ _ => .rfl) known'
      ⟨plain, .inl running⟩ fun _ => running⟩
  · exact .inr rfl

theorem step_sound (sound : s.Sound threads) (small : threads.card < slEdfMaxThds)
    {event : EdfEvent}
    (legal : s.Legal threads event) :
    (∃ s', s.step event = .ok s' ∧ s'.Sound threads) ∨ s.step event = .error .count := by
  cases event with
  | create t => exact .inl (create_sound sound small legal)
  | setPrio t prio => exact .inl (setPrio_sound sound small legal)
  | setPrioBlock t prio => exact .inl (setPrioBlock_sound sound legal)
  | wakeupWithDl t sp => exact wakeupWithDl_sound sound small legal
  | block t => exact block_sound sound legal

theorem next_sound (sound : s.Sound threads) (small : threads.card < slEdfMaxThds)
    {event : EdfEvent}
    (legal : s.Legal threads event) (stepped : s.next event = some s') : s'.Sound threads := by
  rcases step_sound sound small legal with ⟨s'', ended, sound'⟩ | failed
  · rw [next, ended] at stepped
    cases stepped
    exact sound'
  · rw [next, failed] at stepped
    cases stepped

/-! The model of a single thread. -/

/-- A thread without the other threads of its core. -/
def alone (s : EdfRun) (t : Nat) : Eos.SlThd :=
  let thd := s.cpu.thd t
  ⟨thd.state, thd.rcvSuspended, thd.wakeupCnt, s.cpu.rq.deadline t, decide (0 < s.cpu.rq.hs.idx t)⟩

theorem alone_put {stage : Stage} {thd : Thd} {rq : EdfRq} {queued known : Nat → Prop}
    (inHeap : Bool) (queues : rq.Queues queued known) (isKnown : known t)
    (placed : queued t ↔ inHeap = true) :
    (s.put t stage thd rq).alone t =
      ⟨thd.state, thd.rcvSuspended, thd.wakeupCnt, rq.deadline t, inHeap⟩ := by
  have here : (s.put t stage thd rq).cpu.thd t = thd := update_self ..
  simp only [alone, here, show (s.put t stage thd rq).cpu.rq = rq from rfl,
    queues.placed_iff isKnown, placed, Bool.decide_eq_true]

/-- A wakeup and a block do to a thread what they do in the model of a single thread. -/
theorem alone_wakeupWithDl (sound : s.Sound threads) (small : threads.card < slEdfMaxThds)
    {sp : Nat}
    (legal : s.Legal threads (.wakeupWithDl t sp))
    (stepped : s.step (.wakeupWithDl t sp) = .ok s') :
    Eos.slXcpuWakeupWithDl (s.alone t) sp = some (s'.alone t) := by
  have known := known_of_started legal
  obtain ⟨rq', deadline, queues, step_eq⟩ := wakeupWithDl_eq sound small sp known
  rw [step_eq] at stepped
  split_ifs at stepped with counted
  cases stepped
  rw [Eos.slXcpuWakeupWithDl_eq counted, alone_put true queues known (by simp), deadline,
    update_self]
  rfl

theorem alone_block (sound : s.Sound threads) (legal : s.Legal threads (.block t))
    (stepped : s.step (.block t) = .ok s') : Eos.slThdBlock (s.alone t) = some (s'.alone t) := by
  have known : s.stage t ≠ .absent := by rw [legal.1]; exact nofun
  have ready : s.Ready t := ⟨by rw [legal.1]; rfl, legal.2⟩
  have placed : 0 < s.cpu.rq.hs.idx t := (sound.queues.placed_iff known).mpr ready
  obtain ⟨running, plain, rq', deadline, queues, step_eq⟩ := block_eq sound legal
  rw [step_eq] at stepped
  split_ifs at stepped with enough last
  · cases stepped
    rw [alone_put false queues known (by simp), deadline]
    simp [Eos.slThdBlock, Eos.slThdBlockNoCs, Eos.slThdSchedUnblockNoCs, Eos.slModBlock, alone,
      last, running, plain, placed, Thd.counted]
  · cases stepped
    rw [alone_put true sound.queues known (by simp [ready])]
    simp [Eos.slThdBlock, alone, last, placed, Thd.counted, Int.not_lt.mpr enough]

/-- Over any run of fewer threads than the heap has places for: a started thread is in the heap
exactly if it can run, its index is its place and -1 outside, no assertion of the policy or of its
heap fails, and the policy picks a started thread that can run with the least deadline. -/
theorem earliest_deadline_first (threads : Finset Nat) (small : threads.card < slEdfMaxThds)
    (thd : Nat → Thd) (timeouts : Heap Nat) {events : List EdfEvent} {s : EdfRun}
    (legal : Meets (Legal threads) next (initial thd timeouts) events)
    (reached : exec next (initial thd timeouts) events = some s) :
    (∀ t, (s.stage t).isStarted = true →
      (s.cpu.rq.hs.Holds t ↔ slThdIsRunnable (s.cpu.thd t).state = true) ∧
      (if slThdIsRunnable (s.cpu.thd t).state then
        ∃ i : Nat, s.cpu.rq.hs.idx t = i ∧ 0 < i ∧ i < s.cpu.rq.hs.e ∧ s.cpu.rq.hs.data i = t
      else s.cpu.rq.hs.idx t = -1)) ∧
    (∀ event, s.Legal threads event →
      s.step event ≠ .error .policy ∧ s.step event ≠ .error .heap) ∧
    (match slModSchedule s.cpu.rq with
    | none => ∀ t, ¬s.Ready t
    | some t => s.Ready t ∧ ∀ u, s.Ready u → s.cpu.rq.deadline t ≤ s.cpu.rq.deadline u) := by
  have sound : s.Sound threads :=
    exec_invariant (fun _ _ _ sound => next_sound sound small) (initial_sound thd timeouts) legal
      reached
  refine ⟨fun t started => ?_, fun event isLegal => ?_, sound.queues.schedule⟩
  · have holds : s.cpu.rq.hs.Holds t ↔ slThdIsRunnable (s.cpu.thd t).state = true := by
      rw [sound.queues.holds t]
      exact ⟨fun ready => ready.2, fun runs => ⟨started, runs⟩⟩
    refine ⟨holds, ?_⟩
    by_cases runs : slThdIsRunnable (s.cpu.thd t).state = true
    · rw [if_pos runs]
      obtain ⟨i, positive, inside, rfl⟩ := holds.mpr runs
      exact ⟨i, sound.queues.sound.indexed i positive inside, positive, inside, rfl⟩
    · rw [if_neg runs]
      exact sound.queues.unplaced t (known_of_started started) fun ready => runs ready.2
  · rcases step_sound sound small isLegal with ⟨s', stepped, _⟩ | failed
    · rw [stepped]
      exact ⟨nofun, nofun⟩
    · rw [failed]
      exact ⟨nofun, nofun⟩

/-- A thread of fixed priority and two others, one of which gets an earlier deadline while it is
queued and later blocks. -/
theorem earliest_deadline_first_three :
    ∃ s : EdfRun, slModSchedule s.cpu.rq = some 3 ∧ s.Ready 3 ∧ s.Ready 1 ∧ ¬s.Ready 2 ∧
      s.cpu.rq.deadline 3 ≤ s.cpu.rq.deadline 1 := by
  have run : (exec next
      (initial (fun _ => ⟨.free, false, false, 0, 0, 0, 0, 0⟩)
        (heapInit (fun _ => 0) (fun _ => -1) 1))
      [.create 1, .setPrio 1 5, .create 2, .setPrioBlock 2 5, .create 3, .setPrioBlock 3 5,
        .wakeupWithDl 3 40, .wakeupWithDl 2 30, .wakeupWithDl 3 20, .block 3, .wakeupWithDl 2 10,
        .block 2, .block 2]).map
      (fun s =>
        (slModSchedule s.cpu.rq, (s.stage 1).isStarted && slThdIsRunnable (s.cpu.thd 1).state,
        (s.cpu.thd 2).state)) = some (some 3, true, .blocked) := by
    decide +kernel
  obtain ⟨s, reached, shown⟩ := Option.map_eq_some_iff.mp run
  obtain ⟨scheduled, shown⟩ := Prod.ext_iff.mp shown
  obtain ⟨ready, asleep⟩ := Prod.ext_iff.mp shown
  have ready : s.Ready 1 := by simpa [Ready] using ready
  obtain ⟨_, _, least⟩ := earliest_deadline_first {1, 2, 3} (by decide) _ _
    (by decide +kernel) reached
  simp only at scheduled asleep
  rw [scheduled] at least
  refine ⟨s, scheduled, least.1, ready, fun running => ?_, least.2 1 ready⟩
  have runs := running.2
  rw [asleep] at runs
  cases runs

end EdfRun

end Composite.Sl
