import Composite.Kernel.Ipi.Rings

/-!
# What the rings deliver

The number of a notification is its place in the list of those sent.  The sender stands at
number `sent.length`, the receiver at `delivered.length`, and the two indices of the ring
are these numbers modulo its size.  The cell of the sender's number is outside the segment
that the receiver reads, which is why the single accesses do not disturb each other.
-/

namespace Composite

open Function Transition Option List

variable {CompInfo : Type}

namespace XcoreRing

def pending (r : XcoreRing CompInfo) : List (IpiCapData CompInfo) :=
  (List.range ((r.sender + ipiRingSize - r.receiver) % ipiRingSize)).map fun i =>
    r.ring ((r.receiver + i) % ipiRingSize)

end XcoreRing

theorem and_ipiRingMask (index : Nat) : index &&& ipiRingMask = index % ipiRingSize :=
  Nat.and_two_pow_sub_one_eq_mod index 4

namespace Channel

structure Sound (c : Channel CompInfo) : Prop where
  sender : c.sender = c.sent.length % ipiRingSize
  receiver : c.receiver = c.delivered.length % ipiRingSize
  delivered : c.delivered <+: c.sent
  room : c.sent.length < c.delivered.length + ipiRingSize
  cells : Window.Covers ipiRingSize c.ring c.delivered.length c.sent.length
    fun position data => c.sent[position]? = some data

variable {c : Channel CompInfo}

theorem Sound.pending_length (sound : c.Sound) :
    c.pending.length = c.sent.length - c.delivered.length := by
  have prefixed := sound.delivered.length_le
  have room := sound.room
  have sender := sound.sender
  have receiver := sound.receiver
  simp only [ipiRingSize] at room sender receiver
  simp only [XcoreRing.pending, length_map, length_range, ipiRingSize]
  omega

theorem Sound.sent_eq (sound : c.Sound) : c.sent = c.delivered ++ c.pending := by
  obtain ⟨rest, split⟩ := sound.delivered
  have lengths := congrArg List.length split
  rw [length_append] at lengths
  have sameLength : c.pending.length = rest.length := by
    rw [sound.pending_length]
    omega
  have same : c.pending = rest := by
    apply ext_getElem sameLength
    intro i inPending inRest
    have cell := sound.cells (c.delivered.length + i) (by omega) (by omega)
    rw [← split, List.getElem?_append_right (by omega), Nat.add_sub_cancel_left,
      List.getElem?_eq_getElem inRest, some_inj] at cell
    simp only [XcoreRing.pending, getElem_map, getElem_range, sound.receiver,
      Nat.mod_add_mod]
    exact cell.symm
  rw [same, split]

theorem Sound.tail_ne_receiver (sound : c.Sound) (waiting : c.delivered.length < c.sent.length) :
    c.sent.length % ipiRingSize ≠ c.delivered.length % ipiRingSize :=
  Window.cell_ne c.delivered.length (by omega) sound.room (by omega)
    (by simp [ipiRingSize]) (by omega)

theorem Sound.write (sound : c.Sound) (change : IpiCapData CompInfo → IpiCapData CompInfo) :
    (c.write (c.sent.length % ipiRingSize) change).Sound where
  sender := sound.sender
  receiver := sound.receiver
  delivered := sound.delivered
  room := sound.room
  cells := sound.cells.write_outside c.delivered.length ⟨le_rfl, Nat.le_of_lt sound.room,
    sound.delivered.length_le, sound.room, .inr le_rfl⟩ _

theorem Sound.publish (sound : c.Sound) {asnd : IpiCapData CompInfo}
    (room : c.sent.length + 1 < c.delivered.length + ipiRingSize)
    (written : c.ring (c.sent.length % ipiRingSize) = asnd) :
    Sound { c with sender := (c.sent.length + 1) % ipiRingSize, sent := c.sent ++ [asnd] } where
  sender := by simp
  receiver := sound.receiver
  delivered := sound.delivered.trans (prefix_append ..)
  room := by simpa using room
  cells := by
    rw [length_append, length_singleton]
    refine Window.Covers.extend (sound.cells.imp fun position data _ below cell => ?_) ?_
    · rw [List.getElem?_append_left below]
      exact cell
    · rw [List.getElem?_append_right le_rfl, Nat.sub_self]
      exact congrArg some written.symm

theorem Sound.advance (sound : c.Sound) (waiting : c.delivered.length < c.sent.length) :
    Sound { c with
      receiver := (c.receiver + 1) &&& ipiRingMask
      delivered := c.delivered ++ [c.ring c.receiver] } where
  sender := sound.sender
  receiver := by
    simp [and_ipiRingMask, sound.receiver]
  delivered := by
    have cell := sound.cells.at le_rfl waiting
    rw [← sound.receiver] at cell
    obtain ⟨rest, split⟩ := sound.delivered
    cases rest with
    | nil =>
      rw [← split, append_nil] at waiting
      exact absurd waiting (Nat.lt_irrefl _)
    | cons head tail =>
      rw [← split, List.getElem?_append_right le_rfl, Nat.sub_self,
        List.getElem?_cons_zero, some_inj] at cell
      exact ⟨tail, by rw [← split, ← cell]; simp⟩
  room := by
    have room := sound.room
    simp only [length_append, length_singleton]
    omega
  cells := by
    rw [length_append, length_singleton]
    exact sound.cells.shrink (Nat.le_succ _) le_rfl

end Channel

structure Enqueue.Sound (e : Enqueue CompInfo) (c : Channel CompInfo) : Prop where
  tail : e.tail = c.sent.length % ipiRingSize
  delta : e.delta = (c.sent.length + 1) % ipiRingSize
  room : c.sent.length + 1 < c.delivered.length + ipiRingSize
  arcvCapid : e.stage ≠ .arcvCapid → (c.ring e.tail).arcvCapid = e.asnd.arcvCapid
  arcvEpoch : e.stage = .compInfo ∨ e.stage = .publish →
    (c.ring e.tail).arcvEpoch = e.asnd.arcvEpoch
  compInfo : e.stage = .publish → (c.ring e.tail).compInfo = e.asnd.compInfo

/-- What a dequeue knows: past its test the ring is not empty, and what it has copied is
in the cell it reads. -/
def Dequeue.Sound (c : Channel CompInfo) : Dequeue CompInfo → Prop
  | .test => True
  | .arcvCapid => c.delivered.length < c.sent.length
  | .arcvEpoch capid =>
    c.delivered.length < c.sent.length ∧ capid = (c.ring c.receiver).arcvCapid
  | .compInfo capid epoch =>
    c.delivered.length < c.sent.length ∧ capid = (c.ring c.receiver).arcvCapid ∧
      epoch = (c.ring c.receiver).arcvEpoch
  | .advance ret => c.delivered.length < c.sent.length ∧ ret = c.ring c.receiver

theorem Dequeue.Sound.mono {c c' : Channel CompInfo} {dequeue : Dequeue CompInfo}
    (sound : dequeue.Sound c) (delivered : c'.delivered = c.delivered)
    (sent : c.sent.length ≤ c'.sent.length)
    (cell : c.delivered.length < c.sent.length → c'.ring c'.receiver = c.ring c.receiver) :
    dequeue.Sound c' := by
  have waiting (before : c.delivered.length < c.sent.length) :
      c'.delivered.length < c'.sent.length := by
    rw [delivered]
    omega
  cases dequeue with
  | test => trivial
  | arcvCapid => exact waiting sound
  | arcvEpoch capid => exact ⟨waiting sound.1, by rw [cell sound.1]; exact sound.2⟩
  | compInfo capid epoch => exact ⟨waiting sound.1, by rw [cell sound.1]; exact sound.2⟩
  | advance ret => exact ⟨waiting sound.1, by rw [cell sound.1]; exact sound.2⟩

/-- The rings that the loop comes to from `idx` on. -/
def Scan.from (scan : Scan CompInfo) (idx : Nat) : List Nat :=
  match scan.half with
  | .first => List.range' idx (numCpu - idx) ++ List.range (scan.last + 1).toNat
  | .second => List.range' idx ((scan.last + 1).toNat - idx)

def Scan.remaining (scan : Scan CompInfo) : List Nat :=
  scan.from (if scan.ring.isSome then scan.idx + 1 else scan.idx)

def Scan.GoesOn (scan : Scan CompInfo) : Prop :=
  match scan.half with
  | .first => scan.idx < numCpu
  | .second => (scan.idx : Int) ≤ scan.last

/-- The rings in the order in which a handler started at `start` comes to them. -/
def scanOrder (start : Nat) : List Nat := List.range' start (numCpu - start) ++ List.range start

theorem scanOrder_perm {start : Nat} (bounded : start < numCpu) :
    (scanOrder start).Perm (List.range numCpu) := by
  have joined := @List.range'_append_1 0 start (numCpu - start)
  rw [Nat.zero_add, Nat.add_sub_cancel' bounded.le, ← List.range_eq_range',
    ← List.range_eq_range'] at joined
  rw [← joined]
  exact List.perm_append_comm

structure Scan.Sound (scan : Scan CompInfo) : Prop where
  last : ∃ start < numCpu, scan.last = (start : Int) - 1
  order : scan.visited ++ scan.remaining = scanOrder (scan.last + 1).toNat

namespace IpiState

structure Sound (s : IpiState CompInfo) : Prop where
  channels : ∀ dest source, (s.channel dest source).Sound
  enqueuing : ∀ cpu e, s.enqueuing cpu = some e → e.Sound (s.channel e.dest cpu)
  dequeuing : ∀ cpu scan dequeue, s.handling cpu = some scan → scan.ring = some dequeue →
    dequeue.Sound (s.channel cpu scan.idx)
  handling : ∀ cpu scan, s.handling cpu = some scan → scan.Sound
  start : ∀ cpu, s.start cpu < numCpu
  scans : ∀ cpu, ∀ visited ∈ s.scans cpu, visited.Perm (List.range numCpu)

variable {s s' : IpiState CompInfo} {cpu : Nat} {scan : Scan CompInfo}

theorem initial_sound (start : Nat → Fin numCpu) (unset : IpiCapData CompInfo) :
    (initial start unset).Sound where
  channels _ _ := ⟨rfl, rfl, prefix_refl _, by simp [initial, ipiRingSize],
    Window.Covers.empty _ _ _⟩
  enqueuing _ _ found := by simp [initial] at found
  dequeuing _ _ _ found := by simp [initial] at found
  handling _ _ found := by simp [initial] at found
  start cpu := (start cpu).isLt
  scans _ _ member := by simp [initial] at member

theorem Sound.setReturned (sound : s.Sound) (cpu : Nat) (result : Int) :
    (s.setReturned cpu result).Sound :=
  ⟨sound.channels, sound.enqueuing, sound.dequeuing, sound.handling, sound.start, sound.scans⟩

theorem Sound.setEnqueuing (sound : s.Sound) {enqueue : Option (Enqueue CompInfo)}
    (enqueues : ∀ e, enqueue = some e → e.Sound (s.channel e.dest cpu)) :
    (s.setEnqueuing cpu enqueue).Sound := by
  refine ⟨sound.channels, fun other e found => ?_, sound.dequeuing, sound.handling, sound.start,
    sound.scans⟩
  simp only [IpiState.setEnqueuing] at found ⊢
  by_cases same : other = cpu
  · subst same
    rw [update_self] at found
    exact enqueues e found
  · rw [update_of_ne same] at found
    exact sound.enqueuing other e found

theorem Sound.setHandling (sound : s.Sound) {scan : Option (Scan CompInfo)}
    (scanning : ∀ present, scan = some present → present.Sound)
    (dequeuing : ∀ present dequeue, scan = some present → present.ring = some dequeue →
      dequeue.Sound (s.channel cpu present.idx)) : (s.setHandling cpu scan).Sound := by
  refine ⟨sound.channels, sound.enqueuing, fun other present dequeue found ring => ?_,
    fun other present found => ?_, sound.start, sound.scans⟩
  all_goals
    simp only [IpiState.setHandling] at found ⊢
    by_cases same : other = cpu
  · subst same
    rw [update_self] at found
    exact dequeuing present dequeue found ring
  · rw [update_of_ne same] at found
    exact sound.dequeuing other present dequeue found ring
  · subst same
    rw [update_self] at found
    exact scanning present found
  · rw [update_of_ne same] at found
    exact sound.handling other present found

theorem channel_setChannel (s : IpiState CompInfo) (dest source : Nat) (c : Channel CompInfo)
    (dest' source' : Nat) :
    (s.setChannel dest source c).channel dest' source' =
      if dest' = dest ∧ source' = source then c else s.channel dest' source' := by
  by_cases sameDest : dest' = dest
  · subst sameDest
    by_cases sameSource : source' = source
    · simp [setChannel, sameSource]
    · simp [setChannel, sameSource]
  · simp [setChannel, sameDest]

theorem Sound.setChannel (sound : s.Sound) {dest source : Nat} {c : Channel CompInfo}
    (channel : c.Sound)
    (enqueues : ∀ e, s.enqueuing source = some e → e.dest = dest → e.Sound c)
    (dequeues : ∀ scan dequeue, s.handling dest = some scan → scan.idx = source →
      scan.ring = some dequeue → dequeue.Sound c) : (s.setChannel dest source c).Sound := by
  refine ⟨fun dest' source' => ?_, fun cpu e found => ?_, fun cpu scan dequeue found ring => ?_,
    sound.handling, sound.start, sound.scans⟩
  all_goals
    rw [channel_setChannel]
    split_ifs with here
  · exact channel
  · exact sound.channels dest' source'
  · obtain ⟨rfl, rfl⟩ := here
    exact enqueues e found rfl
  · exact sound.enqueuing cpu e found
  · obtain ⟨rfl, rfl⟩ := here
    exact dequeues scan dequeue found rfl ring
  · exact sound.dequeuing cpu scan dequeue found ring

/-! The sender. -/

theorem full_iff {c : Channel CompInfo} (sound : c.Sound) :
    (c.sender + 1) &&& ipiRingMask = c.receiver ↔ c.pending.length = 15 := by
  have prefixed := sound.delivered.length_le
  have room := sound.room
  rw [and_ipiRingMask, sound.pending_length, sound.sender, sound.receiver]
  simp only [ipiRingSize] at room ⊢
  omega

theorem Sound.cosIpiRingEnqueue (sound : s.Sound) (cpu dest : Nat)
    (asnd : IpiCapData CompInfo) : (s.cosIpiRingEnqueue cpu dest asnd).Sound := by
  have channel := sound.channels dest cpu
  simp only [IpiState.cosIpiRingEnqueue]
  split_ifs with noCpu full
  · exact sound.setReturned cpu (-1)
  · exact sound.setReturned cpu (-1)
  · refine sound.setEnqueuing fun e found => ?_
    obtain rfl := (some_inj.mp found).symm
    have room := channel.room
    rw [full_iff channel, channel.pending_length] at full
    refine ⟨channel.sender, ?_, ?_, fun later => absurd rfl later, fun later => ?_, fun later => ?_⟩
    · simp [and_ipiRingMask, channel.sender]
    · simp only [ipiRingSize] at room ⊢
      omega
    · simp at later
    · simp at later

/-- Filling in the sender's cell disturbs neither the ring nor the receiver. -/
theorem Sound.write (sound : s.Sound) {e e' : Enqueue CompInfo}
    {change : IpiCapData CompInfo → IpiCapData CompInfo} (running : s.enqueuing cpu = some e)
    (sameDest : e'.dest = e.dest)
    (enqueues : e'.Sound ((s.channel e.dest cpu).write e.tail change)) :
    ((s.setChannel e.dest cpu ((s.channel e.dest cpu).write e.tail change)).setEnqueuing cpu
      (some e')).Sound := by
  have channel := sound.channels e.dest cpu
  have tail := (sound.enqueuing cpu e running).tail
  have idle : (s.setEnqueuing cpu none).Sound := sound.setEnqueuing (by simp)
  have written : ((s.setEnqueuing cpu none).setChannel e.dest cpu
      ((s.channel e.dest cpu).write e.tail change)).Sound := by
    refine idle.setChannel (tail ▸ channel.write change) ?_ fun scan dequeue found here ring => ?_
    · simp [IpiState.setEnqueuing]
    · have dequeues := sound.dequeuing e.dest scan dequeue found ring
      rw [here] at dequeues
      refine dequeues.mono rfl le_rfl fun waiting => update_of_ne ?_ _ _
      change (s.channel e.dest cpu).receiver ≠ e.tail
      rw [tail, channel.receiver]
      exact (channel.tail_ne_receiver waiting).symm
  have final : (IpiState.setEnqueuing _ cpu (some e')).Sound :=
    written.setEnqueuing fun present same => by
      obtain rfl := some_inj.mp same
      rw [channel_setChannel, if_pos ⟨sameDest, rfl⟩]
      exact enqueues
  simpa [IpiState.setEnqueuing, IpiState.setChannel] using final

theorem Sound.enqueueStep (sound : s.Sound) {e : Enqueue CompInfo}
    (running : s.enqueuing cpu = some e) : (s.enqueueStep cpu e).Sound := by
  have enqueues := sound.enqueuing cpu e running
  unfold IpiState.enqueueStep
  cases stage : e.stage with
  | arcvCapid =>
    refine sound.write running rfl ⟨enqueues.tail, enqueues.delta, enqueues.room, ?_, ?_, ?_⟩
    all_goals simp [Channel.write]
  | arcvEpoch =>
    refine sound.write running rfl ⟨enqueues.tail, enqueues.delta, enqueues.room, ?_, ?_, ?_⟩
    · simpa [Channel.write] using enqueues.arcvCapid (by simp [stage])
    all_goals simp [Channel.write]
  | compInfo =>
    refine sound.write running rfl ⟨enqueues.tail, enqueues.delta, enqueues.room, ?_, ?_, ?_⟩
    · simpa [Channel.write] using enqueues.arcvCapid (by simp [stage])
    · simpa [Channel.write] using enqueues.arcvEpoch (.inl stage)
    · simp [Channel.write]
  | publish =>
    have written : (s.channel e.dest cpu).ring
        ((s.channel e.dest cpu).sent.length % ipiRingSize) = e.asnd := by
      rw [← enqueues.tail]
      have capid := enqueues.arcvCapid (by simp [stage])
      have epoch := enqueues.arcvEpoch (.inr stage)
      have info := enqueues.compInfo stage
      cases found : (s.channel e.dest cpu).ring e.tail
      cases same : e.asnd
      simp_all
    have channel := (sound.channels e.dest cpu).publish enqueues.room written
    rw [← enqueues.delta] at channel
    have idle : (s.setEnqueuing cpu none).Sound := sound.setEnqueuing (by simp)
    refine Sound.setReturned (s := (s.setEnqueuing cpu none).setChannel e.dest cpu _) ?_ cpu 0
    refine idle.setChannel channel ?_ fun scan dequeue found here ring => ?_
    · simp [IpiState.setEnqueuing]
    · have dequeues := sound.dequeuing e.dest scan dequeue found ring
      rw [here] at dequeues
      exact dequeues.mono rfl (by simp) fun _ => rfl

/-! The handler. -/

theorem Sound.cosCapIpiHandling (sound : s.Sound) (cpu : Nat) :
    (s.cosCapIpiHandling cpu).Sound := by
  have start := sound.start cpu
  have scanning : (s.setHandling cpu
      (some ⟨.first, s.start cpu, (s.start cpu : Int) - 1, [], none⟩)).Sound := by
    refine sound.setHandling (fun present same => ?_) fun present dequeue same ring => ?_
    · obtain rfl := (some_inj.mp same).symm
      exact ⟨⟨s.start cpu, start, rfl⟩, by simp [Scan.remaining, Scan.from, scanOrder]⟩
    · obtain rfl := (some_inj.mp same).symm
      simp at ring
  refine ⟨scanning.channels, scanning.enqueuing, scanning.dequeuing, scanning.handling,
    fun other => ?_, scanning.scans⟩
  simp only [IpiState.cosCapIpiHandling]
  by_cases same : other = cpu
  · subst same
    rw [update_self]
    exact Nat.mod_lt _ (by decide)
  · rw [update_of_ne same]
    exact sound.start other

theorem from_eq_cons (goesOn : scan.GoesOn) :
    scan.from scan.idx = scan.idx :: scan.from (scan.idx + 1) := by
  cases half : scan.half with
  | first =>
    simp only [Scan.GoesOn, half] at goesOn
    have split : numCpu - scan.idx = (numCpu - (scan.idx + 1)) + 1 := by omega
    simp [Scan.from, half, split, List.range'_succ]
  | second =>
    simp only [Scan.GoesOn, half] at goesOn
    have split : (scan.last + 1).toNat - scan.idx =
        ((scan.last + 1).toNat - (scan.idx + 1)) + 1 := by omega
    simp [Scan.from, half, split, List.range'_succ]

section

variable (sound : s.Sound) (scanning : scan.Sound)

include sound scanning

theorem Sound.visit (between : scan.ring = none) (goesOn : scan.GoesOn) :
    (s.visit cpu scan).Sound := by
  have order : (scan.visited ++ [scan.idx]) ++ scan.from (scan.idx + 1) =
      scanOrder (scan.last + 1).toNat := by
    rw [← append_cons, ← from_eq_cons goesOn]
    simpa [Scan.remaining, between] using scanning.order
  simp only [IpiState.visit]
  split_ifs with holds
  all_goals
    refine sound.setHandling (fun present same => ?_) fun present dequeue same ring => ?_
    all_goals obtain rfl := (some_inj.mp same).symm
  · exact ⟨scanning.last, order⟩
  · obtain rfl := (some_inj.mp ring).symm
    trivial
  · exact ⟨scanning.last, order⟩
  · simp [Scan.next] at ring

theorem Sound.scanStep (between : scan.ring = none) : (s.scanStep cpu scan).Sound := by
  unfold IpiState.scanStep
  cases half : scan.half with
  | first =>
    simp only
    by_cases more : scan.idx < numCpu
    · rw [if_pos more]
      exact sound.visit scanning between (by simpa [Scan.GoesOn, half] using more)
    · rw [if_neg more]
      refine sound.setHandling (fun present same => ?_) fun present dequeue same ring => ?_
      · obtain rfl := (some_inj.mp same).symm
        refine ⟨scanning.last, ?_⟩
        have none_left : numCpu - scan.idx = 0 := by omega
        simpa [Scan.remaining, Scan.from, half, between, none_left, range_eq_range'] using
          scanning.order
      · obtain rfl := (some_inj.mp same).symm
        simp [between] at ring
  | second =>
    simp only
    by_cases more : (scan.idx : Int) ≤ scan.last
    · rw [if_pos more]
      exact sound.visit scanning between (by simpa [Scan.GoesOn, half] using more)
    · rw [if_neg more]
      have finished : (s.setHandling cpu none).Sound := sound.setHandling (by simp) (by simp)
      refine ⟨finished.channels, finished.enqueuing, finished.dequeuing, finished.handling,
        finished.start, fun other visited member => ?_⟩
      dsimp only at member
      by_cases same : other = cpu
      · subst same
        rw [update_self, mem_append, mem_singleton] at member
        rcases member with before | rfl
        · exact sound.scans other visited before
        · obtain ⟨start, bounded, last⟩ := scanning.last
          have order := scanning.order
          have startNat : (scan.last + 1).toNat = start := by omega
          have none_left : start - scan.idx = 0 := by omega
          simp only [Scan.remaining, Scan.from, half, between, isSome_none, Bool.false_eq_true,
            if_false, startNat, none_left, List.range'_zero, append_nil] at order
          rw [order]
          exact scanOrder_perm bounded
      · rw [update_of_ne same] at member
        exact sound.scans other visited member

theorem Sound.setDequeue {dequeue dequeue' : Dequeue CompInfo} (ring : scan.ring = some dequeue)
    (dequeues : dequeue'.Sound (s.channel cpu scan.idx)) :
    (s.setHandling cpu (some { scan with ring := some dequeue' })).Sound := by
  refine sound.setHandling (fun present same => ?_) fun present found same present_ring => ?_
  · obtain rfl := (some_inj.mp same).symm
    refine ⟨scanning.last, ?_⟩
    simpa [Scan.remaining, Scan.from, ring] using scanning.order
  · obtain rfl := (some_inj.mp same).symm
    obtain rfl := (some_inj.mp present_ring).symm
    exact dequeues

theorem Sound.dequeueStep {dequeue : Dequeue CompInfo} (running : s.handling cpu = some scan)
    (ring : scan.ring = some dequeue) : (s.dequeueStep cpu scan dequeue).Sound := by
  have dequeues := sound.dequeuing cpu scan dequeue running ring
  have channel := sound.channels cpu scan.idx
  cases dequeue with
  | test =>
    simp only [IpiState.dequeueStep]
    split_ifs with empty
    · refine sound.setHandling (fun present same => ?_) fun present found same present_ring => ?_
      · obtain rfl := (some_inj.mp same).symm
        refine ⟨scanning.last, ?_⟩
        simpa [Scan.remaining, Scan.from, Scan.next, ring] using scanning.order
      · obtain rfl := (some_inj.mp same).symm
        simp [Scan.next] at present_ring
    · refine sound.setDequeue scanning ring ?_
      have prefixed := channel.delivered.length_le
      rw [channel.sender, channel.receiver] at empty
      rcases Nat.lt_or_eq_of_le prefixed with waiting | same
      · exact waiting
      · exact absurd (by rw [same]) empty
  | arcvCapid => exact sound.setDequeue scanning ring ⟨dequeues, rfl⟩
  | arcvEpoch capid => exact sound.setDequeue scanning ring ⟨dequeues.1, dequeues.2, rfl⟩
  | compInfo capid epoch =>
    obtain ⟨waiting, rfl, rfl⟩ := dequeues
    exact sound.setDequeue scanning ring ⟨waiting, rfl⟩
  | advance ret =>
    obtain ⟨waiting, rfl⟩ := dequeues
    have tested : (s.setHandling cpu (some { scan with ring := some .test })).Sound :=
      sound.setDequeue scanning ring trivial
    refine tested.setChannel (channel.advance waiting) (fun e found here => ?_)
      fun present dequeue found here present_ring => ?_
    · have enqueues := sound.enqueuing scan.idx e found
      rw [here] at enqueues
      refine ⟨enqueues.tail, enqueues.delta, ?_, enqueues.arcvCapid, enqueues.arcvEpoch,
        enqueues.compInfo⟩
      have room := enqueues.room
      simp only [length_append, length_singleton]
      omega
    · simp only [IpiState.setHandling, update_self, some.injEq] at found
      subst found
      obtain rfl := (some_inj.mp present_ring).symm
      trivial

end

/-- Every single access keeps the rings sound. -/
theorem Sound.next (sound : s.Sound) {event : IpiEvent CompInfo}
    (stepped : s.next event = some s') :
    s'.Sound := by
  cases event with
  | enqueue cpu dest asnd =>
    simp only [IpiState.next, ite_none_right_eq_some, some.injEq] at stepped
    exact stepped.2 ▸ sound.cosIpiRingEnqueue cpu dest asnd
  | send cpu =>
    simp only [IpiState.next, map_eq_some_iff] at stepped
    obtain ⟨e, running, rfl⟩ := stepped
    exact sound.enqueueStep running
  | interrupt cpu =>
    simp only [IpiState.next, ite_none_right_eq_some, some.injEq] at stepped
    exact stepped.2 ▸ sound.cosCapIpiHandling cpu
  | handle cpu =>
    simp only [IpiState.next, map_eq_some_iff] at stepped
    obtain ⟨scan, running, rfl⟩ := stepped
    have scanning := sound.handling cpu scan running
    unfold IpiState.handleStep
    cases ring : scan.ring with
    | none => exact sound.scanStep scanning ring
    | some dequeue => exact sound.dequeueStep scanning running ring

theorem sound_of_exec {start : Nat → Fin numCpu} {unset : IpiCapData CompInfo}
    {events : List (IpiEvent CompInfo)}
    (reached : exec next (initial start unset) events = some s) : s.Sound := by
  have kept : ∀ (s : IpiState CompInfo) event s', s.Sound → True → s.next event = some s' →
      s'.Sound := fun _ _ _ sound _ stepped => sound.next stepped
  exact exec_invariant kept (initial_sound start unset)
    (Meets.of_forall (fun _ _ => trivial) _ _) reached

end IpiState

/-- In every interleaving of single accesses, the ring from `source` to `dest` has delivered
a beginning of what was sent and holds the rest, at most 15 notifications.  A send that finds
15 is refused and leaves everything but its result alone, any other one goes on to write.
Every finished run of a handler has come to each ring once. -/
theorem ipi_delivery {start : Nat → Fin numCpu} {unset : IpiCapData CompInfo}
    {events : List (IpiEvent CompInfo)} {s : IpiState CompInfo}
    (reached : Transition.exec IpiState.next (IpiState.initial start unset) events = some s)
    {dest source : Nat} (destBounded : dest < numCpu) (sourceBounded : source < numCpu) :
    ((s.channel dest source).sent =
        (s.channel dest source).delivered ++ (s.channel dest source).pending ∧
      (s.channel dest source).pending.length ≤ 15) ∧
    (∀ asnd, s.enqueuing source = none →
      if (s.channel dest source).pending.length = 15 then
        s.next (.enqueue source dest asnd) = some (s.setReturned source (-1))
      else
        ∃ e : Enqueue CompInfo, e.dest = dest ∧ e.asnd = asnd ∧
          s.next (.enqueue source dest asnd) = some (s.setEnqueuing source (some e))) ∧
    ∀ visited ∈ s.scans dest, visited.Perm (List.range numCpu) := by
  have sound := IpiState.sound_of_exec reached
  have channel := sound.channels dest source
  refine ⟨⟨channel.sent_eq, ?_⟩, fun asnd idle => ?_, sound.scans dest⟩
  · have room := channel.room
    rw [channel.pending_length]
    simp only [ipiRingSize] at room
    omega
  · have inRange : ¬ dest ≥ numCpu := by omega
    simp only [IpiState.next, idle, Option.isNone_none, and_true, if_pos sourceBounded,
      IpiState.cosIpiRingEnqueue, if_neg inRange, IpiState.full_iff channel]
    split_ifs with full
    · rfl
    · exact ⟨_, rfl, rfl, rfl⟩

def sendAndHandle : List (IpiEvent Nat) :=
  .enqueue 1 0 ⟨3, 0, 7⟩ :: List.replicate 4 (.send 1) ++
    .interrupt 0 :: List.replicate 24 (.handle 0)

theorem ipi_delivery_handled :
    ∃ s, Transition.exec IpiState.next (IpiState.initial (fun _ => ⟨5, by decide⟩) ⟨0, 0, 0⟩)
        sendAndHandle = some s ∧
      (s.channel 0 1).sent = [⟨3, 0, 7⟩] ∧ (s.channel 0 1).delivered = [⟨3, 0, 7⟩] ∧
      s.scans 0 = [[5, 6, 7, 8, 9, 10, 11, 12, 13, 14, 15, 0, 1, 2, 3, 4]] ∧
      (s.channel 0 1).sent = (s.channel 0 1).delivered ++ (s.channel 0 1).pending := by
  have run : (Transition.exec IpiState.next
      (IpiState.initial (fun _ => ⟨5, by decide⟩) ⟨0, 0, 0⟩) sendAndHandle).map
        (fun s => ((s.channel 0 1).sent, (s.channel 0 1).delivered, s.scans 0)) =
      some ([⟨3, 0, 7⟩], [⟨3, 0, 7⟩],
        [[5, 6, 7, 8, 9, 10, 11, 12, 13, 14, 15, 0, 1, 2, 3, 4]]) := by
    decide +kernel
  obtain ⟨s, reached, facts⟩ := Option.map_eq_some_iff.mp run
  simp only [Prod.mk.injEq] at facts
  have delivery := ipi_delivery reached (by decide : 0 < numCpu) (by decide : 1 < numCpu)
  exact ⟨s, reached, facts.1, facts.2.1, facts.2.2, delivery.1.1⟩

end Composite
