import Composite.Eos.Conn.Create

/-!
# Scanning the connections

The agent passes the connections in use and returns the deleted ones.  It overwrites the head of
its list, and that is right only while the head still leads to the connection it takes out.
-/

namespace Composite.Eos.Conn

open Links Transition Function List

namespace Conns

variable {s s' : Conns} {scan free : List Nat}

section

variable (sound : s.Sound scan free)

include sound

theorem Sound.setScanner {place : Scanning} (ok : s.ScannerOk scan place)
    (same : s.scanner.returns = none ∨ place.returns = s.scanner.returns) :
    { s with scanner := place }.Sound scan free := by
  refine { sound with creators := ?_, scanner := ok.frame rfl fun _ _ => ⟨rfl, rfl⟩, removed := ?_ }
  · intro thread
    exact (sound.creators thread).frame fun _ _ => ⟨rfl, rfl, rfl⟩
  · intro c removed
    have returns := sound.removed c removed
    rcases same with none | same
    · rw [none] at returns
      cases returns
    · exact same.trans returns

variable {p : Link} {after : List Nat} {c : Nat}

/-- The agent follows a link. -/
theorem Sound.load (passed : s.Passed scan p after) :
    (s.load p = none → ∀ c ∈ scan, s.due c = false) ∧
      ∀ c, s.load p = some c → ∃ rest, s.Passed scan p (c :: rest) := by
  cases p with
  | head =>
    have first := sound.scanLinked.head?
    constructor
    · intro ended
      rw [show s.lh = none from ended] at first
      rw [List.head?_eq_none_iff.mp first.symm]
      exact fun c member => nomatch member
    · intro c found
      rw [show s.lh = some c from found] at first
      obtain ⟨rest, list⟩ := List.head?_eq_some_iff.mp first.symm
      exact ⟨rest, [], list, trivial, fun x member => nomatch member⟩
  | next a =>
    obtain ⟨before, split, link, clean⟩ := passed
    obtain ⟨front, ends⟩ := List.getLast?_eq_some_iff.mp link
    have linked := sound.scanLinked
    rw [split, ends, append_assoc] at linked
    have first := linked.after.head?
    constructor
    · intro ended
      rw [show s.next a = none from ended] at first
      have nothing := List.head?_eq_none_iff.mp first.symm
      rw [split, show after = [] from nothing, append_nil]
      exact clean
    · intro c found
      rw [show s.next a = some c from found] at first
      obtain ⟨rest, list⟩ := List.head?_eq_some_iff.mp first.symm
      refine ⟨rest, before, ?_, link, clean⟩
      rw [split]
      exact congrArg _ list

/-- The agent passes a connection that is in use. -/
theorem Sound.pass (passed : s.Passed scan p (c :: after)) (used : s.used c = true) :
    s.Passed scan (.next c) after := by
  obtain ⟨before, split, link, clean⟩ := passed
  refine ⟨before ++ [c], by rw [split, append_assoc]; rfl, by simp [LinkAt], ?_⟩
  intro x member
  rcases mem_append.mp member with earlier | this
  · exact clean x earlier
  · rw [mem_singleton] at this
    subst this
    have inside : x ∈ scan := by rw [split]; simp
    have live := (sound.used x inside).mp used
    cases due : s.due x with
    | false => rfl
    | true =>
      have deleted := sound.dueDeleted x due
      rw [live] at deleted
      cases deleted

theorem Sound.deleted_of_unused (passed : s.Passed scan p (c :: after)) (unused : s.used c ≠ true) :
    s.life c = .deleted := by
  obtain ⟨before, split, _⟩ := passed
  have inside : c ∈ scan := by rw [split]; simp
  exact ((sound.scanned c).mp inside).resolve_left fun live =>
    unused ((sound.used c inside).mpr live)

theorem Sound.unlinked {before : List Nat} (split : scan = before ++ c :: after)
    (link : LinkAt p before) (undisturbed : p = .head → s.lh = some c)
    (deleted : s.life c = .deleted) :
    Linked (s.store p (s.next c)).next (s.store p (s.next c)).lh (before ++ after) ∧
      Linked (s.store p (s.next c)).next (s.store p (s.next c)).fl free ∧
      ∀ x, s.life x ≠ .live → s.life x ≠ .deleted → (s.store p (s.next c)).next x = s.next x := by
  have linked := sound.scanLinked
  have nodup := sound.scanNodup
  rw [split] at linked nodup
  cases p with
  | head =>
    have first := linked.head?
    rw [undisturbed rfl] at first
    -- nothing is in front of the connection that the head leads to
    cases before with
    | cons x rest =>
      have same : x = c := (Option.some.inj first).symm
      subst same
      exact absurd (nodup_cons.mp nodup).1 (by simp)
    | nil => exact ⟨linked.2, sound.freeLinked, fun _ _ _ => rfl⟩
  | next a =>
    obtain ⟨front, rfl⟩ := List.getLast?_eq_some_iff.mp link
    rw [append_assoc] at linked nodup ⊢
    have inside : a ∈ scan := by rw [split]; simp
    have life := (sound.scanned a).mp inside
    refine ⟨linked.unlink nodup, ?_, fun x live deleted => update_of_ne ?_ ..⟩
    · refine sound.freeLinked.update (sound.not_freed fun isFree => ?_) _
      rw [isFree] at life
      rcases life with wrong | wrong <;> cases wrong
    · rintro rfl
      exact life.elim live deleted

theorem Sound.unlink {n : Option Nat} (place : s.scanner = .unlinkStore p c n)
    (undisturbed : Undisturbed s .scan) : ∃ scan, s.scan.Sound scan free := by
  have ok := sound.scanner
  rw [place] at ok
  obtain ⟨deleted, rfl, after, before, split, link, clean⟩ := ok
  have head : p = .head → s.lh = some c := by
    rintro rfl
    simp only [Undisturbed, place] at undisturbed
    exact undisturbed
  obtain ⟨scanLinked, freeLinked, rest⟩ := sound.unlinked split link head deleted
  have nodup := sound.scanNodup
  rw [split] at nodup
  have apart : c ∉ before ++ after :=
    (nodup_cons.mp (nodup_middle.mp nodup)).1
  have inside : ∀ x, x ∈ scan ↔ x = c ∨ x ∈ before ++ after := by
    intro x
    rw [split]
    simp only [mem_append, mem_cons]
    tauto
  have kept : ∀ x, s.life x ≠ .deleted → update s.life c .removed x = s.life x := by
    intro x life
    refine update_of_ne ?_ ..
    rintro rfl
    exact life deleted
  have stored : (s.store p (s.next c)).life = s.life ∧ (s.store p (s.next c)).used = s.used ∧
      (s.store p (s.next c)).creator = s.creator := by
    cases p <;> exact ⟨rfl, rfl, rfl⟩
  obtain ⟨lifeSame, usedSame, creatorSame⟩ := stored
  refine ⟨before ++ after, ?_⟩
  simp only [Conns.scan, place, setLife, lifeSame]
  refine ⟨scanLinked, freeLinked, (nodup_cons.mp (nodup_middle.mp nodup)).2,
    sound.freeNodup, ?_, ?_, ?_, ?_, ?_, ?_, ?_, ?_⟩
  · intro x
    by_cases same : x = c
    · subst same
      simp only [update_self]
      exact iff_of_false apart (by decide)
    · simp only [update_of_ne same]
      rw [← sound.scanned x, inside x]
      exact ⟨.inr, fun member => member.resolve_left same⟩
  · intro x
    by_cases same : x = c
    · subst same
      simp only [update_self]
      exact iff_of_false (sound.not_freed (by rw [deleted]; decide)) (by decide)
    · simp only [update_of_ne same]
      exact sound.freed x
  · intro x member
    have same : x ≠ c := by
      rintro rfl
      exact apart member
    simp only [usedSame, update_of_ne same]
    exact sound.used x ((inside x).mpr (.inr member))
  · intro thread
    rw [creatorSame]
    refine (sound.creators thread).frame fun x holds => ?_
    have held := (sound.creators thread).held holds
    exact ⟨kept x (by rw [held]; decide), by rw [usedSame],
      rest x (by rw [held]; decide) (by rw [held]; decide)⟩
  · rw [creatorSame]
    exact sound.owners
  · refine ⟨update_self .., after, before, rfl, link, fun x member => ?_⟩
    by_cases same : x = c
    · subst same
      exact update_self ..
    · exact (update_of_ne same ..).trans (clean x member)
  · intro x removed
    by_cases same : x = c
    · subst same
      rfl
    · simp only [update_of_ne same] at removed
      have returns := sound.removed x removed
      rw [place] at returns
      cases returns
  · intro x due
    by_cases same : x = c
    · subst same
      simp only [update_self] at due
      cases due
    · simp only [update_of_ne same] at due ⊢
      exact sound.dueDeleted x due

theorem Sound.relink {t : Option Nat} {place : Scanning} (removed : s.life c = .removed)
    (ok : (s.setNext c t).ScannerOk scan place) (returns : place.returns = s.scanner.returns) :
    { s.setNext c t with scanner := place }.Sound scan free := by
  refine { sound with
    scanLinked := ?_, freeLinked := ?_, creators := ?_
    scanner := ok.frame rfl fun _ _ => ⟨rfl, rfl⟩, removed := ?_ }
  · exact sound.scanLinked.update
      (sound.not_scanned (by rw [removed]; decide) (by rw [removed]; decide)) t
  · exact sound.freeLinked.update (sound.not_freed (by rw [removed]; decide)) t
  · intro thread
    refine (sound.creators thread).frame fun x holds => ⟨rfl, rfl, update_of_ne ?_ ..⟩
    rintro rfl
    have held := (sound.creators thread).held holds
    rw [removed] at held
    cases held
  · intro x gone
    exact returns.trans (sound.removed x gone)

/-- The connection is free again. -/
theorem Sound.release (removed : s.life c = .removed) (link : s.next c = s.fl)
    (ok : ∃ after, s.Passed scan p after) :
    { { s with fl := some c }.setLife c .free with scanner := .load p }.Sound scan (c :: free) := by
  have returns := sound.removed c removed
  have kept : ∀ x, s.life x ≠ .removed → update s.life c .free x = s.life x := by
    intro x life
    refine update_of_ne ?_ ..
    rintro rfl
    exact life removed
  have outside : c ∉ scan := sound.not_scanned (by rw [removed]; decide) (by rw [removed]; decide)
  refine ⟨sound.scanLinked, ⟨rfl, link ▸ sound.freeLinked⟩, sound.scanNodup,
    nodup_cons.mpr ⟨sound.not_freed (by rw [removed]; decide), sound.freeNodup⟩,
    ?_, ?_, ?_, ?_, sound.owners, ?_, ?_, ?_⟩
  · intro x
    refine forall_setLife ?_ (fun x same => ?_) x
    · exact iff_of_false outside (by decide)
    · exact sound.scanned x
  · intro x
    refine forall_setLife ?_ (fun x same => ?_) x
    · exact iff_of_true (mem_cons_self ..) rfl
    · rw [← sound.freed x, mem_cons]
      exact ⟨fun member => member.resolve_left same, .inr⟩
  · intro x member
    have same : x ≠ c := by
      rintro rfl
      exact outside member
    simp only [setLife, update_of_ne same]
    exact sound.used x member
  · intro thread
    refine (sound.creators thread).frame fun x holds => ⟨kept x ?_, rfl, rfl⟩
    rw [(sound.creators thread).held holds]
    decide
  · obtain ⟨after, passed⟩ := ok
    exact ⟨after, passed.frame rfl⟩
  · intro x gone
    by_cases same : x = c
    · subst same
      simp only [setLife, update_self] at gone
      cases gone
    · simp only [setLife, update_of_ne same] at gone
      have other := sound.removed x gone
      rw [returns] at other
      exact absurd (Option.some.inj other).symm same
  · intro x due
    have deleted := sound.dueDeleted x due
    exact (kept x (by rw [deleted]; decide)).trans deleted

theorem Sound.scanStep (undisturbed : Undisturbed s .scan) :
    ∃ scan free, s.scan.Sound scan free := by
  have ok := sound.scanner
  have returned := sound.removed
  cases place : s.scanner with
  | idle =>
    rw [place] at ok returned
    refine ⟨scan, free, ?_⟩
    simp only [Conns.scan, place]
    refine { sound with creators := ?_, scanner := ?_, removed := ?_, dueDeleted := ?_ }
    · intro thread
      exact (sound.creators thread).frame fun _ _ => ⟨rfl, rfl, rfl⟩
    · exact ⟨scan, [], rfl, trivial, fun _ member => nomatch member⟩
    · intro c removed
      exact nomatch returned c removed
    · intro c due
      exact of_decide_eq_true due
  | load p =>
    rw [place] at ok
    obtain ⟨after, passed⟩ := ok
    obtain ⟨ended, found⟩ := sound.load passed
    refine ⟨scan, free, ?_⟩
    simp only [Conns.scan, place]
    split
    · next none => exact sound.setScanner (ended none) (.inl (by rw [place]; rfl))
    · next c some => exact sound.setScanner (found c some) (.inl (by rw [place]; rfl))
  | test p c =>
    rw [place] at ok
    obtain ⟨after, passed⟩ := ok
    refine ⟨scan, free, ?_⟩
    simp only [Conns.scan, place]
    split
    · next used =>
      exact sound.setScanner ⟨after, sound.pass passed used⟩ (.inl (by rw [place]; rfl))
    · next unused =>
      exact sound.setScanner ⟨sound.deleted_of_unused passed unused, after, passed⟩
        (.inl (by rw [place]; rfl))
  | unlinkLoad p c =>
    rw [place] at ok
    obtain ⟨deleted, after, passed⟩ := ok
    refine ⟨scan, free, ?_⟩
    simp only [Conns.scan, place]
    exact sound.setScanner ⟨deleted, rfl, after, passed⟩ (.inl (by rw [place]; rfl))
  | unlinkStore p c n =>
    obtain ⟨scan', sound'⟩ := sound.unlink place undisturbed
    exact ⟨scan', free, sound'⟩
  | collect p c =>
    rw [place] at ok
    refine ⟨scan, free, ?_⟩
    simp only [Conns.scan, place]
    exact sound.setScanner ok (.inr (by rw [place]; rfl))
  | collectNext p c t =>
    rw [place] at ok
    obtain ⟨removed, after, passed⟩ := ok
    refine ⟨scan, free, ?_⟩
    simp only [Conns.scan, place]
    exact sound.relink removed ⟨removed, update_self .., after, passed.frame rfl⟩
      (by rw [place]; rfl)
  | collectCas p c t =>
    rw [place] at ok
    obtain ⟨removed, link, passed⟩ := ok
    simp only [Conns.scan, place]
    split
    · next head => exact ⟨scan, c :: free, sound.release removed (link.trans head.symm) passed⟩
    · exact ⟨scan, free, sound.setScanner ⟨removed, passed⟩ (.inr (by rw [place]; rfl))⟩

theorem Sound.step {event : Event} (undisturbed : Undisturbed s event)
    (stepped : s.step event = some s') : ∃ scan free, s'.Sound scan free := by
  cases event with
  | create thread => exact sound.create undisturbed stepped
  | delete c =>
    simp only [Conns.step] at stepped
    split at stepped
    · next live =>
      cases stepped
      exact ⟨scan, free, sound.delete live⟩
    · cases stepped
  | scan =>
    cases stepped
    exact sound.scanStep undisturbed

end

theorem initial_linked (n left c : Nat) (sum : c + left = n) :
    Linked (initial n).next (if c < n then some c else none) (List.range' c left) := by
  induction left generalizing c with
  | zero => exact if_neg (by omega)
  | succ left ih =>
    refine ⟨if_pos (by omega), ?_⟩
    exact ih (c + 1) (by omega)

theorem initial_sound (n : Nat) : (initial n).Sound [] (List.range n) := by
  refine ⟨rfl, ?_, nodup_nil, nodup_range, ?_, ?_, ?_, fun _ => trivial, ?_, ?_, ?_, ?_⟩
  · rw [range_eq_range']
    exact initial_linked n n 0 (Nat.zero_add n)
  · intro c
    refine iff_of_false not_mem_nil ?_
    simp only [initial]
    split <;> decide
  · intro c
    rw [mem_range]
    simp only [initial]
    split
    · next below => exact iff_of_true below rfl
    · next above => exact iff_of_false above (by decide)
  · exact fun c member => nomatch member
  · exact fun _ _ _ holds => nomatch holds
  · exact fun c member => nomatch member
  · intro c removed
    simp only [initial] at removed
    split at removed <;> cases removed
  · exact fun c due => nomatch due

end Conns

/-- In every run of creations, deletions and one agent over an array of `n` connections, one access
at a time, whose steps are all undisturbed: the two lists are well linked, a connection is on the
scan list exactly if it was created and is not taken out, it is on the free list exactly if it is
free, and none is on a list twice; one that was taken out is being returned; and when the agent is
through, every connection that was deleted when it began is gone from the scan list. -/
theorem connections_kept (n : Nat) (events : List Event) (s : Conns)
    (meets : Meets Undisturbed Conns.step (.initial n) events)
    (reached : exec Conns.step (.initial n) events = some s) :
    ∃ scan free, Linked s.next s.lh scan ∧ Linked s.next s.fl free ∧
      scan.Nodup ∧ free.Nodup ∧
      (∀ c, s.life c = .live ∨ s.life c = .deleted ↔ c ∈ scan) ∧
      (∀ c, s.life c = .free ↔ c ∈ free) ∧
      (∀ c, s.life c = .removed → s.scanner.returns = some c) ∧
      (s.scanner = .idle → ∀ c ∈ scan, s.due c = false) := by
  have kept : ∀ state event after, (∃ scan free, Conns.Sound state scan free) →
      Undisturbed state event → Conns.step state event = some after →
      ∃ scan free, after.Sound scan free := by
    rintro state event after ⟨scan, free, sound⟩ undisturbed stepped
    exact sound.step undisturbed stepped
  obtain ⟨scan, free, sound⟩ :=
    exec_invariant kept ⟨[], List.range n, Conns.initial_sound n⟩ meets reached
  refine ⟨scan, free, sound.scanLinked, sound.freeLinked, sound.scanNodup, sound.freeNodup,
    fun c => (sound.scanned c).symm, fun c => (sound.freed c).symm, sound.removed, fun idle => ?_⟩
  have ok := sound.scanner
  rw [idle] at ok
  exact ok

def creation (thread : Nat) : List Event := List.replicate 8 (.create thread)

def returnedEvents : List Event := creation 0 ++ [.delete 0] ++ List.replicate 9 .scan

theorem connections_kept_returned :
    ∃ s, exec Conns.step (.initial 2) returnedEvents = some s ∧ s.life 0 = .free ∧
      ∃ scan free, Linked s.next s.lh scan ∧ Linked s.next s.fl free ∧ 0 ∈ free ∧ 0 ∉ scan := by
  have run : (exec Conns.step (.initial 2) returnedEvents).map (fun s => s.life 0) =
      some .free := by decide +kernel
  obtain ⟨s, reached, life⟩ := Option.map_eq_some_iff.mp run
  obtain ⟨scan, free, scanned, freed, _, _, inScan, inFree, _⟩ :=
    connections_kept 2 returnedEvents s (by decide +kernel) reached
  refine ⟨s, reached, life, scan, free, scanned, freed, (inFree 0).mp life, fun member => ?_⟩
  rw [← inScan 0, life] at member
  exact absurd member (by decide)

/-- The agent has read the head and the link of a deleted connection, and another connection is
created before it stores the link. -/
def lostEvents : List Event :=
  creation 0 ++ [.delete 0] ++ List.replicate 4 .scan ++ creation 1 ++ [.scan]

/-- The connection that was created meanwhile is on no list. -/
theorem connections_kept_lost :
    ∃ s, exec Conns.step (.initial 2) lostEvents = some s ∧ s.life 1 = .live ∧
      ¬∃ scan, Linked s.next s.lh scan ∧ 1 ∈ scan := by
  have run : (exec Conns.step (.initial 2) lostEvents).map (fun s => (s.life 1, s.lh)) =
      some (.live, none) := by decide +kernel
  obtain ⟨s, reached, seen⟩ := Option.map_eq_some_iff.mp run
  obtain ⟨life, head⟩ := Prod.mk.inj seen
  refine ⟨s, reached, life, ?_⟩
  rintro ⟨scan, linked, member⟩
  have first := linked.head?
  rw [head] at first
  rw [List.head?_eq_none_iff.mp first.symm] at member
  cases member

end Composite.Eos.Conn
