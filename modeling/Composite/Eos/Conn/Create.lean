import Composite.Eos.Conn.Invariant

/-!
# Creating and deleting connections

A creation takes a connection from the free list, as long as the link that it read is still there
then, and puts it in front of the scan list.  A deletion only marks it.
-/

namespace Composite.Eos.Conn

open Links Function Option List

namespace Conns

variable {s s' : Conns} {scan free : List Nat} {c : Nat}

/-- A free connection goes to the thread that takes it. -/
theorem Sound.take (sound : s.Sound scan free) {r : Nat} {t : Option Nat} {rest : List Nat}
    (list : free = r :: rest) (link : s.next r = t) :
    ({ s with fl := t }.setLife r .held).Sound scan rest := by
  subst list
  have nodup := nodup_cons.mp sound.freeNodup
  have isFree : s.life r = .free := (sound.freed r).mp (mem_cons_self ..)
  have other : ∀ c, s.life c ≠ .free → c ≠ r := by
    rintro c life rfl
    exact life isFree
  have kept : ∀ c, s.life c ≠ .free → update s.life r .held c = s.life c :=
    fun c life => update_of_ne (other c life) ..
  have scanned : ∀ c ∈ scan, c ≠ r := by
    rintro c member rfl
    exact sound.not_scanned (by rw [isFree]; decide) (by rw [isFree]; decide) member
  refine ⟨sound.scanLinked, link ▸ sound.freeLinked.2, sound.scanNodup, nodup.2, ?_, ?_, ?_, ?_,
    sound.owners, ?_, ?_, ?_⟩
  · intro c
    refine forall_setLife ?_ (fun c same => ?_) c
    · exact iff_of_false (fun member => scanned r member rfl) (by decide)
    · exact sound.scanned c
  · intro c
    refine forall_setLife ?_ (fun c same => ?_) c
    · exact iff_of_false nodup.1 (by decide)
    · rw [← sound.freed c, mem_cons]
      exact ⟨.inr, fun member => member.resolve_left same⟩
  · intro c member
    simp only [setLife, update_of_ne (scanned c member)]
    exact sound.used c member
  · intro thread
    refine (sound.creators thread).frame fun c holds => ⟨kept c ?_, rfl, rfl⟩
    rw [(sound.creators thread).held holds]
    decide
  · refine sound.scanner.frame rfl fun c gone => ⟨kept c ?_, rfl⟩
    rcases gone with life | life <;> rw [life] <;> decide
  · intro c
    exact forall_setLife (by simp) (fun c _ => sound.removed c) c
  · intro c due
    have deleted := sound.dueDeleted c due
    exact (kept c (by rw [deleted]; decide)).trans deleted

theorem Passed.push {p : Link} {after : List Nat} (passed : s.Passed scan p after)
    (clean : s.due c = false) (due : s'.due = s.due) : s'.Passed (c :: scan) p after := by
  obtain ⟨before, split, link, cleanBefore⟩ := passed
  refine ⟨c :: before, by rw [split]; rfl, ?_, ?_⟩
  · cases p with
    | head => trivial
    | next a =>
      have last : before.getLast? = some a := link
      show (c :: before).getLast? = some a
      rw [List.getLast?_cons, last]
      rfl
  · rw [due]
    exact forall_mem_cons.mpr ⟨clean, cleanBefore⟩

theorem ScannerOk.push {place : Scanning} (ok : s.ScannerOk scan place) (clean : s.due c = false)
    (due : s'.due = s.due)
    (life : ∀ c, s.life c = .deleted ∨ s.life c = .removed →
      s'.life c = s.life c ∧ s'.next c = s.next c) : s'.ScannerOk (c :: scan) place := by
  refine ok.map (fun cleanBefore => ?_) (fun _ _ passed => passed.push clean due) life
  rw [due]
  exact forall_mem_cons.mpr ⟨clean, cleanBefore⟩

theorem Sound.insert (sound : s.Sound scan free) (held : s.life c = .held)
    (used : s.used c = true) (link : s.next c = s.lh)
    (unheld : ∀ thread, (s.creator thread).holds ≠ some c) :
    ({ s with lh := some c }.setLife c .live).Sound (c :: scan) free := by
  have other : ∀ x, s.life x ≠ .held → x ≠ c := by
    rintro x life rfl
    exact life held
  have kept : ∀ x, s.life x ≠ .held → update s.life c .live x = s.life x :=
    fun x life => update_of_ne (other x life) ..
  have outside : c ∉ scan := sound.not_scanned (by rw [held]; decide) (by rw [held]; decide)
  have clean : s.due c = false := by
    cases due : s.due c with
    | false => rfl
    | true =>
      have deleted := sound.dueDeleted c due
      rw [held] at deleted
      cases deleted
  refine ⟨⟨rfl, link ▸ sound.scanLinked⟩, sound.freeLinked,
    nodup_cons.mpr ⟨outside, sound.scanNodup⟩, sound.freeNodup, ?_, ?_, ?_, ?_, sound.owners,
    ?_, ?_, ?_⟩
  · intro x
    refine forall_setLife ?_ (fun x same => ?_) x
    · exact iff_of_true (mem_cons_self ..) (.inl rfl)
    · rw [← sound.scanned x, mem_cons]
      exact ⟨fun member => member.resolve_left same, .inr⟩
  · intro x
    refine forall_setLife ?_ (fun x same => ?_) x
    · exact iff_of_false (sound.not_freed (by rw [held]; decide)) (by decide)
    · exact sound.freed x
  · intro x member
    by_cases same : x = c
    · subst same
      simp only [setLife, update_self]
      exact iff_of_true used trivial
    · simp only [setLife, update_of_ne same]
      exact sound.used x ((mem_cons.mp member).resolve_left same)
  · intro thread
    refine (sound.creators thread).frame fun x holds => ⟨update_of_ne ?_ .., rfl, rfl⟩
    rintro rfl
    exact unheld thread holds
  · refine sound.scanner.push clean rfl fun x gone => ⟨kept x ?_, rfl⟩
    rcases gone with life | life <;> rw [life] <;> decide
  · intro x
    exact forall_setLife (by simp) (fun x _ => sound.removed x) x
  · intro x due
    have deleted := sound.dueDeleted x due
    exact (kept x (by rw [deleted]; decide)).trans deleted

/-- The steps of a creation. -/
theorem Sound.create (sound : s.Sound scan free) {thread : Nat}
    (undisturbed : Undisturbed s (.create thread)) (stepped : s.create thread = some s') :
    ∃ scan free, s'.Sound scan free := by
  have ok := sound.creators thread
  have owned := sound.owners thread
  unfold Conns.create at stepped
  cases place : s.creator thread with
  | idle =>
    simp only [place] at stepped
    split at stepped
    · cases stepped
    · cases stepped
      exact ⟨scan, free, sound.setCreator_same trivial fun c holds => nomatch holds⟩
  | pop =>
    simp only [place] at stepped
    split at stepped
    · cases stepped
    · cases stepped
      exact ⟨scan, free, sound.setCreator_same trivial fun c holds => nomatch holds⟩
  | popNext r =>
    simp only [place, some.injEq] at stepped
    subst stepped
    exact ⟨scan, free, sound.setCreator_same trivial fun c holds => nomatch holds⟩
  | popCas r t =>
    simp only [place] at stepped
    split at stepped
    · next head =>
      cases stepped
      have link : s.next r = t := by
        simp only [Undisturbed, place] at undisturbed
        exact undisturbed head
      cases list : free with
      | nil =>
        have none := list ▸ sound.freeLinked
        rw [head] at none
        cases none
      | cons first rest =>
        have first_eq : first = r := by
          have linked := list ▸ sound.freeLinked
          exact some.inj (linked.1.symm.trans head)
        subst first_eq
        refine ⟨scan, rest, (sound.take list link).setCreator ?_ ?_⟩
        · exact update_self ..
        · intro other c _ holds held
          cases holds
          have life := (sound.creators other).held held
          have isFree := (sound.freed first).mp (list ▸ mem_cons_self ..)
          rw [isFree] at life
          cases life
    · cases stepped
      exact ⟨scan, free, sound.setCreator_same trivial fun c holds => nomatch holds⟩
  | init c =>
    simp only [place, some.injEq] at stepped
    subst stepped
    rw [place] at ok owned
    have held : s.life c = .held := ok
    have written : { s with used := update s.used c true }.Sound scan free := by
      refine sound.writeHeld ⟨rfl, rfl⟩ ⟨rfl, rfl⟩ ⟨rfl, rfl⟩ (fun x free => ⟨rfl, ?_⟩) fun other =>
        ?_
      · refine update_of_ne ?_ ..
        rintro rfl
        exact free held
      · by_cases same : other = thread
        · subst same
          rw [place]
          exact held
        · refine (sound.creators other).frame fun x holds => ⟨rfl, update_of_ne ?_ .., rfl⟩
          rintro rfl
          exact same (owned other x rfl holds).symm
    refine ⟨scan, free, written.setCreator_same ⟨held, update_self ..⟩ fun x holds => ?_⟩
    rw [place]
    exact holds
  | push c =>
    simp only [place, some.injEq] at stepped
    subst stepped
    rw [place] at ok
    refine ⟨scan, free, sound.setCreator_same ok fun x holds => ?_⟩
    rw [place]
    exact holds
  | pushNext c t =>
    simp only [place, some.injEq] at stepped
    subst stepped
    rw [place] at ok owned
    obtain ⟨held, used⟩ : s.life c = .held ∧ s.used c = true := ok
    have written : (s.setNext c t).Sound scan free := by
      refine sound.writeHeld ⟨rfl, rfl⟩ ⟨rfl, rfl⟩ ⟨rfl, rfl⟩ (fun x free => ⟨?_, rfl⟩) fun other =>
        ?_
      · refine update_of_ne ?_ ..
        rintro rfl
        exact free held
      · by_cases same : other = thread
        · subst same
          rw [place]
          exact ⟨held, used⟩
        · refine (sound.creators other).frame fun x holds => ⟨rfl, rfl, update_of_ne ?_ ..⟩
          rintro rfl
          exact same (owned other x rfl holds).symm
    refine ⟨scan, free, written.setCreator_same ⟨held, used, update_self ..⟩ fun x holds => ?_⟩
    rw [show (s.setNext c t).creator thread = s.creator thread from rfl, place]
    exact holds
  | pushCas c t =>
    simp only [place] at stepped
    rw [place] at ok owned
    obtain ⟨held, used, link⟩ : s.life c = .held ∧ s.used c = true ∧ s.next c = t := ok
    split at stepped
    · next head =>
      cases stepped
      -- the thread lets go of the connection, which then comes to the front
      have released : (s.setCreator thread .idle).Sound scan free :=
        sound.setCreator_same trivial fun x holds => nomatch holds
      refine ⟨c :: scan, free, released.insert held used (link.trans head.symm) fun other holds =>
        ?_⟩
      by_cases same : other = thread
      · subst same
        simp only [Conns.setCreator, update_self] at holds
        cases holds
      · simp only [Conns.setCreator, update_of_ne same] at holds
        exact same (owned other c rfl holds).symm
    · cases stepped
      refine ⟨scan, free, sound.setCreator_same ⟨held, used⟩ fun x holds => ?_⟩
      rw [place]
      exact holds

theorem Sound.delete (sound : s.Sound scan free) (live : s.life c = .live) :
    ({ s with used := update s.used c false }.setLife c .deleted).Sound scan free := by
  have kept : ∀ x, s.life x ≠ .live → update s.life c .deleted x = s.life x := by
    intro x life
    refine update_of_ne ?_ ..
    rintro rfl
    exact life live
  have unused : ∀ x, s.life x ≠ .live → update s.used c false x = s.used x := by
    intro x life
    refine update_of_ne ?_ ..
    rintro rfl
    exact life live
  refine ⟨sound.scanLinked, sound.freeLinked, sound.scanNodup, sound.freeNodup, ?_, ?_, ?_, ?_,
    sound.owners, ?_, ?_, ?_⟩
  · intro x
    refine forall_setLife ?_ (fun x same => ?_) x
    · exact iff_of_true ((sound.scanned c).mpr (.inl live)) (.inr rfl)
    · exact sound.scanned x
  · intro x
    refine forall_setLife ?_ (fun x same => ?_) x
    · exact iff_of_false (sound.not_freed (by rw [live]; decide)) (by decide)
    · exact sound.freed x
  · intro x member
    by_cases same : x = c
    · subst same
      simp only [setLife, update_self]
      exact iff_of_false (by decide) (by decide)
    · simp only [setLife, update_of_ne same]
      exact sound.used x member
  · intro thread
    refine (sound.creators thread).frame fun x holds => ?_
    have held := (sound.creators thread).held holds
    exact ⟨kept x (by rw [held]; decide), unused x (by rw [held]; decide), rfl⟩
  · refine sound.scanner.frame rfl fun x gone => ⟨kept x ?_, rfl⟩
    rcases gone with life | life <;> rw [life] <;> decide
  · intro x
    exact forall_setLife (by simp) (fun x _ => sound.removed x) x
  · intro x due
    have deleted := sound.dueDeleted x due
    exact (kept x (by rw [deleted]; decide)).trans deleted

end Conns

end Composite.Eos.Conn
