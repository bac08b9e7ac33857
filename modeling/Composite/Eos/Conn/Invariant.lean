import Composite.Eos.Conn.Model
import Composite.Lib.Links

/-!
# Where the connections are

The two lists hold the connections that should be on them, each thread that creates a connection
holds one of its own, and the agent stands between two parts of the scan list.
-/

namespace Composite.Eos.Conn

open Links Function

def Creating.holds : Creating → Option Nat
  | .init c | .push c | .pushNext c _ | .pushCas c _ => some c
  | _ => none

def Scanning.returns : Scanning → Option Nat
  | .collect _ c | .collectNext _ c _ | .collectCas _ c _ => some c
  | _ => none

def LinkAt : Link → List Nat → Prop
  | .head, _ => True
  | .next a, before => before.getLast? = some a

namespace Conns

def CreatorOk (s : Conns) : Creating → Prop
  | .init c => s.life c = .held
  | .push c | .pushNext c _ => s.life c = .held ∧ s.used c = true
  | .pushCas c t => s.life c = .held ∧ s.used c = true ∧ s.next c = t
  | _ => True

def Passed (s : Conns) (scan : List Nat) (p : Link) (after : List Nat) : Prop :=
  ∃ before, scan = before ++ after ∧ LinkAt p before ∧ ∀ c ∈ before, s.due c = false

def ScannerOk (s : Conns) (scan : List Nat) : Scanning → Prop
  | .idle => ∀ c ∈ scan, s.due c = false
  | .load p => ∃ after, s.Passed scan p after
  | .test p c => ∃ after, s.Passed scan p (c :: after)
  | .unlinkLoad p c => s.life c = .deleted ∧ ∃ after, s.Passed scan p (c :: after)
  | .unlinkStore p c n =>
    s.life c = .deleted ∧ n = s.next c ∧ ∃ after, s.Passed scan p (c :: after)
  | .collect p c | .collectNext p c _ => s.life c = .removed ∧ ∃ after, s.Passed scan p after
  | .collectCas p c t => s.life c = .removed ∧ s.next c = t ∧ ∃ after, s.Passed scan p after

/-- `scan` and `free` are the contents of the two lists. -/
structure Sound (s : Conns) (scan free : List Nat) : Prop where
  scanLinked : Linked s.next s.lh scan
  freeLinked : Linked s.next s.fl free
  scanNodup : scan.Nodup
  freeNodup : free.Nodup
  scanned : ∀ c, c ∈ scan ↔ s.life c = .live ∨ s.life c = .deleted
  freed : ∀ c, c ∈ free ↔ s.life c = .free
  used : ∀ c ∈ scan, (s.used c = true ↔ s.life c = .live)
  creators : ∀ thread, s.CreatorOk (s.creator thread)
  owners : ∀ thread other c, (s.creator thread).holds = some c →
    (s.creator other).holds = some c → thread = other
  scanner : s.ScannerOk scan s.scanner
  removed : ∀ c, s.life c = .removed → s.scanner.returns = some c
  dueDeleted : ∀ c, s.due c = true → s.life c = .deleted

variable {s : Conns} {scan free : List Nat} {place : Creating} {c : Nat} {s' : Conns}

theorem CreatorOk.held (ok : s.CreatorOk place) (holds : place.holds = some c) :
    s.life c = .held := by
  cases place with
  | init c' =>
    cases holds
    exact ok
  | push c' | pushNext c' t | pushCas c' t =>
    cases holds
    exact ok.1
  | idle | pop | popNext | popCas => cases holds

/-- A creation looks at its own connection only. -/
theorem CreatorOk.frame (ok : s.CreatorOk place)
    (same : ∀ c, place.holds = some c →
      s'.life c = s.life c ∧ s'.used c = s.used c ∧ s'.next c = s.next c) : s'.CreatorOk place := by
  cases place with
  | init c => exact (same c rfl).1.trans ok
  | push c | pushNext c t =>
    obtain ⟨life, used, _⟩ := same c rfl
    exact ⟨life.trans ok.1, used.trans ok.2⟩
  | pushCas c t =>
    obtain ⟨life, used, next⟩ := same c rfl
    exact ⟨life.trans ok.1, used.trans ok.2.1, next.trans ok.2.2⟩
  | idle | pop | popNext | popCas => trivial

theorem Passed.frame {p : Link} {after : List Nat} (passed : s.Passed scan p after)
    (due : s'.due = s.due) : s'.Passed scan p after := by
  obtain ⟨before, split, link, clean⟩ := passed
  exact ⟨before, split, link, fun c member => by rw [due]; exact clean c member⟩

/-- The agent looks at the connections that nobody is creating. -/
theorem ScannerOk.map {scan' : List Nat} {place : Scanning} (ok : s.ScannerOk scan place)
    (clean : (∀ c ∈ scan, s.due c = false) → ∀ c ∈ scan', s'.due c = false)
    (passes : ∀ p after, s.Passed scan p after → s'.Passed scan' p after)
    (life : ∀ c, s.life c = .deleted ∨ s.life c = .removed →
      s'.life c = s.life c ∧ s'.next c = s.next c) : s'.ScannerOk scan' place := by
  cases place with
  | idle => exact clean ok
  | load p | test p c =>
    obtain ⟨after, passed⟩ := ok
    exact ⟨after, passes _ _ passed⟩
  | unlinkLoad p c =>
    obtain ⟨deleted, after, passed⟩ := ok
    exact ⟨(life c (.inl deleted)).1.trans deleted, after, passes _ _ passed⟩
  | unlinkStore p c n =>
    obtain ⟨deleted, link, after, passed⟩ := ok
    obtain ⟨same, next⟩ := life c (.inl deleted)
    exact ⟨same.trans deleted, link.trans next.symm, after, passes _ _ passed⟩
  | collect p c | collectNext p c t =>
    obtain ⟨gone, after, passed⟩ := ok
    exact ⟨(life c (.inr gone)).1.trans gone, after, passes _ _ passed⟩
  | collectCas p c t =>
    obtain ⟨gone, link, after, passed⟩ := ok
    obtain ⟨same, next⟩ := life c (.inr gone)
    exact ⟨same.trans gone, next.trans link, after, passes _ _ passed⟩

theorem ScannerOk.frame {place : Scanning} (ok : s.ScannerOk scan place) (due : s'.due = s.due)
    (life : ∀ c, s.life c = .deleted ∨ s.life c = .removed →
      s'.life c = s.life c ∧ s'.next c = s.next c) : s'.ScannerOk scan place :=
  ok.map (due ▸ id) (fun _ _ passed => passed.frame due) life

@[elab_as_elim]
theorem forall_setLife {motive : Nat → Life → Prop} {life : Life} (own : motive c life)
    (others : ∀ x, x ≠ c → motive x (s.life x)) (x : Nat) :
    motive x ((s.setLife c life).life x) := by
  by_cases same : x = c
  · subst same
    simpa only [setLife, update_self] using own
  · simpa only [setLife, update_of_ne same] using others x same

section

variable (sound : s.Sound scan free)

include sound

theorem Sound.not_scanned (live : s.life c ≠ .live) (deleted : s.life c ≠ .deleted) : c ∉ scan :=
  fun member => ((sound.scanned c).mp member).elim live deleted

theorem Sound.not_freed (life : s.life c ≠ .free) :
    c ∉ free := fun member => life ((sound.freed c).mp member)

theorem Sound.setCreator {thread : Nat} (ok : s.CreatorOk place)
    (own : ∀ other c, other ≠ thread → place.holds = some c → (s.creator other).holds ≠ some c) :
    (s.setCreator thread place).Sound scan free := by
  refine { sound with creators := ?_, owners := ?_, scanner := ?_ }
  · intro other
    by_cases same : other = thread
    · subst same
      simp only [Conns.setCreator, update_self]
      exact ok
    · simp only [Conns.setCreator, update_of_ne same]
      exact sound.creators other
  · intro first second c holds holds'
    simp only [Conns.setCreator, update_apply] at holds holds'
    split at holds
    · next same =>
      split at holds'
      · next same' => rw [same, same']
      · next other => exact absurd holds' (own second c other holds)
    · next other =>
      split at holds'
      · exact absurd holds (own first c other holds')
      · exact sound.owners first second c holds holds'
  · exact sound.scanner.frame rfl fun _ _ => ⟨rfl, rfl⟩

theorem Sound.setCreator_same {thread : Nat} (ok : s.CreatorOk place)
    (same : ∀ c, place.holds = some c → (s.creator thread).holds = some c) :
    (s.setCreator thread place).Sound scan free :=
  sound.setCreator ok fun other c apart holds held =>
    apart (sound.owners other thread c held (same c holds))

theorem Sound.writeHeld (heads : s'.lh = s.lh ∧ s'.fl = s.fl)
    (places : s'.creator = s.creator ∧ s'.scanner = s.scanner)
    (ghosts : s'.life = s.life ∧ s'.due = s.due)
    (rest : ∀ c, s.life c ≠ .held → s'.next c = s.next c ∧ s'.used c = s.used c)
    (creators : ∀ thread, s'.CreatorOk (s.creator thread)) : s'.Sound scan free := by
  obtain ⟨lh, fl⟩ := heads
  obtain ⟨creator, scanner⟩ := places
  obtain ⟨life, due⟩ := ghosts
  have scanned : ∀ c ∈ scan, s.life c ≠ .held := by
    intro c member held
    rcases (sound.scanned c).mp member with live | deleted
    · rw [held] at live
      cases live
    · rw [held] at deleted
      cases deleted
  have freed : ∀ c ∈ free, s.life c ≠ .held := by
    intro c member held
    have free := (sound.freed c).mp member
    rw [held] at free
    cases free
  constructor
  · rw [lh]
    exact sound.scanLinked.congr fun c member => (rest c (scanned c member)).1
  · rw [fl]
    exact sound.freeLinked.congr fun c member => (rest c (freed c member)).1
  · exact sound.scanNodup
  · exact sound.freeNodup
  · rw [life]
    exact sound.scanned
  · rw [life]
    exact sound.freed
  · intro c member
    rw [(rest c (scanned c member)).2, life]
    exact sound.used c member
  · rw [creator]
    exact creators
  · rw [creator]
    exact sound.owners
  · rw [scanner]
    refine sound.scanner.frame due fun c gone => ⟨by rw [life], (rest c ?_).1⟩
    intro held
    rw [held] at gone
    rcases gone with deleted | removed
    · cases deleted
    · cases removed
  · rw [life, scanner]
    exact sound.removed
  · rw [life, due]
    exact sound.dueDeleted

end

end Conns

end Composite.Eos.Conn
