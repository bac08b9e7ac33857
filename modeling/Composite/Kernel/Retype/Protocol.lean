import Composite.Lib.Transition
import Composite.Kernel.Retype.Table

/-!
# Retyping one memory set from several cores

The functions of `retype_tbl.c` on one memory set, cut at their accesses to
shared memory: a step of a core is one load, one store or one
compare-and-swap.  Between two steps of one core the other cores, the clock and
the TLB flushes may do anything.  A core runs one call at a time.
-/

namespace Composite.RetypeProtocol

/-- Where a core stands inside a call, with the local variables still needed.
`refLoad`, `refStamp` and `refCas` belong to `mod_ref_cnt`, the `retype`
constructors to `mod_mem_type` and the `frame` constructors to
`retypetbl_retype2frame`. -/
inductive Pc where
  | idle
  | returned (ret : Int)
  | died
  | refLoad (op : Bool) (typeCheck : Option MemType)
  | refStamp (old : RefcntAtom)
  | refCas (op : Bool) (old : RefcntAtom) (stamp : Nat)
  | retypeRead (type : MemType) (accessible : Bool)
  | retypeCas (type : MemType)
  | retypeWrite (type : MemType) (i : Nat)
  | frameRead
  | frameLock (oldType : MemType)
  | frameLoad (oldType : MemType) (cpu : Nat) (refSum : Int) (lastUnmap : Nat)
  | frameCas (oldType : MemType) (cpu : Nat) (refSum : Int) (lastUnmap : Nat) (old : RefcntAtom)
  | frameUnmap (oldType : MemType) (cpu : Nat) (refSum : Int) (lastUnmap : Nat)
  | frameClearCnt (cpu : Nat)
  | frameClearType (cpu : Nat)
  | frameRestore (oldType : MemType) (cpu : Nat) (ret : Int)
  | frameRestoreCas (oldType : MemType) (cpu : Nat) (old : RefcntAtom) (ret : Int)
  deriving DecidableEq, Repr

structure Machine where
  glbType : MemType
  entries : Nat → RetypeEntry
  tlb : Nat → TlbQuiescence
  tsc : Nat
  pc : Nat → Pc

/-- The calls on the set.  For `retype2kern` the flag says whether `chal_pa2va`
gives an address for the page. -/
inductive Call where
  | retype2user
  | retype2kern (accessible : Bool)
  | retype2frame
  | kernRef
  | ref
  | deref
  deriving DecidableEq, Repr

def Call.start : Call → Pc
  | .retype2user => .retypeRead .user true
  | .retype2kern accessible => .retypeRead .kern accessible
  | .retype2frame => .frameRead
  | .kernRef => .refLoad true (some .kern)
  | .ref => .refLoad true none
  | .deref => .refLoad false none

namespace Machine

def atom (m : Machine) (cpu : Nat) : RefcntAtom := (m.entries cpu).refcntAtom

def goto (m : Machine) (cpu : Nat) (pc : Pc) : Machine :=
  { m with pc := Function.update m.pc cpu pc }

def setGlb (m : Machine) (type : MemType) : Machine := { m with glbType := type }

def setEntry (m : Machine) (cpu : Nat) (entry : RetypeEntry) : Machine :=
  { m with entries := Function.update m.entries cpu entry }

/-- The next shared-memory access of core `c`. -/
def instr (m : Machine) (c : Nat) : Option Machine :=
  match m.pc c with
  | .idle | .returned _ | .died => none
  | .refLoad op typeCheck =>
    let old := m.atom c
    some <| m.goto c <|
      if old.type ≠ .user ∧ old.type ≠ .kern then .returned (-Errno.eperm)
      else if typeCheck.any (· ≠ old.type) then .returned (-Errno.eperm)
      else if old.refCnt = retypeRefcntMax then .returned (-Errno.eoverflow)
      else if op then .refCas true old 0 else .refStamp old
  | .refStamp old =>
    some <| (m.setEntry c { m.entries c with lastUnmap := m.tsc }).goto c (.refCas false old m.tsc)
  | .refCas op old _ =>
    if m.atom c = old then
      some <| (m.setEntry c ((m.entries c).setRefCnt
        (refcntField (if op then old.refCnt + 1 else old.refCnt - 1)))).goto c (.returned 0)
    else some <| m.goto c (.returned (-Errno.ecasfail))
  | .retypeRead type accessible =>
    some <| m.goto c <|
      if m.glbType ≠ .untyped then
        if m.glbType = type then .returned (-Errno.eexist) else .returned (-Errno.eperm)
      else if type = .kern ∧ ¬accessible then .returned (-Errno.einval)
      else .retypeCas type
  | .retypeCas type =>
    if m.glbType = .untyped then some <| (m.setGlb .retyping).goto c (.retypeWrite type 0)
    else some <| m.goto c (.returned (-Errno.ecasfail))
  | .retypeWrite type i =>
    if i < numCpu then
      some <| (m.setEntry i ((m.entries i).setType type)).goto c (.retypeWrite type (i + 1))
    else if m.glbType = .retyping then some <| (m.setGlb type).goto c (.returned 0)
    else some <| m.goto c .died
  | .frameRead =>
    some <| m.goto c <|
      if m.glbType ≠ .user ∧ m.glbType ≠ .kern then .returned (-Errno.eperm)
      else .frameLock m.glbType
  | .frameLock oldType =>
    if m.glbType = oldType then some <| (m.setGlb .retyping).goto c (.frameLoad oldType 0 0 0)
    else some <| m.goto c (.returned 0)
  | .frameLoad oldType cpu refSum lastUnmap =>
    some <| m.goto c <|
      if cpu < numCpu then
        if (m.atom cpu).type ≠ oldType ∧ (m.atom cpu).type ≠ .retyping then .died
        else .frameCas oldType cpu refSum lastUnmap (m.atom cpu)
      else if refSum ≠ 0 then .frameRestore oldType cpu (-Errno.einval)
      else if ¬tlbQuiescenceCheck m.tlb c lastUnmap then
        .frameRestore oldType cpu (-Errno.equiescence)
      else .frameClearCnt 0
  | .frameCas oldType cpu refSum lastUnmap old =>
    if m.atom cpu = old then
      some <| (m.setEntry cpu ((m.entries cpu).setType .retyping)).goto c
        (.frameUnmap oldType cpu (refSum + old.refCnt) lastUnmap)
    else some <| m.goto c (.frameRestore oldType cpu (-Errno.ecasfail))
  | .frameUnmap oldType cpu refSum lastUnmap =>
    some <| m.goto c <| .frameLoad oldType (cpu + 1) refSum
      (if lastUnmap < (m.entries cpu).lastUnmap then (m.entries cpu).lastUnmap else lastUnmap)
  | .frameClearCnt cpu =>
    if cpu < numCpu then
      some <| (m.setEntry cpu ((m.entries cpu).setRefCnt 0)).goto c (.frameClearType cpu)
    else if m.glbType = .retyping then some <| (m.setGlb .untyped).goto c (.returned 0)
    else some <| m.goto c .died
  | .frameClearType cpu =>
    some <| (m.setEntry cpu ((m.entries cpu).setType .untyped)).goto c (.frameClearCnt (cpu + 1))
  | .frameRestore oldType (cpu + 1) ret =>
    some <| m.goto c (.frameRestoreCas oldType cpu (m.atom cpu) ret)
  | .frameRestore oldType 0 ret =>
    if m.glbType = .retyping then some <| (m.setGlb oldType).goto c (.returned ret)
    else some <| m.goto c .died
  | .frameRestoreCas oldType cpu old ret =>
    if m.atom cpu = old then
      some <| (m.setEntry cpu ((m.entries cpu).setType oldType)).goto c
        (.frameRestore oldType cpu ret)
    else some <| m.goto c (.frameRestore oldType cpu ret)

end Machine

/-- What can happen next: a core starts a call or takes a step, the clock
advances, or a core records a TLB flush with the time read before flushing. -/
inductive Event where
  | call (cpu : Nat) (call : Call)
  | step (cpu : Nat)
  | tick
  | periodicFlush (cpu time : Nat)
  | mandatoryFlush (cpu time : Nat)
  deriving DecidableEq, Repr

def Pc.free : Pc → Bool
  | .idle | .returned _ => true
  | _ => false

def next (m : Machine) : Event → Option Machine
  | .call c call => if c < numCpu ∧ (m.pc c).free then some (m.goto c call.start) else none
  | .step c => if c < numCpu then m.instr c else none
  | .tick => some { m with tsc := m.tsc + 1 }
  | .periodicFlush c time =>
    if (m.tlb c).lastPeriodicFlush ≤ time ∧ time ≤ m.tsc then
      some { m with tlb := Function.update m.tlb c { m.tlb c with lastPeriodicFlush := time } }
    else none
  | .mandatoryFlush c time =>
    if (m.tlb c).lastMandatoryFlush ≤ time ∧ time ≤ m.tsc then
      some { m with tlb := Function.update m.tlb c { m.tlb c with lastMandatoryFlush := time } }
    else none

/-- The table as `retype_tbl_init` leaves it, at any time and with any flush records. -/
def boot (tlb : Nat → TlbQuiescence) (tsc : Nat) : Machine where
  glbType := .untyped
  entries := fun _ => ⟨⟨.untyped, 0⟩, 0⟩
  tlb := tlb
  tsc := tsc
  pc := fun _ => .idle

end Composite.RetypeProtocol
