import Composite.Lib.Transition

/-!
# Lists of connections

The memory-copy agent goes through a list of connections over and over; others create connections
and delete them.  The connections come from an array, and a second list holds those that are free.
A creation takes one from the free list and puts it in front of the other one, both with a
compare-and-swap.  The agent is the only one that takes connections out, with a plain store
through the link that led it to the connection, and it returns them to the free list.

The rings of the transmitter are kept in the same way, by `ninf_tx_add_ring`,
`ninf_tx_del_ring` and `ninf_tx_scan`.  Each step below is one load, one store or one
compare-and-swap; `none` is a failed assertion, or a step that is not possible.
-/

namespace Composite.Eos.Conn

/-- What happened to a connection: it is outside the array, it is free, a creation has taken it,
it is created, it is deleted, or the agent has taken it out of its list. -/
inductive Life where
  | absent
  | free
  | held
  | live
  | deleted
  | removed
  deriving DecidableEq, Repr

/-- A `struct mca_conn **`: the head of the scan list, or the link of a connection. -/
inductive Link where
  | head
  | next (c : Nat)
  deriving DecidableEq, Repr

/-- Where a thread is in `mca_conn_create`. -/
inductive Creating where
  | idle
  /-- `mca_conn_alloc` loads the head of the free list. -/
  | pop
  | popNext (r : Nat)
  | popCas (r : Nat) (t : Option Nat)
  /-- The fields are set. -/
  | init (c : Nat)
  /-- `mca_push_l` loads the head of the scan list. -/
  | push (c : Nat)
  | pushNext (c : Nat) (t : Option Nat)
  | pushCas (c : Nat) (t : Option Nat)
  deriving DecidableEq, Repr

/-- Where the agent is in `mca_scan`. -/
inductive Scanning where
  | idle
  /-- `c = *p`. -/
  | load (p : Link)
  | test (p : Link) (c : Nat)
  /-- `*p = c->next` loads the link, and then stores it. -/
  | unlinkLoad (p : Link) (c : Nat)
  | unlinkStore (p : Link) (c : Nat) (n : Option Nat)
  /-- `mca_conn_collect` loads the head of the free list. -/
  | collect (p : Link) (c : Nat)
  | collectNext (p : Link) (c : Nat) (t : Option Nat)
  | collectCas (p : Link) (c : Nat) (t : Option Nat)
  deriving DecidableEq, Repr

/-- The array, the two lists, where the threads and the agent are, what happened to each
connection, and which ones were deleted when the agent last began to scan. -/
structure Conns where
  next : Nat → Option Nat
  used : Nat → Bool
  lh : Option Nat
  fl : Option Nat
  creator : Nat → Creating
  scanner : Scanning
  life : Nat → Life
  due : Nat → Bool

inductive Event where
  /-- The next step of a thread in `mca_conn_create`. -/
  | create (thread : Nat)
  /-- `mca_conn_free`. -/
  | delete (c : Nat)
  /-- The next step of the agent. -/
  | scan

namespace Conns

/-- What `mca_init` leaves of an array of `n` connections. -/
def initial (n : Nat) : Conns where
  next c := if c + 1 < n then some (c + 1) else none
  used _ := false
  lh := none
  fl := if 0 < n then some 0 else none
  creator _ := .idle
  scanner := .idle
  life c := if c < n then .free else .absent
  due _ := false

def setNext (s : Conns) (c : Nat) (link : Option Nat) : Conns :=
  { s with next := Function.update s.next c link }

def setLife (s : Conns) (c : Nat) (life : Life) : Conns :=
  { s with life := Function.update s.life c life }

def setCreator (s : Conns) (thread : Nat) (place : Creating) : Conns :=
  { s with creator := Function.update s.creator thread place }

def store (s : Conns) (p : Link) (link : Option Nat) : Conns :=
  match p with
  | .head => { s with lh := link }
  | .next c => s.setNext c link

def load (s : Conns) : Link → Option Nat
  | .head => s.lh
  | .next c => s.next c

/-- A step of `mca_conn_create`. -/
def create (s : Conns) (thread : Nat) : Option Conns :=
  match s.creator thread with
  | .idle => if s.fl = none then none else some (s.setCreator thread .pop)
  | .pop =>
    match s.fl with
    | none => none
    | some r => some (s.setCreator thread (.popNext r))
  | .popNext r => some (s.setCreator thread (.popCas r (s.next r)))
  | .popCas r t =>
    if s.fl = some r then some (({ s with fl := t }.setLife r .held).setCreator thread (.init r))
    else some (s.setCreator thread .pop)
  | .init c =>
    some ({ s with used := Function.update s.used c true }.setCreator thread (.push c))
  | .push c => some (s.setCreator thread (.pushNext c s.lh))
  | .pushNext c t => some ((s.setNext c t).setCreator thread (.pushCas c t))
  | .pushCas c t =>
    if s.lh = t then some (({ s with lh := some c }.setLife c .live).setCreator thread .idle)
    else some (s.setCreator thread (.push c))

/-- A step of `mca_scan`. -/
def scan (s : Conns) : Conns :=
  match s.scanner with
  | .idle => { s with scanner := .load .head, due := fun c => s.life c = .deleted }
  | .load p =>
    match s.load p with
    | none => { s with scanner := .idle }
    | some c => { s with scanner := .test p c }
  | .test p c =>
    if s.used c then { s with scanner := .load (.next c) } else
      { s with scanner := .unlinkLoad p c }
  | .unlinkLoad p c => { s with scanner := .unlinkStore p c (s.next c) }
  | .unlinkStore p c n =>
    { (s.store p n).setLife c .removed with
      scanner := .collect p c
      due := Function.update s.due c false }
  | .collect p c => { s with scanner := .collectNext p c s.fl }
  | .collectNext p c t => { s.setNext c t with scanner := .collectCas p c t }
  | .collectCas p c t =>
    if s.fl = t then { { s with fl := some c }.setLife c .free with scanner := .load p }
    else { s with scanner := .collect p c }

def step (s : Conns) : Event → Option Conns
  | .create thread => s.create thread
  | .delete c =>
    if s.life c = .live then
      some ({ s with used := Function.update s.used c false }.setLife c .deleted)
    else none
  | .scan => some s.scan

end Conns

/-- No connection was put in front since the agent loaded the head that it now overwrites, and
nobody has taken a free connection and returned it since its link was read. -/
def Undisturbed (s : Conns) : Event → Prop
  | .create thread =>
    match s.creator thread with
    | .popCas r t => s.fl = some r → s.next r = t
    | _ => True
  | .scan =>
    match s.scanner with
    | .unlinkStore .head c _ => s.lh = some c
    | _ => True
  | .delete _ => True

instance (s : Conns) (event : Event) : Decidable (Undisturbed s event) := by
  unfold Undisturbed
  cases event with
  | create thread => simp only; split <;> infer_instance
  | delete c => infer_instance
  | scan => simp only; split <;> infer_instance

end Composite.Eos.Conn
