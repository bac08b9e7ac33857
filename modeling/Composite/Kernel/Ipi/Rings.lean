import Composite.Kernel.Config
import Composite.Lib.Transition
import Composite.Lib.Window

/-!
# Notifications between CPUs

A CPU that sends to a receive end-point of another CPU puts a notification into the ring
that the two CPUs share and raises an interrupt there.  The sender writes only the index
`sender`, the receiver only the index `receiver`, and neither takes a lock.  The steps here
are single accesses to the shared ring, so that every interleaving of the two is a run.
-/

namespace Composite

def ipiRingSize : Nat := 16

def ipiRingMask : Nat := ipiRingSize - 1

variable {CompInfo : Type}

structure IpiCapData (CompInfo : Type) where
  arcvCapid : Nat
  arcvEpoch : Nat
  compInfo : CompInfo
deriving DecidableEq

structure XcoreRing (CompInfo : Type) where
  sender : Nat
  receiver : Nat
  ring : Nat → IpiCapData CompInfo

structure Channel (CompInfo : Type) extends XcoreRing CompInfo where
  sent : List (IpiCapData CompInfo)
  delivered : List (IpiCapData CompInfo)

inductive EnqueueStage where
  | arcvCapid
  | arcvEpoch
  | compInfo
  | publish
deriving DecidableEq

/-- A call of `cos_ipi_ring_enqueue` that has found room. -/
structure Enqueue (CompInfo : Type) where
  stage : EnqueueStage
  dest : Nat
  asnd : IpiCapData CompInfo
  tail : Nat
  delta : Nat

/-- Where `process_ring` stands in a dequeue, with what it has copied so far. -/
inductive Dequeue (CompInfo : Type) where
  | test
  | arcvCapid
  | arcvEpoch (arcvCapid : Nat)
  | compInfo (arcvCapid arcvEpoch : Nat)
  | advance (ret : IpiCapData CompInfo)

inductive ScanHalf where
  | first
  | second
deriving DecidableEq

structure Scan (CompInfo : Type) where
  half : ScanHalf
  idx : Nat
  last : Int
  visited : List Nat
  ring : Option (Dequeue CompInfo)

structure IpiState (CompInfo : Type) where
  channel : Nat → Nat → Channel CompInfo
  start : Nat → Nat
  enqueuing : Nat → Option (Enqueue CompInfo)
  returned : Nat → Option Int
  handling : Nat → Option (Scan CompInfo)
  scans : Nat → List (List Nat)

inductive IpiEvent (CompInfo : Type) where
  | enqueue (cpu dest : Nat) (asnd : IpiCapData CompInfo)
  | send (cpu : Nat)
  | interrupt (cpu : Nat)
  | handle (cpu : Nat)

def Channel.write (c : Channel CompInfo) (tail : Nat)
    (change : IpiCapData CompInfo → IpiCapData CompInfo) : Channel CompInfo :=
  { c with ring := Function.update c.ring tail (change (c.ring tail)) }

namespace IpiState

variable (s : IpiState CompInfo)

def setChannel (dest source : Nat) (c : Channel CompInfo) : IpiState CompInfo :=
  { s with channel := Function.update s.channel dest (Function.update (s.channel dest) source c) }

def setEnqueuing (cpu : Nat) (e : Option (Enqueue CompInfo)) : IpiState CompInfo :=
  { s with enqueuing := Function.update s.enqueuing cpu e }

def setReturned (cpu : Nat) (result : Int) : IpiState CompInfo :=
  { s with returned := Function.update s.returned cpu (some result) }

def setHandling (cpu : Nat) (scan : Option (Scan CompInfo)) : IpiState CompInfo :=
  { s with handling := Function.update s.handling cpu scan }

def cosIpiRingEnqueue (cpu dest : Nat) (asnd : IpiCapData CompInfo) : IpiState CompInfo :=
  if dest ≥ numCpu then s.setReturned cpu (-1)
  else
    let ring := s.channel dest cpu
    let tail := ring.sender
    let delta := (tail + 1) &&& ipiRingMask
    if delta = ring.receiver then s.setReturned cpu (-1)
    else s.setEnqueuing cpu (some ⟨.arcvCapid, dest, asnd, tail, delta⟩)

/-- The next access of the enqueue of `cpu`. -/
def enqueueStep (cpu : Nat) (e : Enqueue CompInfo) : IpiState CompInfo :=
  let c := s.channel e.dest cpu
  match e.stage with
  | .arcvCapid =>
    (s.setChannel e.dest cpu
      (c.write e.tail fun data => { data with arcvCapid := e.asnd.arcvCapid })).setEnqueuing cpu
      (some { e with stage := .arcvEpoch })
  | .arcvEpoch =>
    (s.setChannel e.dest cpu
      (c.write e.tail fun data => { data with arcvEpoch := e.asnd.arcvEpoch })).setEnqueuing cpu
      (some { e with stage := .compInfo })
  | .compInfo =>
    (s.setChannel e.dest cpu
      (c.write e.tail fun data => { data with compInfo := e.asnd.compInfo })).setEnqueuing cpu
      (some { e with stage := .publish })
  | .publish =>
    ((s.setChannel e.dest cpu
      { c with sender := e.delta, sent := c.sent ++ [e.asnd] }).setEnqueuing cpu none).setReturned
      cpu 0

/-- The entry of `cos_cap_ipi_handling`. -/
def cosCapIpiHandling (cpu : Nat) : IpiState CompInfo :=
  let start := s.start cpu
  { s.setHandling cpu (some ⟨.first, start, (start : Int) - 1, [], none⟩) with
    start := Function.update s.start cpu ((start + 1) % numCpu) }

def Scan.next (scan : Scan CompInfo) : Scan CompInfo :=
  { scan with idx := scan.idx + 1, ring := none }

/-- The loop has come to the ring of the CPU `idx`. -/
def visit (cpu : Nat) (scan : Scan CompInfo) : IpiState CompInfo :=
  let ring := s.channel cpu scan.idx
  let scan := { scan with visited := scan.visited ++ [scan.idx] }
  s.setHandling cpu <| some <|
    if ring.sender ≠ ring.receiver then { scan with ring := some .test } else Scan.next scan

def scanStep (cpu : Nat) (scan : Scan CompInfo) : IpiState CompInfo :=
  match scan.half with
  | .first =>
    if scan.idx < numCpu then s.visit cpu scan
    else s.setHandling cpu (some { scan with half := .second, idx := 0 })
  | .second =>
    if (scan.idx : Int) ≤ scan.last then s.visit cpu scan
    else
      { s.setHandling cpu none with
        scans := Function.update s.scans cpu (s.scans cpu ++ [scan.visited]) }

/-- The next access of `process_ring` on the ring the handler has come to. -/
def dequeueStep (cpu : Nat) (scan : Scan CompInfo) (dequeue : Dequeue CompInfo) :
    IpiState CompInfo :=
  let c := s.channel cpu scan.idx
  let goesOn (dequeue : Dequeue CompInfo) :=
    s.setHandling cpu (some { scan with ring := some dequeue })
  match dequeue with
  | .test =>
    if c.sender = c.receiver then s.setHandling cpu (some (Scan.next scan))
    else goesOn .arcvCapid
  | .arcvCapid => goesOn (.arcvEpoch (c.ring c.receiver).arcvCapid)
  | .arcvEpoch arcvCapid => goesOn (.compInfo arcvCapid (c.ring c.receiver).arcvEpoch)
  | .compInfo arcvCapid arcvEpoch =>
    goesOn (.advance ⟨arcvCapid, arcvEpoch, (c.ring c.receiver).compInfo⟩)
  | .advance ret =>
    (s.setChannel cpu scan.idx
      { c with
        receiver := (c.receiver + 1) &&& ipiRingMask
        delivered := c.delivered ++ [ret] }).setHandling cpu
      (some { scan with ring := some .test })

def handleStep (cpu : Nat) (scan : Scan CompInfo) : IpiState CompInfo :=
  match scan.ring with
  | none => s.scanStep cpu scan
  | some dequeue => s.dequeueStep cpu scan dequeue

def next (s : IpiState CompInfo) : IpiEvent CompInfo → Option (IpiState CompInfo)
  | .enqueue cpu dest asnd =>
    if cpu < numCpu ∧ (s.enqueuing cpu).isNone then some (s.cosIpiRingEnqueue cpu dest asnd)
    else none
  | .send cpu => (s.enqueuing cpu).map (s.enqueueStep cpu)
  | .interrupt cpu =>
    if cpu < numCpu ∧ (s.handling cpu).isNone then some (s.cosCapIpiHandling cpu) else none
  | .handle cpu => (s.handling cpu).map (s.handleStep cpu)

def initial (start : Nat → Fin numCpu) (unset : IpiCapData CompInfo) : IpiState CompInfo :=
  { channel := fun _ _ => ⟨⟨0, 0, fun _ => unset⟩, [], []⟩
    start := fun cpu => start cpu
    enqueuing := fun _ => none
    returned := fun _ => none
    handling := fun _ => none
    scans := fun _ => [] }

end IpiState

end Composite
