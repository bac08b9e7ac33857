import Composite.Kernel.Copy

/-!
# System calls on tables and memory

The part of `composite_syscall_slowpath` for capabilities to capability tables,
page tables and hardware, and the runs of the kernel that consist of such calls.
-/

namespace Composite

open Procedure Kernel

/-- `syscall_op_t`. -/
inductive SyscallOp where
  | cpy
  | move
  | cons
  | decons
  | thdActivate
  | thdDeactivate
  | thdTlsSet
  | compActivate
  | compDeactivate
  | sinvActivate
  | sinvDeactivate
  | sretActivate
  | sretDeactivate
  | asndActivate
  | asndDeactivate
  | arcvActivate
  | arcvDeactivate
  | memActivate
  | memDeactivate
  | memRetype2user
  | memRetype2kern
  | memRetype2frame
  | pgtblActivate
  | pgtblDeactivate
  | captblActivate
  | captblDeactivate
  | capkmemFreeze
  | captblDeactivateRoot
  | pgtblDeactivateRoot
  | thdDeactivateRoot
  | memMove
  | introspect
  | tcapActivate
  | tcapTransfer
  | tcapDelegate
  | tcapMerge
  | tcapWakeup
  | hwActivate
  | hwDeactivate
  | hwAttach
  | hwDetach
  | hwMap
  | hwCycUsec
  | hwCycThresh
  deriving DecidableEq, Repr

structure SyscallArgs where
  op : SyscallOp
  a1 : Nat
  a2 : Nat
  a3 : Nat
  a4 : Nat
  deriving DecidableEq, Repr

/-- `x & 0xFFFF`. -/
def low16 (x : Nat) : Nat := x % 2 ^ 16

def toInt32 (x : Nat) : Int := Int.bmod x (2 ^ 32)

def capIntrospect (ct capid op : Nat) : KCall Nat := do
  let found ← lkup ct capid
  let (_, ch) ← orLeave (-Errno.einval) found
  let k ← read id
  match ch.thd?, ch.tcap? with
  | some thdc, _ => do
      leaveIf (op ≠ 0) (-Errno.einval)
      pure (k.threads thdc.t).tid
  | none, some tcapc => do
      leaveIf (op ≠ 0) (-Errno.einval)
      pure (k.tcaps tcapc.tcap).budget
  | none, none => leave (-Errno.einval)

/-- The operations on a capability table.  The one that sets the thread-local
storage does not set the return value when it succeeds. -/
def captblOp (cpu ct cap thd : Nat) (opCap : CapTable) (args : SyscallArgs) (stale : LivenessData) :
    KCall Int :=
  let ⟨op, a1, a2, a3, a4⟩ := args
  match op with
  | .captblActivate => code (opCaptblActivate cpu ct cap a1 a2 a3 a4)
  | .captblDeactivate => code (captblDeactivate cpu ct opCap a1 a2 0 0 false)
  | .captblDeactivateRoot => code (captblDeactivate cpu ct opCap a1 a2 a3 a4 true)
  | .pgtblActivate => code (opPgtblActivate cpu ct cap a1 a2 a3 a4)
  | .pgtblDeactivate => code (pgtblDeactivate cpu ct opCap a1 a2 0 0 false)
  | .pgtblDeactivateRoot => code (pgtblDeactivate cpu ct opCap a1 a2 a3 a4 true)
  | .thdActivate =>
    code (opThdActivate cpu ct cap (low16 a1) (sar16 a2) (low16 a2) a3 (sar16 a1) (low16 a4))
  | .tcapActivate => code (opTcapActivate cpu ct cap (sar16 a1) (sext16 a1) a2)
  | .thdDeactivate => code (thdDeactivate cpu ct opCap a1 a2 0 0 false)
  | .thdDeactivateRoot => code (thdDeactivate cpu ct opCap a1 a2 a3 a4 true)
  | .thdTlsSet => do
      require (opCap.table ≠ 0) .assertion
      let ret ← code (thdTlsSet cpu opCap.table a1 a2 thd)
      leaveIf (ret ≠ 0) (-Errno.einval)
      pure (-Errno.enoent)
  | .capkmemFreeze => code (capKmemFreeze opCap.table a1)
  | .compActivate => code (compActivate ct cap a1 (sar16 a2) (low16 a2) a3 a4 stale)
  | .compDeactivate => code (compDeactivate opCap a1 a2)
  | .sinvActivate => code (sinvActivate ct cap a1 a2 a3 a4)
  | .sinvDeactivate => code (capCapdeactivate opCap a1 .sinv a2)
  | .sretActivate => leave (-Errno.einval)
  | .sretDeactivate => code (capCapdeactivate opCap a1 .sret a2)
  | .asndActivate => code (asndActivate cpu ct cap a1 a2 a3)
  | .asndDeactivate => code (capCapdeactivate opCap a1 .asnd a2)
  | .arcvActivate => code (arcvActivate cpu ct cap a1 a3 (sext16 a2) (sar16 a2) a4)
  | .arcvDeactivate => code (arcvDeactivate cpu opCap a1 a2)
  | .cpy => code (capCpy cpu ct a2 a3 cap a1)
  | .move => code (capMove cpu ct a2 a3 cap a1)
  | .cons => code (capCons cpu ct cap a1 a2)
  | .decons => code (capDecons cpu ct cap a1 a2 a3)
  | .introspect => do
      require (opCap.table ≠ 0) .assertion
      let value ← capIntrospect opCap.table a1 a2
      pure (toInt32 value)
  | .hwActivate => code (hwActivate ct cap a1 a2)
  | .hwDeactivate => code (capCapdeactivate opCap a1 .hw a2)
  | _ => leave (-Errno.enoent)

/-- `CAPTBL_OP_INTROSPECT` on a page table: the entry itself. -/
def pgtblIntrospect (cpu : Nat) (pt : CapTable) (addr : Nat) : KCall Int := do
  let found ← pgtblLkupPte cpu pt.table (pageOf addr)
  match found with
  | none => pure 0
  | some (pte, _) => do
      let value ← pte.next
      pure (toInt32 value.toNat)

/-- `CAPTBL_OP_MEM_RETYPE2USER` and its like. -/
def memRetype (cpu : Nat) (pt : CapTable) (frameAddr : Nat) (retype : Nat → KCall Unit) :
    KCall Unit := do
  let frame ← pgtblGetCosframe cpu pt.table frameAddr
  retype frame

/-- `CAPTBL_OP_MEMDEACTIVATE`. -/
def memDeactivate (cpu : Nat) (pt : CapTable) (addr lid : Nat) : KCall Unit := do
  leaveIf (pt.lvl ≠ 0) (-Errno.einval)
  pgtblMappingDel cpu pt.table addr lid

def pgtblOp (cpu ct cap : Nat) (pt : CapTable) (args : SyscallArgs) : KCall Int :=
  let ⟨op, a1, a2, a3, _⟩ := args
  match op with
  | .cpy => code (capCpy cpu ct a2 a3 cap a1)
  | .memMove => code (capMove cpu ct a2 a3 cap a1)
  | .cons => code (capCons cpu ct cap a1 a2)
  | .decons => code (capDecons cpu ct cap a1 a2 a3)
  | .memActivate => code (capMemactivate cpu ct pt a1 a2 a3)
  | .memDeactivate => code (memDeactivate cpu pt a1 a2)
  | .memRetype2user => code (memRetype cpu pt a1 retypetblRetype2user)
  | .memRetype2kern => code (memRetype cpu pt a1 retypetblRetype2kern)
  | .memRetype2frame => code (memRetype cpu pt a1 (retypetblRetype2frame cpu))
  | .introspect => pgtblIntrospect cpu pt a1
  | _ => leave (-Errno.enoent)

/-- A system call on a capability table or on a page table, made on core `cpu` by
a thread that runs in the component with capability table `ct`.  The memory of a new
component capability has `stale` at the place of its liveness data. -/
structure TableCall where
  cpu : Nat
  ct : Nat
  cap : Nat
  args : SyscallArgs
  stale : LivenessData
  deriving DecidableEq, Repr

def tableCall (call : TableCall) : KCall Int := do
  let found ← lkup call.ct call.cap
  let (_, ch) ← orLeave 0 found
  let thd ← read fun k => (k.cosInfo call.cpu).currThd
  match ch.captbl?, ch.pgtbl? with
  | some opCap, _ => captblOp call.cpu call.ct call.cap thd opCap call.args call.stale
  | none, some pt => pgtblOp call.cpu call.ct call.cap pt call.args
  | none, none => leave (-Errno.enoent)

/-- What happens to the kernel: a call on some core, the time passing, a recorded
TLB flush, or a core loading the page table of another component. -/
inductive KernelEvent where
  | call (call : TableCall)
  | tick
  | periodicFlush (cpu time : Nat)
  | mandatoryFlush (cpu time : Nat)
  | loadPgtbl (cpu pgtbl : Nat)
  deriving DecidableEq, Repr

/-- One event.  A call that faults has no next state. -/
def kernelNext (k : Kernel) : KernelEvent → Option Kernel
  | .call call => if call.cpu < numCpu then (tableCall call k).toOption.map (·.2) else none
  | .tick => some { k with tsc := k.tsc + 1 }
  | .periodicFlush cpu time =>
    some { k with tlb := Function.update k.tlb cpu { k.tlb cpu with lastPeriodicFlush := time } }
  | .mandatoryFlush cpu time =>
    some { k with tlb := Function.update k.tlb cpu { k.tlb cpu with lastMandatoryFlush := time } }
  | .loadPgtbl cpu pgtbl => some { k with pgtbl := Function.update k.pgtbl cpu pgtbl }

end Composite
