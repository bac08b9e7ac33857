import Composite.Kernel.Objects
import Composite.Kernel.Dispatch

/-!
# Threads, tcaps, components and end-points

The activation and deactivation functions of `thd.h`, `tcap.c`, `component.h`,
`inv.h` and `hw.h`.
-/

namespace Composite

open Procedure Kernel

def maxNumThreads : Nat := numCpu + 10 + 200 * (numCpu - 6)

namespace Kernel

def onThread (t : Nat) (change : Thread → Thread) : KCall Unit :=
  update fun k => { k with threads := k.threads.modify t change }

def onTcap (tcap : Nat) (change : Tcap → Tcap) : KCall Unit :=
  update fun k => { k with tcaps := Function.update k.tcaps tcap (change (k.tcaps tcap)) }

def onCosInfo (cpu : Nat) (change : CosCpuLocalInfo → CosCpuLocalInfo) : KCall Unit :=
  update fun k => { k with cosInfo := Function.update k.cosInfo cpu (change (k.cosInfo cpu)) }

end Kernel

/-! Threads. -/

/-- `thd_upcall_setup` for a new thread. -/
def thdUpcallSetup (cpu entryAddr initData tid : Nat) : PtRegs :=
  { PtRegs.zero with
    bx := initData, ip := entryAddr, dx := entryAddr, ax := tid ||| (cpu <<< 16) }

def thdActivate (cpu t cap capin thd compcap initData thdid : Nat) : KCall Unit := do
  update fun k => { k with
    memory := k.memory.setKobj thd .thd
    threads := Function.update k.threads thd .zero }
  let found ← lkup t compcap
  let compc ← orLeave (-Errno.einval) (found.bind fun (_, slot) => slot.comp?)
  let addr ← capCapactivatePre t cap capin .thd
  let k ← read id
  onThread thd fun _ => { Thread.zero with
    tid := thdid
    invstk := fun i => ⟨if i = 0 then compc.info else ⟨⟨0, 0⟩, 0, 0⟩, 0, 0⟩
    refcnt := 1
    cpuid := cpu
    schedulerThread := some (k.cosInfo cpu).currThd
    regs := thdUpcallSetup cpu compc.entryAddr initData thdid }
  require (thdid ≤ maxNumThreads) .assertion
  setBody addr (.thd ⟨thd, cpu⟩)

/-- `CAPTBL_OP_THDACTIVATE`. -/
def opThdActivate (cpu ct cap thdCap pgtblCap compcap pgtblAddr initData thdid : Nat) :
    KCall Unit := do
  let (page, pte) ← capKmemActivate cpu ct pgtblCap pgtblAddr
  finishActivation cpu pte (thdActivate cpu ct cap thdCap page compcap initData thdid)

/-- The end of `thd_deactivate` when the last capability of the thread is gone. -/
def thdRelease (cpu thd : Nat) (pte : ErtIntern) (old : Pte) : KCall Unit := do
  onCosInfo cpu fun cli =>
    if cli.nextTi.thd = some thd then { cli with nextTi := .clear } else cli
  kmemDeactPost cpu pte old

def thdDeactivate (cpu ct : Nat) (destCt : CapTable) (capin lid pgtblCap cosframeAddr : Nat)
    (root : Bool) : KCall Unit := do
  let found ← lkup destCt.table capin
  let (addr, tc) ← orLeave (-Errno.einval)
    (found.bind fun (addr, slot) => slot.thd?.map fun tc => (addr, tc))
  let k ← read id
  let thd := k.threads tc.t
  require (thd.refcnt ≠ 0) .assertion
  if thd.refcnt = 1 then do
    leaveIf (¬root) (-Errno.einval)
    leaveIf thd.rcvcap.isbound (-Errno.ebusy)
    let (pte, old) ← kmemDeactPre cpu addr ct pgtblCap cosframeAddr
    capCapdeactivate destCt capin .thd lid
    onThread tc.t fun t => { t with refcnt := t.refcnt - 1 }
    thdRelease cpu tc.t pte old
  else do
    leaveIf root (-Errno.einval)
    capCapdeactivate destCt capin .thd lid
    onThread tc.t fun t => { t with refcnt := t.refcnt - 1 }

def thdTlsSet (cpu ct thdCap tlsaddr current : Nat) : KCall Unit := do
  let found ← lkup ct thdCap
  let tc ← orLeave (-Errno.einval) (found.bind fun (_, slot) => slot.thd?)
  leaveIf (tc.cpuid ≠ cpu) (-Errno.einval)
  onThread tc.t fun t => { t with tls := tlsaddr }
  if current = tc.t then update fun k => { k with tls := Function.update k.tls cpu tlsaddr }
  else pure ()

/-! Tcaps. -/

def tcapInit (cpu tcap : Nat) : KCall Unit := do
  let k ← read id
  onCosInfo cpu fun cli => { cli with tcapUid := cli.tcapUid + 1 }
  update fun k' => { k' with memory := k'.memory.setKobj tcap .tcap }
  onTcap tcap fun t => t.init cpu (k.cosInfo cpu).tcapUid

def tcapActivate (cpu ct cap capin tcapNew : Nat) : KCall Unit := do
  tcapInit cpu tcapNew
  let addr ← capCapactivatePre ct cap capin .tcap
  setBody addr (.tcap ⟨tcapNew, cpu⟩)

/-- `CAPTBL_OP_TCAP_ACTIVATE`. -/
def opTcapActivate (cpu ct cap tcapCap pgtblCap pgtblAddr : Nat) : KCall Unit := do
  let (page, pte) ← capKmemActivate cpu ct pgtblCap pgtblAddr
  finishActivation cpu pte (tcapActivate cpu ct cap tcapCap page)

/-! Components. -/

/-- The end of `comp_activate`, with both reference counts taken.  A liveness id outside of
the table leaves the liveness data as the memory of the slot had it. -/
def compConstruct (t cap capin : Nat) (ctcAddr ptcAddr : CapAddr) (ctc ptc : CapTable)
    (lid entryAddr : Nat) (stale : LivenessData) : KCall Unit := do
  let addr ← capCapactivatePre t cap capin .comp
  let k ← read id
  setBody addr (.comp
    { entryAddr := entryAddr
      pgd := ptcAddr
      ctTop := ctcAddr
      info := ⟨(ltblGet k.ltbl lid).getD stale, ptc.table, ctc.table⟩ })

def compActivate (t cap capin captblCap pgtblCap lid entryAddr : Nat) (stale : LivenessData) :
    KCall Unit := do
  let found ← lkup t captblCap
  let (ctcAddr, ctc) ← orLeave (-Errno.einval)
    (found.bind fun (addr, slot) => slot.captbl?.map fun table => (addr, table))
  leaveIf (ctc.lvl > 0) (-Errno.einval)
  let found ← lkup t pgtblCap
  let (ptcAddr, ptc) ← orLeave (-Errno.einval)
    (found.bind fun (addr, slot) => slot.pgtbl?.map fun table => (addr, table))
  leaveIf (ptc.lvl > 0) (-Errno.einval)
  leaveIf (isFrozen ptc.refcntFlags) (-Errno.einval)
  modRefcntFlags ptcAddr refcntInc
  if isFrozen ctc.refcntFlags then do
    modRefcntFlags ptcAddr refcntDec
    leave (-Errno.einval)
  else do
    modRefcntFlags ctcAddr refcntInc
    let ret ← code (compConstruct t cap capin ctcAddr ptcAddr ctc ptc lid entryAddr stale)
    if ret ≠ 0 then do
      modRefcntFlags ctcAddr refcntDec
      modRefcntFlags ptcAddr refcntDec
      leave ret
    else pure ()

/-- `comp_deactivate`.  The result of the lookup is used unchecked, and the liveness
of the component ends before its capability is removed. -/
def compDeactivate (ct : CapTable) (capin lid : Nat) : KCall Unit := do
  let found ← lkup ct.table capin
  let (_, slot) ← orFault .dereference found
  let compc ← orLeave (-Errno.einval) slot.comp?
  update fun k => { k with ltbl := ltblExpire k.ltbl k.tsc compc.info.liveness }
  capCapdeactivate ct capin .comp lid
  modRefcntFlags compc.pgd refcntDec
  modRefcntFlags compc.ctTop refcntDec

/-! Invocations and end-points. -/

def sinvActivate (t cap capin compCap entryAddr token : Nat) : KCall Unit := do
  let found ← lkup t compCap
  let compc ← orLeave (-Errno.einval) (found.bind fun (_, slot) => slot.comp?)
  let addr ← capCapactivatePre t cap capin .sinv
  setBody addr (.sinv ⟨compc.info, entryAddr, token⟩)

def asndConstruct (cpu : Nat) (arcvc : CapArcv) (rcvCap budget period : Nat) : CapAsnd where
  cpuid := cpu
  arcvCpuid := arcvc.cpuid
  arcvCapid := rcvCap
  arcvEpoch := arcvc.epoch
  compInfo := arcvc.compInfo
  budget := budget
  period := period
  replenishAmnt := budget

def asndActivate (cpu t cap capin rcvCaptbl rcvCap : Nat) : KCall Unit := do
  let found ← lkup t rcvCaptbl
  let rcvCt ← orLeave (-Errno.einval) (found.bind fun (_, slot) => slot.captbl?)
  let found ← lkup rcvCt.table rcvCap
  let arcvc ← orLeave (-Errno.einval) (found.bind fun (_, slot) => slot.arcv?)
  let addr ← capCapactivatePre t cap capin .asnd
  setBody addr (.asnd (asndConstruct cpu arcvc rcvCap 0 0))

def arcvSetup (thd tcap notif : Nat) : KCall Unit := do
  let k ← read id
  require (¬(k.threads thd).rcvcap.isbound) .assertion
  onThread thd fun t => { t with
    schedulerThread := some notif
    rcvcap := { t.rcvcap with rcvcapThdNotif := some notif } }
  onThread notif fun t => { t with rcvcap := { t.rcvcap with refcnt := t.rcvcap.refcnt + 1 } }
  onThread thd fun t => { t with
    rcvcap := { t.rcvcap with isbound := true, rcvcapTcap := some tcap } }
  onTcap tcap (·.bind thd)

/-- `arcv_activate`, called by a system call. -/
def arcvActivate (cpu t cap capin compCap thdCap tcapCap arcvCap : Nat) : KCall Unit := do
  let found ← lkup t compCap
  let compc ← orLeave (-Errno.einval) (found.bind fun (_, slot) => slot.comp?)
  let found ← lkup t thdCap
  let thdc ← orLeave (-Errno.einval) (found.bind fun (_, slot) => slot.thd?)
  leaveIf (thdc.cpuid ≠ cpu) (-Errno.einval)
  let found ← lkup t tcapCap
  let tcapc ← orLeave (-Errno.einval) (found.bind fun (_, slot) => slot.tcap?)
  leaveIf (tcapc.cpuid ≠ cpu) (-Errno.einval)
  let k ← read id
  let rcvcap := (k.threads thdc.t).rcvcap
  leaveIf rcvcap.isbound (-Errno.einval)
  require (rcvcap.rcvcapTcap = none) .assertion
  let found ← lkup t arcvCap
  let arcvP ← orLeave (-Errno.einval) (found.bind fun (_, slot) => slot.arcv?)
  leaveIf (arcvP.cpuid ≠ cpu) (-Errno.einval)
  let depth := (arcvP.depth + 1) % 2 ^ 8
  leaveIf (depth ≥ arcvNotifDepth) (-Errno.einval)
  let addr ← capCapactivatePre t cap capin .arcv
  setBody addr (.arcv ⟨compc.info, 0, cpu, thdc.t, depth⟩)
  arcvSetup thdc.t tcapc.tcap arcvP.thd

/-- `thd_rcvcap_release` on the thread that is notified, if there is one. -/
def thdRcvcapRelease : Option Nat → KCall Unit
  | none => pure ()
  | some notif =>
    onThread notif fun t => { t with rcvcap := { t.rcvcap with refcnt := t.rcvcap.refcnt - 1 } }

def arcvTeardown (thd : Nat) : KCall Unit := do
  let k ← read id
  let rcvcap := (k.threads thd).rcvcap
  let tcap ← orFault .assertion rcvcap.rcvcapTcap
  leaveIf ((k.tcaps tcap).refcnt > 1 ∧ (k.tcaps tcap).arcvEp = some thd) (-1)
  thdRcvcapRelease rcvcap.rcvcapThdNotif
  onThread thd fun t => { t with
    rcvcap := { t.rcvcap with isbound := false, rcvcapTcap := none } }
  onTcap tcap Tcap.unbind

/-- `arcv_deactivate`.  The end-point is torn down before its capability is
removed. -/
def arcvDeactivate (cpu : Nat) (t : CapTable) (capin lid : Nat) : KCall Unit := do
  let found ← lkup t.table capin
  let arcvc ← orLeave (-Errno.einval) (found.bind fun (_, slot) => slot.arcv?)
  leaveIf (arcvc.cpuid ≠ cpu) (-Errno.einval)
  let k ← read id
  leaveIf ((k.threads arcvc.thd).rcvcap.refcnt > 0) (-Errno.ebusy)
  let ret ← code (arcvTeardown arcvc.thd)
  leaveIf (ret ≠ 0) (-Errno.ebusy)
  capCapdeactivate t capin .arcv lid

/-! Hardware capabilities. -/

def hwActivate (t cap capin bitmap : Nat) : KCall Unit := do
  let addr ← capCapactivatePre t cap capin .hw
  setBody addr (.hw bitmap)

end Composite
