import Composite.Kernel.Syscall
import Composite.Kernel.Dispatch.Tokens

/-!
# Arguments in registers

The library of the components packs the arguments of a system call into five registers, and
the kernel takes them apart again.  The kernel reads registers as signed numbers, so that
what it shifts down keeps the sign; `captbl_lkup` cuts the ids to the size of a table.
-/

namespace Composite

/-! The calls on tcaps as the library makes them. -/

def SyscallOp.code (op : SyscallOp) : Nat := op.ctorIdx

def tcapDelegYield : Nat := 2

def cosTcapTransfer (user : PtRegs) (dst src res prio : Nat) : PtRegs :=
  callCapOp user src SyscallOp.tcapTransfer.code dst res (prio / 2 ^ 32 % 2 ^ 32) (prio % 2 ^ 32)

def cosTcapDelegate (user : PtRegs) (dst src res prio flags : Nat) : PtRegs :=
  let yield := if flags &&& tcapDelegYield ≠ 0 then 1 else 0
  callCapOp user src SyscallOp.tcapDelegate.code dst res
    (prio / 2 ^ 32 % 2 ^ 32 ||| yield * 2 ^ 31) (prio % 2 ^ 32)

def cosThdWakeup (user : PtRegs) (thd tc prio res : Nat) : PtRegs :=
  callCapOp user tc SyscallOp.tcapWakeup.code thd (prio % 2 ^ 32) (prio / 2 ^ 32 % 2 ^ 32) res

/-! What the kernel reads. -/

namespace PtRegs

/-- `__userregs_getcap`. -/
def capid (regs : PtRegs) : Nat := (sar16 regs.ax + (2 ^ 32 - 1)) % 2 ^ 32

end PtRegs

/-- The operation on a tcap in `composite_syscall_slowpath`.  The budget of a delegation is
read as a signed number and handed on as an unsigned one. -/
def tcapOpArgs (regs : PtRegs) : Option Core.TcapCall :=
  if regs.getop = SyscallOp.tcapTransfer.code then
    some (.transfer regs.get1 regs.get2 (regs.get3 * 2 ^ 32 + regs.get4))
  else if regs.getop = SyscallOp.tcapDelegate.code then
    some (.delegate regs.get1 (toRegister (toInt32 regs.get2))
      (regs.get3 * 2 % 2 ^ 32 / 2 * 2 ^ 32 + regs.get4) (decide (regs.get3 / 2 ^ 31 ≠ 0)))
  else if regs.getop = SyscallOp.tcapMerge.code then some (.merge regs.get1)
  else if regs.getop = SyscallOp.tcapWakeup.code then
    some (.wakeup regs.get1 (regs.get2 * 2 ^ 32 + regs.get3) regs.get4)
  else none

/-! Taken apart as they were put together. -/

open Composite.Core

theorem mul_two_pow_or (a : Nat) {b i : Nat} (low : b < 2 ^ i) :
    a * 2 ^ i ||| b = a * 2 ^ i + b := by
  have disjoint := @Nat.shiftLeft_add_eq_or_of_lt i b low a
  rw [Nat.shiftLeft_eq] at disjoint
  exact disjoint.symm

theorem lkupId_sext16 (x : Nat) : lkupId (sext16 x) = x % 2 ^ 16 := by
  unfold lkupId sext16 captblMaxid
  split_ifs <;> omega

theorem lkupId_sar16 (x : Nat) : lkupId (sar16 x) = x / 2 ^ 16 % 2 ^ 16 := by
  unfold lkupId sar16 captblMaxid
  split_ifs <;> omega

theorem sext16_eq_zero_iff (x : Nat) : sext16 x = 0 ↔ x % 2 ^ 16 = 0 := by
  unfold sext16
  by_cases positive : x % 2 ^ 16 < 2 ^ 15
  · rw [if_pos positive]
  · rw [if_neg positive]
    exact ⟨fun zero => by omega, fun zero => by omega⟩

theorem sar16_eq_zero_iff (x : Nat) : sar16 x = 0 ↔ x / 2 ^ 16 = 0 := by
  unfold sar16
  by_cases positive : x < 2 ^ 31
  · rw [if_pos positive]
  · rw [if_neg positive]
    exact ⟨fun zero => by omega, fun zero => by omega⟩

section

variable (user : PtRegs) {cap op : Nat} (arg1 arg2 arg3 arg4 : Nat)

@[simp]
theorem callCapOp_get1 : (callCapOp user cap op arg1 arg2 arg3 arg4).get1 = arg1 % 2 ^ 32 := rfl

@[simp]
theorem callCapOp_get2 : (callCapOp user cap op arg1 arg2 arg3 arg4).get2 = arg2 % 2 ^ 32 := rfl

@[simp]
theorem callCapOp_get3 : (callCapOp user cap op arg1 arg2 arg3 arg4).get3 = arg3 % 2 ^ 32 := rfl

@[simp]
theorem callCapOp_get4 : (callCapOp user cap op arg1 arg2 arg3 arg4).get4 = arg4 % 2 ^ 32 := rfl

theorem callCapOp_capid (isId : cap < 2 ^ 16 - 1) (isOp : op < 2 ^ 16) :
    lkupId (callCapOp user cap op arg1 arg2 arg3 arg4).capid = cap := by
  unfold callCapOp PtRegs.capid lkupId sar16 captblMaxid
  simp only
  split_ifs <;> omega

theorem callCapOp_getop (isOp : op < 2 ^ 16) :
    (callCapOp user cap op arg1 arg2 arg3 arg4).getop = op := by
  unfold callCapOp PtRegs.getop
  simp only
  omega

end

/-- The kernel finds in the registers what `cos_switch` was called with.  An id that is zero
names no capability. -/
structure SwitchDecoded (regs : PtRegs) (c tc prio timeout rcv stok : Nat) : Prop where
  sameCap : lkupId regs.capid = c
  sameArcv : lkupId (thdOpArgs regs).arcv = rcv
  noArcv : (thdOpArgs regs).arcv = 0 ↔ rcv = 0
  sameTc : lkupId (thdOpArgs regs).tc = tc
  noTc : (thdOpArgs regs).tc = 0 ↔ tc = 0
  samePrio : (thdOpArgs regs).prio = prio
  sameCounter : (thdOpArgs regs).usrCounter = stok
  sameTimeout : (thdOpArgs regs).timeout = timeout

section

variable (user : PtRegs) {c tc rcv prio res timeout stok : Nat}

theorem cosSwitch_ids (isTc : tc < 2 ^ 16 - 1) (isRcv : rcv < 2 ^ 16 - 1) :
    (cosSwitch user c tc prio timeout rcv stok).get1 = tc * 2 ^ 16 + rcv := by
  have fits : tc * 2 ^ 16 % 2 ^ 32 = tc * 2 ^ 16 := Nat.mod_eq_of_lt (by omega)
  rw [cosSwitch, callCapOp_get1, fits, mul_two_pow_or _ (by omega), Nat.mod_eq_of_lt (by omega)]

theorem cosSwitch_words (isPrio : prio < 2 ^ 48) :
    (cosSwitch user c tc prio timeout rcv stok).get3 =
      prio / 2 ^ 32 * 2 ^ 16 + stok % 2 ^ 16 := by
  rw [cosSwitch, callCapOp_get3, Nat.mod_eq_of_lt isPrio,
    mul_two_pow_or _ (Nat.mod_lt _ (by decide)), Nat.mod_eq_of_lt (by omega)]

theorem cosSwitch_decoded (isC : c < 2 ^ 16 - 1) (isTc : tc < 2 ^ 16 - 1) (isRcv : rcv < 2 ^ 16 - 1)
    (isPrio : prio < 2 ^ 48) (isTimeout : timeout < 2 ^ 32) (isTok : stok < 2 ^ 32) :
    SwitchDecoded (cosSwitch user c tc prio timeout rcv stok) c tc prio timeout rcv stok := by
  have low : (tc * 2 ^ 16 + rcv) % 2 ^ 16 = rcv := by omega
  have high : (tc * 2 ^ 16 + rcv) / 2 ^ 16 = tc := by omega
  have cut : (tc * 2 ^ 16 + rcv) / 2 ^ 16 % 2 ^ 16 = tc := by omega
  have upper : (prio / 2 ^ 32 * 2 ^ 16 + stok % 2 ^ 16) / 2 ^ 16 = prio / 2 ^ 32 := by
    rw [Nat.mul_comm, Nat.mul_add_div (by decide), Nat.div_eq_of_lt (Nat.mod_lt _ (by decide)),
      Nat.add_zero]
  have ids : (cosSwitch user c tc prio timeout rcv stok).get1 = _ := cosSwitch_ids user isTc isRcv
  have words : (cosSwitch user c tc prio timeout rcv stok).get3 = _ := cosSwitch_words user isPrio
  have lower : (cosSwitch user c tc prio timeout rcv stok).get2 = prio % 2 ^ 32 := by
    rw [cosSwitch, callCapOp_get2, Nat.mod_mod]
  constructor
  · exact callCapOp_capid user _ _ _ _ isC (by omega)
  · rw [thdOpArgs, ids, lkupId_sext16, low]
  · rw [thdOpArgs, ids, sext16_eq_zero_iff, low]
  · rw [thdOpArgs, ids, lkupId_sar16, cut]
  · rw [thdOpArgs, ids, sar16_eq_zero_iff, high]
  · simp only [thdOpArgs, words, lower, upper]
    exact Nat.div_add_mod' prio (2 ^ 32)
  · exact cosSwitch_usrCounter isTok
  · exact Nat.mod_eq_of_lt isTimeout

theorem cosSchedAsnd_decoded (isRcv : rcv < 2 ^ 16 - 1) (isTimeout : timeout < 2 ^ 32)
    (isTok : stok < 2 ^ 32) :
    asndOpArgs (cosSchedAsnd user c timeout rcv stok) = ⟨rcv, stok, timeout, 0⟩ := by
  have isId : rcv < 2 ^ 32 := by omega
  simp only [asndOpArgs, cosSchedAsnd, callCapOp_get1, callCapOp_get2, callCapOp_get3,
    callCapOp_get4, Nat.mod_eq_of_lt isId, Nat.mod_eq_of_lt isTimeout, Nat.mod_eq_of_lt isTok,
    Nat.zero_mod]

theorem cosTcapTransfer_decoded (isRcv : rcv < 2 ^ 16 - 1) (isPrio : prio < 2 ^ 48)
    (isRes : res < 2 ^ 32) :
    tcapOpArgs (cosTcapTransfer user rcv tc res prio) = some (.transfer rcv res prio) := by
  have op : (cosTcapTransfer user rcv tc res prio).getop = SyscallOp.tcapTransfer.code :=
    callCapOp_getop user _ _ _ _ (by decide)
  have isId : rcv < 2 ^ 32 := by omega
  have words : prio / 2 ^ 32 % 2 ^ 32 % 2 ^ 32 * 2 ^ 32 + prio % 2 ^ 32 % 2 ^ 32 = prio := by omega
  rw [tcapOpArgs, op, if_pos rfl, cosTcapTransfer, callCapOp_get1, callCapOp_get2, callCapOp_get3,
    callCapOp_get4, words, Nat.mod_eq_of_lt isId, Nat.mod_eq_of_lt isRes]

theorem toRegister_toInt32 {x : Nat} (isRegister : x < 2 ^ 32) : toRegister (toInt32 x) = x := by
  unfold toRegister toInt32
  rw [Int.bmod_def]
  split_ifs <;> omega

theorem cosTcapDelegate_decoded (isRcv : rcv < 2 ^ 16 - 1) (isPrio : prio < 2 ^ 48)
    (isRes : res < 2 ^ 32) (flags : Nat) :
    tcapOpArgs (cosTcapDelegate user rcv tc res prio flags) =
      some (.delegate rcv res prio (decide (flags &&& tcapDelegYield ≠ 0))) := by
  have op : (cosTcapDelegate user rcv tc res prio flags).getop = SyscallOp.tcapDelegate.code :=
    callCapOp_getop user _ _ _ _ (by decide)
  have isId : rcv < 2 ^ 32 := by omega
  have upper : prio / 2 ^ 32 % 2 ^ 32 = prio / 2 ^ 32 := Nat.mod_eq_of_lt (by omega)
  have packed : ∀ bit ≤ 1, (prio / 2 ^ 32 ||| bit * 2 ^ 31) % 2 ^ 32 =
      bit * 2 ^ 31 + prio / 2 ^ 32 := by
    intro bit small
    rw [Nat.or_comm, mul_two_pow_or _ (by omega), Nat.mod_eq_of_lt (by omega)]
  rw [tcapOpArgs, op, if_neg (by decide), if_pos rfl, cosTcapDelegate, callCapOp_get1,
    callCapOp_get2, callCapOp_get3, callCapOp_get4, Nat.mod_eq_of_lt isId,
    Nat.mod_eq_of_lt isRes, toRegister_toInt32 isRes, upper, Nat.mod_mod]
  by_cases yields : flags &&& tcapDelegYield ≠ 0
  · have words : (1 * 2 ^ 31 + prio / 2 ^ 32) * 2 % 2 ^ 32 / 2 * 2 ^ 32 + prio % 2 ^ 32 = prio := by
      omega
    have bit : (1 * 2 ^ 31 + prio / 2 ^ 32) / 2 ^ 31 ≠ 0 := by omega
    rw [if_pos yields, packed 1 (by decide), words, decide_eq_true bit, decide_eq_true yields]
  · have words : (0 * 2 ^ 31 + prio / 2 ^ 32) * 2 % 2 ^ 32 / 2 * 2 ^ 32 + prio % 2 ^ 32 = prio := by
      omega
    have bit : ¬(0 * 2 ^ 31 + prio / 2 ^ 32) / 2 ^ 31 ≠ 0 := by omega
    rw [if_neg yields, packed 0 (by decide), words, decide_eq_false bit, decide_eq_false yields]

theorem cosThdWakeup_decoded (isC : c < 2 ^ 16 - 1) (isPrio : prio < 2 ^ 48)
    (isRes : res < 2 ^ 32) :
    tcapOpArgs (cosThdWakeup user c tc prio res) =
      some (.wakeup c (prio % 2 ^ 32 * 2 ^ 32 + prio / 2 ^ 32) res) := by
  have op : (cosThdWakeup user c tc prio res).getop = SyscallOp.tcapWakeup.code :=
    callCapOp_getop user _ _ _ _ (by decide)
  have isId : c < 2 ^ 32 := by omega
  have upper : prio / 2 ^ 32 % 2 ^ 32 = prio / 2 ^ 32 := Nat.mod_eq_of_lt (by omega)
  rw [tcapOpArgs, op, if_neg (by decide), if_neg (by decide), if_neg (by decide), if_pos rfl,
    cosThdWakeup, callCapOp_get1, callCapOp_get2, callCapOp_get3, callCapOp_get4,
    Nat.mod_eq_of_lt isId, Nat.mod_eq_of_lt isRes, Nat.mod_mod, upper, upper]

/-- The kernel decodes the calls as they were made, but for a wakeup with a priority whose two
words differ. -/
theorem calls_decoded (flags : Nat) (isC : c < 2 ^ 16 - 1) (isTc : tc < 2 ^ 16 - 1)
    (isRcv : rcv < 2 ^ 16 - 1) (isPrio : prio < 2 ^ 48) (isRes : res < 2 ^ 32)
    (isTimeout : timeout < 2 ^ 32) (isTok : stok < 2 ^ 32) :
    SwitchDecoded (cosSwitch user c tc prio timeout rcv stok) c tc prio timeout rcv stok ∧
      (lkupId (cosSchedAsnd user c timeout rcv stok).capid = c ∧
        asndOpArgs (cosSchedAsnd user c timeout rcv stok) = ⟨rcv, stok, timeout, 0⟩) ∧
      (lkupId (cosTcapTransfer user rcv tc res prio).capid = tc ∧
        tcapOpArgs (cosTcapTransfer user rcv tc res prio) = some (.transfer rcv res prio)) ∧
      (lkupId (cosTcapDelegate user rcv tc res prio flags).capid = tc ∧
        tcapOpArgs (cosTcapDelegate user rcv tc res prio flags) =
          some (.delegate rcv res prio (decide (flags &&& tcapDelegYield ≠ 0)))) ∧
      lkupId (cosThdWakeup user c tc prio res).capid = tc ∧
        (tcapOpArgs (cosThdWakeup user c tc prio res) = some (.wakeup c prio res) ↔
          prio / 2 ^ 32 = prio % 2 ^ 32) := by
  refine ⟨cosSwitch_decoded user isC isTc isRcv isPrio isTimeout isTok,
    ⟨callCapOp_capid user _ _ _ _ isC (by decide), cosSchedAsnd_decoded user isRcv isTimeout isTok⟩,
    ⟨callCapOp_capid user _ _ _ _ isTc (by decide),
      cosTcapTransfer_decoded user isRcv isPrio isRes⟩,
    ⟨callCapOp_capid user _ _ _ _ isTc (by decide),
      cosTcapDelegate_decoded user isRcv isPrio isRes flags⟩,
    callCapOp_capid user _ _ _ _ isTc (by decide), ?_⟩
  rw [cosThdWakeup_decoded user isC isPrio isRes]
  simp only [Option.some.injEq, TcapCall.wakeup.injEq, true_and, and_true]
  omega

end

def someRegs : PtRegs := ⟨0, 0, 0, 0, 0, 0, 0, 0, 0⟩

theorem calls_decoded_large :
    SwitchDecoded (cosSwitch someRegs 40000 50000 (2 ^ 48 - 1) 7 60000 (2 ^ 32 - 1))
      40000 50000 (2 ^ 48 - 1) 7 60000 (2 ^ 32 - 1) :=
  (@calls_decoded someRegs 40000 50000 60000 (2 ^ 48 - 1) 9 7 (2 ^ 32 - 1) 2 (by decide) (by decide)
    (by decide) (by decide) (by decide) (by decide) (by decide)).1

/-- A thread that is woken with priority 1 is woken with another one instead. -/
theorem wakeup_words_exchanged :
    tcapOpArgs (cosThdWakeup someRegs 4 5 1 0) = some (.wakeup 4 (2 ^ 32) 0) ∧
      tcapOpArgs (cosThdWakeup someRegs 4 5 1 0) ≠ some (.wakeup 4 1 0) := by
  decide

end Composite
