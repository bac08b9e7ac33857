import Mathlib.Data.BitVec
import Composite.Kernel.Liveness

/-!
# Capability tables

A capability table is a trie of depth two.  The root has 512 pointers to leaf
nodes, and a leaf node has 128 slots of 16 bytes.  Four slots share a line; the
header of the first slot of a line also says how large the capabilities of the
line are and which of its slots are allocated.

The type of the nodes and of what a capability holds besides its header are
left open.
-/

namespace Composite

/-- `cap_t`. -/
inductive CapType where
  | free
  | sinv
  | sret
  | asnd
  | arcv
  | thd
  | comp
  | captbl
  | pgtbl
  | frame
  | vm
  | quiescence
  | tcap
  | hw
  deriving DecidableEq, Repr

/-- `cap_sz_t`. -/
inductive CapSz where
  | sz16B
  | sz32B
  | sz64B
  | err
  deriving DecidableEq, Repr

def CapSz.order : CapSz → Nat
  | .sz16B => 0
  | .sz32B => 1
  | .sz64B => 2
  | .err => 3

/-- `CAP_MASK_16B`, `CAP_MASK_32B` and `CAP_MASK_64B`. -/
def CapSz.mask : CapSz → BitVec 4
  | .sz16B => 0b1111#4
  | .sz32B => 0b0101#4
  | .sz64B => 0b0001#4
  | .err => 0

def captblCap2sz : CapType → CapSz
  | .sret | .thd | .tcap => .sz16B
  | .captbl | .pgtbl | .hw => .sz32B
  | .sinv | .comp | .asnd | .arcv => .sz64B
  | .free | .frame | .vm | .quiescence => .err

structure CapHeader where
  livenessId : Nat
  amap : BitVec 4
  size : CapSz
  flags : BitVec 3
  type : CapType
  deriving DecidableEq, Repr

structure Slot (Body : Type*) where
  h : CapHeader
  post : Body
  deriving DecidableEq, Repr

def captblMaxid : Nat := 2 ^ 16

section Table

variable {Node Body : Type*}

abbrev CaptblRoot (Node : Type*) := Nat → Option Node

abbrev Slots (Node Body : Type*) := Node → Nat → Slot Body

def captblLkupan (root : CaptblRoot Node) (cap : Nat) : Option (Node × Nat) :=
  (root (cap / 2 ^ 7 % 2 ^ 9)).map fun node => (node, cap % 2 ^ 7)

/-- `CT_MSK` on slots: the first slot of a capability of the given order. -/
def ctMsk (slot order : Nat) : Nat := slot / 2 ^ order * 2 ^ order

def lineOf (slot : Nat) : Nat := ctMsk slot 2

/-- `__captbl_getleaf`: the capability that covers the slot, if it is allocated.
The slow path turns the allocation bit into a mask of the address. -/
def captblGetleaf (leaf : Nat → Slot Body) (slot : Nat) : Option Nat :=
  let h := (leaf (lineOf slot)).h
  if h.size = captblCap2sz .sinv ∧
      h.amap.getLsbD (ctMsk slot (captblCap2sz .sinv).order - lineOf slot) then
    some (ctMsk slot (captblCap2sz .sinv).order)
  else
    let c := ctMsk slot h.size.order
    let off := c - lineOf slot
    let mask : BitVec 32 := ((h.amap.setWidth 32 &&& (1#32 <<< off)) >>> off) - 1
    if ~~~mask = 0 then none else some c

/-- `captbl_lkup`: the address of the capability with the given id. -/
def captblLkup (root : CaptblRoot Node) (slots : Slots Node Body) (cap : Nat) :
    Option (Node × Nat) :=
  (captblLkupan root (cap % captblMaxid)).bind fun (node, slot) =>
    (captblGetleaf (slots node) slot).map fun c => (node, c)

/-- `CAP_FLAG_RO` is set. -/
def CapHeader.readOnly (h : CapHeader) : Bool := h.flags.getLsbD 0

/-- `__captbl_header_validate` fails. -/
def captblHeaderInvalid (h : CapHeader) (sz : CapSz) : Bool :=
  decide (sz ≠ h.size) || decide (h.amap &&& ~~~sz.mask ≠ 0)

def headerQuiescence (ltbl : Ltbl) (tsc : Nat) (h : CapHeader) : Int :=
  if h.livenessId ≠ 0 ∧ h.type = .quiescence then
    match ltblGetTimestamp ltbl h.livenessId with
    | none => -Errno.efault
    | some past =>
      if quiescenceCheck tsc past kernQuiescenceCycles then 0 else -Errno.equiescence
  else 0

def lineQuiescence (ltbl : Ltbl) (tsc : Nat) (leaf : Nat → Slot Body) (line : Nat)
    (size : CapSz) : Int :=
  let headers := (List.range (4 / 2 ^ size.order)).map fun i => (leaf (line + i * 2 ^ size.order)).h
  ((headers.map (headerQuiescence ltbl tsc)).find? (· ≠ 0)).getD 0

def setHeader [DecidableEq Node] (slots : Slots Node Body) (node : Node) (slot : Nat)
    (h : CapHeader) : Slots Node Body :=
  Function.update slots node
    (Function.update (slots node) slot { slots node slot with h := h })

/-- The header as `captbl_init` writes it into every slot of a leaf node. -/
def captblInitHeader : CapHeader := ⟨0, 0, .sz64B, 0, .free⟩

section Write

variable [DecidableEq Node]

/-- The stores at the end of `captbl_add`: the header of the line, and that of
the slot where they are not the same. -/
def captblAddCommit (slots : Slots Node Body) (node : Node) (p : Nat) (type : CapType)
    (l : CapHeader) : Slots Node Body :=
  let h := lineOf p
  if p = h then setHeader slots node h { l with type := type, livenessId := 0 }
  else
    let slots := setHeader slots node h l
    setHeader slots node p { (slots node p).h with type := type, livenessId := 0 }

/-- `captbl_add`: the return value, and the slot when it is zero. -/
def captblAdd (root : CaptblRoot Node) (slots : Slots Node Body) (ltbl : Ltbl) (tsc cap : Nat)
    (type : CapType) : Except Fault (Int × Option (Node × Nat) × Slots Node Body) :=
  let sz := captblCap2sz type
  if sz = .err then .ok (-Errno.einval, none, slots)
  else if cap ≥ captblMaxid then .ok (-Errno.einval, none, slots)
  else
    match captblLkupan root cap with
    | none => .ok (-Errno.eperm, none, slots)
    | some (node, p) =>
      let h := lineOf p
      let o := (slots node h).h
      let off := p - h
      let l := { o with amap := o.amap ||| (1#4 <<< off), size := sz }
      if o.readOnly then .ok (-Errno.eperm, none, slots)
      else if o.amap.getLsbD off then .ok (-Errno.eexist, none, slots)
      else if o.amap ≠ 0 ∧ o.size ≠ sz then .ok (-Errno.eexist, none, slots)
      else if o.type = .quiescence ∧ o.size ≠ sz ∧ o.size.order = 0 then .error .assertion
      else
        let waiting :=
          if o.type = .quiescence ∧ o.size ≠ sz then
            lineQuiescence ltbl tsc (slots node) h o.size
          else headerQuiescence ltbl tsc (slots node p).h
        if waiting ≠ 0 then .ok (waiting, none, slots)
        else if captblHeaderInvalid l sz then .ok (-Errno.einval, none, slots)
        else .ok (0, some (node, p), captblAddCommit slots node p type l)

/-- The checks that `captbl_del` and `captbl_clear` share. -/
def captblRemovable (root : CaptblRoot Node) (slots : Slots Node Body) (cap : Nat)
    (type : CapType) : Except Int (Node × Nat) :=
  if cap ≥ captblMaxid then .error (-Errno.einval)
  else
    match captblLkupan root cap with
    | none => .error (-Errno.eperm)
    | some (node, p) =>
      let o := (slots node (lineOf p)).h
      if some p ≠ captblGetleaf (slots node) p then .error (-Errno.einval)
      else if (slots node p).h.type ≠ type then .error (-Errno.einval)
      else if o.readOnly then .error (-Errno.eperm)
      else if ¬o.amap.getLsbD (p - lineOf p) then .error (-Errno.enoent)
      else .ok (node, p)

/-- The stores with which `captbl_del` and `captbl_clear` take a slot out of the
allocation map, leaving `mark` as its type. -/
def captblRemoveCommit (slots : Slots Node Body) (node : Node) (p lid : Nat) (mark : CapType) :
    Slots Node Body :=
  let h := lineOf p
  let o := (slots node h).h
  let amap := o.amap &&& ~~~(1#4 <<< (p - h))
  if h = p then
    setHeader slots node h { o with amap := amap, livenessId := lid % 2 ^ 16, type := mark }
  else
    let slots :=
      setHeader slots node p { (slots node p).h with livenessId := lid % 2 ^ 16, type := mark }
    setHeader slots node h { o with amap := amap, type := if amap = 0 then mark else o.type }

def captblDel (root : CaptblRoot Node) (slots : Slots Node Body) (ltbl : Ltbl) (tsc cap : Nat)
    (type : CapType) (lid : Nat) : Int × Slots Node Body × Ltbl :=
  match captblRemovable root slots cap type with
  | .error ret => (ret, slots, ltbl)
  | .ok (node, p) =>
    match ltblTimestampUpdate ltbl tsc lid with
    | none => (-Errno.einval, slots, ltbl)
    | some ltbl => (0, captblRemoveCommit slots node p lid .quiescence, ltbl)

def captblClear (root : CaptblRoot Node) (slots : Slots Node Body) (cap : Nat) (type : CapType)
    (lid : Nat) : Int × Slots Node Body :=
  match captblRemovable root slots cap type with
  | .error ret => (ret, slots)
  | .ok (node, p) => (0, captblRemoveCommit slots node p lid .free)

end Write

end Table

end Composite
