import Mathlib.Logic.Function.Basic

/-!
# The binary heap of the component library

The heap keeps pointers to its entries from place one on, and reports to every entry the place it
is moved to.  A failed assertion is `none`.
-/

namespace Composite

universe u

/-- `struct heap`, with the place last reported to each entry. -/
structure Heap (Item : Type u) where
  data : Nat → Item
  e : Nat
  maxSz : Nat
  idx : Item → Int

variable {Item : Type u} [DecidableEq Item]

def heapInit (data : Nat → Item) (idx : Item → Int) (maxSz : Nat) : Heap Item :=
  ⟨data, 1, maxSz + 1, idx⟩

/-- `u`, the callback of the heap. -/
def Heap.u (h : Heap Item) (entry : Item) (pos : Int) : Heap Item :=
  { h with idx := Function.update h.idx entry pos }

def Heap.store (h : Heap Item) (c : Nat) (entry : Item) : Heap Item :=
  { h with data := Function.update h.data c entry }

def swapEntries (h : Heap Item) (a b : Nat) : Heap Item :=
  let t := h.data a
  let h := (h.store a (h.data b)).store b t
  (h.u (h.data a) a).u (h.data b) b

/-- The child that `swap_down` compares with, where `l` is the last entry. -/
def nextIndex (cmp : Item → Item → Bool) (h : Heap Item) (l c : Nat) : Nat :=
  let left := 2 * c
  let right := 2 * c + 1
  if right > l then left
  else if cmp (h.data left) (h.data right) then left
  else right

/-- The loop of `swap_down`. -/
def swapDownLoop (cmp : Item → Item → Bool) : Nat → Heap Item → Nat → Option (Heap Item × Nat)
  | 0, h, c => some (h, c)
  | fuel + 1, h, c =>
    let l := h.e - 1
    if c ≤ l / 2 then
      let n := nextIndex cmp h l c
      if ¬n < h.e then none
      else if cmp (h.data c) (h.data n) then some (h, c)
      else swapDownLoop cmp fuel (swapEntries h n c) n
    else some (h, c)

/-- `swap_down`.  The place doubles in every turn, so that the end bounds their number. -/
def swapDown (cmp : Item → Item → Bool) (h : Heap Item) (c : Nat) : Option (Heap Item × Nat) :=
  if c ≠ 0 ∧ c ≤ h.e then swapDownLoop cmp h.e h c else none

/-- The loop of `swap_up`. -/
def swapUpLoop (cmp : Item → Item → Bool) : Nat → Heap Item → Nat → Option (Heap Item × Nat)
  | 0, h, c => some (h, c)
  | fuel + 1, h, c =>
    if c > 1 then
      let p := c / 2
      if p = 0 then none
      else if cmp (h.data p) (h.data c) then some (h, c)
      else swapUpLoop cmp fuel (swapEntries h p c) p
    else some (h, c)

def swapUp (cmp : Item → Item → Bool) (h : Heap Item) (c : Nat) : Option (Heap Item × Nat) :=
  if c ≤ h.e ∧ c > 0 then
    (swapUpLoop cmp c h c).bind fun (h, c) => if c ≠ 0 then some (h, c) else none
  else none

def heapify (cmp : Item → Item → Bool) (h : Heap Item) (c : Nat) : Option (Heap Item × Nat) := do
  let (h, c) ← swapUp cmp h c
  swapDown cmp h c

def heapSize (h : Heap Item) : Nat := h.e - 1

def heapAdd (cmp : Item → Item → Bool) (h : Heap Item) (new : Item) : Option (Int × Heap Item) :=
  if h.maxSz = h.e then some (-1, h)
  else do
    let c := h.e
    let h := (h.store c new).u new c
    let (h, _) ← heapify cmp { h with e := h.e + 1 } c
    some (0, h)

def heapHighest (cmp : Item → Item → Bool) (h : Heap Item) : Option (Option Item × Heap Item) :=
  if h.e = 1 then some (none, h)
  else do
    let r := h.data 1
    let h := { h with e := h.e - 1 }
    let h := h.store 1 (h.data h.e)
    let h := h.u (h.data 1) 1
    let (h, _) ← swapDown cmp h 1
    some (some r, h.u r 0)

def heapPeek (h : Heap Item) : Option Item := if h.e = 1 then none else some (h.data 1)

def heapAdjust (cmp : Item → Item → Bool) (h : Heap Item) (c : Int) : Option (Heap Item) :=
  if c < h.e ∧ c > 0 then (heapify cmp h c.toNat).map Prod.fst else none

def heapRemove (cmp : Item → Item → Bool) (h : Heap Item) (c : Int) :
    Option (Option Item × Heap Item) :=
  if c < h.e ∧ c ≥ 1 then
    if h.e = 1 then some (none, h)
    else
      let r := h.data c.toNat
      let h := { h with e := h.e - 1 }.u r 0
      if c = h.e then some (some r, h)
      else do
        let h := h.store c.toNat (h.data h.e)
        let h := h.u (h.data c.toNat) c
        let h ← heapAdjust cmp h c
        some (some r, h)
  else none

end Composite
