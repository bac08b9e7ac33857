import Mathlib.Logic.Function.Basic
import Composite.Kernel.Config

/-!
# The liveness table

An entry holds an epoch and the time of the last deactivation.  An object that
was created in an earlier epoch of its entry is dead.
-/

namespace Composite

def ltblEnts : Nat := 2 ^ 20

structure LivenessEntry where
  epoch : Nat
  deactTimestamp : Nat
  deriving DecidableEq, Repr

structure LivenessData where
  epoch : Nat
  id : Nat
  deriving DecidableEq, Repr

abbrev Ltbl := Nat → LivenessEntry

def ltblInit : Ltbl := fun _ => ⟨0, 0⟩

def ltblIsalive (ltbl : Ltbl) (ld : LivenessData) : Bool := (ltbl ld.id).epoch == ld.epoch

def epochSucc (epoch : Nat) : Nat := epoch / 2 ^ 32 * 2 ^ 32 + (epoch + 1) % 2 ^ 32

def ltblExpire (ltbl : Ltbl) (tsc : Nat) (ld : LivenessData) : Ltbl :=
  Function.update ltbl ld.id ⟨epochSucc (ltbl ld.id).epoch, tsc⟩

def ltblGet (ltbl : Ltbl) (id : Nat) : Option LivenessData :=
  if id ≥ ltblEnts then none else some ⟨(ltbl id).epoch, id⟩

def ltblGetTimestamp (ltbl : Ltbl) (id : Nat) : Option Nat :=
  if id ≥ ltblEnts then none else some (ltbl id).deactTimestamp

def ltblTimestampUpdate (ltbl : Ltbl) (tsc id : Nat) : Option Ltbl :=
  if id ≥ ltblEnts then none
  else some (Function.update ltbl id { ltbl id with deactTimestamp := tsc })

/-- `QUIESCENCE_CHECK`, on 64-bit time stamps. -/
def quiescenceCheck (curr past period : Nat) : Bool :=
  decide ((curr + (2 ^ 64 - past % 2 ^ 64)) % 2 ^ 64 > period)

def kernQuiescenceCycles : Nat := 500 * 4000

end Composite
