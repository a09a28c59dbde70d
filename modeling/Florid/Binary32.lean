import Mathlib.Data.BitVec

/-! Single-precision values by their bits: what a program can ask of a value it
only stores, compares and forwards. No arithmetic is modeled. -/
namespace Florid

/-- The 32 bits of an IEEE single: sign, eight exponent bits, 23 fraction bits. -/
abbrev Binary32 := BitVec 32

namespace Binary32

def exponent (x : Binary32) : Nat := x.toNat / 2 ^ 23 % 2 ^ 8

/-- Neither infinite nor NaN: the exponent bits are not all ones. -/
def isFinite (x : Binary32) : Bool := x.exponent != 255

def isNaN (x : Binary32) : Bool := x.exponent == 255 && x.toNat % 2 ^ 23 != 0

/-- Sign and magnitude as an integer: the order of the non-NaN values, with the
two zeros equal. -/
def key (x : Binary32) : Int :=
  if x.toNat < 2 ^ 31 then x.toNat else -((x.toNat - 2 ^ 31 : Nat) : Int)

/-- `x < y`, false when an operand is NaN. -/
def less (x y : Binary32) : Bool := !x.isNaN && !y.isNaN && decide (x.key < y.key)

/-- `x >= y`, false when an operand is NaN. -/
def atLeast (x y : Binary32) : Bool := !x.isNaN && !y.isNaN && decide (y.key ≤ x.key)

end Binary32
end Florid
