import Backwire.Wire.Tail

/-!
# Numbers of the binary interchange formats

Floating-point numbers are kept as the bits of the formats binary32 and binary64: a sign, a
biased exponent and a fraction. This module compares them as numbers, widens the smaller format,
and narrows the larger one to the nearest number, ties going to the even one.
-/

namespace Backwire.Wire

/-- A number of the format binary32, by its bits. -/
structure Binary32 where
  /-- Sign, eight bits of exponent, twenty-three of fraction. -/
  bits : UInt32
  deriving DecidableEq, Repr

/-- A number of the format binary64, by its bits. -/
structure Binary64 where
  /-- Sign, eleven bits of exponent, fifty-two of fraction. -/
  bits : UInt64
  deriving DecidableEq, Repr

/-- A natural number without its lowest `shift` bits, rounded to the nearest, a tie to the even
one. -/
def roundShift (m shift : Nat) : Nat :=
  let unit := 1 <<< shift
  let q := m / unit
  let r := 2 * (m % unit)
  if unit < r ∨ (unit = r ∧ q % 2 = 1) then q + 1 else q

namespace Binary32

/-- The bits below the sign. -/
def magnitude (v : Binary32) : Nat := v.bits.toNat % 0x80000000

/-- Whether the sign is set. -/
def negative (v : Binary32) : Bool := 0x80000000 ≤ v.bits.toNat

/-- Whether the bits stand for no number. -/
def isNaN (v : Binary32) : Bool := 0x7f800000 < v.magnitude

/-- Equality of numbers: no undefined number equals any, and the two zeros are equal. -/
def same (a b : Binary32) : Bool :=
  !a.isNaN && !b.isNaN && (a.bits == b.bits || (a.magnitude == 0 && b.magnitude == 0))

end Binary32

namespace Binary64

/-- The bits below the sign. -/
def magnitude (v : Binary64) : Nat := v.bits.toNat % 0x8000000000000000

/-- Whether the sign is set. -/
def negative (v : Binary64) : Bool := 0x8000000000000000 ≤ v.bits.toNat

/-- Whether the bits stand for no number. -/
def isNaN (v : Binary64) : Bool := 0x7ff0000000000000 < v.magnitude

/-- Equality of numbers: no undefined number equals any, and the two zeros are equal. -/
def same (a b : Binary64) : Bool :=
  !a.isNaN && !b.isNaN && (a.bits == b.bits || (a.magnitude == 0 && b.magnitude == 0))

/-- Whether the number lies farther from zero than every finite one of the format binary32. -/
def exceeds32 (v : Binary64) : Bool := !v.isNaN && 0x47efffffe0000000 < v.magnitude

end Binary64

/-- The same number in the larger format. What is no number stays so, and is marked as one that
raises nothing. -/
def Binary32.widen (v : Binary32) : Binary64 :=
  let exponent := v.magnitude / 0x800000
  let fraction := v.magnitude % 0x800000
  let magnitude :=
    if exponent = 255 then
      (2047 <<< 52) + (fraction <<< 29)
        + (if fraction = 0 ∨ 0x400000 ≤ fraction then 0 else 0x8000000000000)
    else if exponent = 0 then
      if fraction = 0 then 0
      else ((fraction.log2 + 874) <<< 52)
        + ((fraction - 1 <<< fraction.log2) <<< (52 - fraction.log2))
    else ((exponent + 896) <<< 52) + (fraction <<< 29)
  ⟨((if v.negative then 0x8000000000000000 else 0) + magnitude).toUInt64⟩

/-- The nearest number of the smaller format, for a number that does not exceed it. A number too
small for the smallest exponent is rounded to a whole number of its smallest units. -/
def Binary64.narrow (v : Binary64) : Binary32 :=
  let exponent := v.magnitude / 0x10000000000000
  let fraction := v.magnitude % 0x10000000000000
  let digits := 0x10000000000000 + fraction
  let magnitude :=
    if exponent = 2047 then
      0x7f800000 + fraction / 0x20000000 % 0x400000 + (if fraction = 0 then 0 else 0x400000)
    else if exponent = 0 then 0
    else if exponent < 897 then roundShift digits (926 - exponent)
    else ((exponent - 897) <<< 23) + roundShift digits 29
  ⟨((if v.negative then 0x80000000 else 0) + magnitude).toUInt32⟩

end Backwire.Wire
