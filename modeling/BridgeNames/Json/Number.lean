import BridgeNames.Json.Numeral

/-!
# What a numeral stands for

A numeral without fraction and exponent is an integer as long as it fits into 64 bits, with a sign
or without. Every other numeral is a double. Minus zero is one of these, since no integer is.

A double is formed from a significand of 64 bits and a power of ten, in one multiplication or
division; the result may be one step away from the nearest double. The significand is made of the
leading digits for as long as they fit. Digits of the whole part that do not fit raise the
exponent; digits of the fraction that do not fit are left out.
-/

namespace BridgeNames.Json

/-- What a numeral stands for. -/
inductive Number where
  | natural (n : Nat)
  /-- The integer `-n`. -/
  | negative (n : Nat)
  | double (f : Float)
  /-- The magnitude is above every double. -/
  | outOfRange

namespace Numeral

/-- Appends digits to a significand for as long as it fits into 64 bits, and counts the digits
that are left out. -/
def absorb (significand : Nat) : List Char → Nat × Nat
  | [] => (significand, 0)
  | c :: rest =>
    let next := significand * 10 + digitsValue [c]
    if next < UInt64.size then absorb next rest else (significand, rest.length + 1)

/-- A power of ten as a double. -/
def tenTo (exponent : Nat) : Float := Float.ofScientific 1 false exponent

/-- Scales a double by a power of ten, unless it leaves the range of doubles. -/
def scale (f : Float) (exponent : Int) : Option Float :=
  if exponent.natAbs ≤ 308 then
    if 0 ≤ exponent then
      let scaled := f * tenTo exponent.natAbs
      if scaled.isInf then none else some scaled
    else some (f / tenTo exponent.natAbs)
  else if f == 0 then some f
  else if 0 ≤ exponent then none
  else scale (f / tenTo 308) (exponent + 308)
termination_by (-exponent).toNat

/-- The value of an exponent. -/
def exponentValue : Option Exponent → Int
  | none => 0
  | some ⟨false, digits⟩ => digitsValue digits
  | some ⟨true, digits⟩ => -digitsValue digits

/-- The double of a numeral. -/
def toDouble (n : Numeral) : Option Float := do
  let (whole, raised) := absorb 0 n.whole
  let (significand, leftOut) := absorb whole n.fraction
  let lowered : Int := n.fraction.length - leftOut
  let magnitude ← scale (Float.ofNat significand) (raised - lowered + exponentValue n.exponent)
  return if n.negative then -magnitude else magnitude

/-- What a numeral stands for. -/
def value (n : Numeral) : Number :=
  let magnitude := digitsValue n.whole
  let isWhole := n.fraction = [] ∧ n.exponent = none
  if isWhole ∧ !n.negative ∧ magnitude < UInt64.size then .natural magnitude
  else if isWhole ∧ n.negative ∧ 0 < magnitude ∧ magnitude ≤ UInt64.size / 2 then
    .negative magnitude
  else
    match n.toDouble with
    | some f => .double f
    | none => .outOfRange

end Numeral

end BridgeNames.Json
