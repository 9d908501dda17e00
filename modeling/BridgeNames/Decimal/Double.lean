import BridgeNames.Decimal.Shortest

/-!
# Doubles as text

A finite double is written with its shortest digits. The notation is positional from `0.00001` up
to sixteen digits before the point, always with a fraction; beyond that it has an exponent with a
sign.
-/

namespace BridgeNames.Decimal

/-- The distance of the mantissas of two powers of two that follow each other: a mantissa has 52
bits after its first one. -/
def mantissaSpan : Nat := 0x10000000000000

/-- The magnitude of a finite double that is not zero. -/
def binaryOf (f : Float) : Binary :=
  let bits := f.toBits.toNat
  let field : Nat := bits / mantissaSpan % 0x800
  let fraction : Nat := bits % mantissaSpan
  if field == 0 then ⟨fraction, -1074, false⟩
  else ⟨mantissaSpan + fraction, (field : Int) - 1075, fraction == 0 && field > 1⟩

/-- Whether a double has a minus sign; zero may have one. -/
def hasMinus (f : Float) : Bool := f.toBits.toNat / mantissaSpan / 0x800 == 1

/-- Positional notation of digits whose first one stands for `10 ^ place`. -/
def positional (digits : List Char) (place : Int) : List Char :=
  if place < 0 then "0.".toList ++ List.replicate (-place - 1).toNat '0' ++ digits
  else
    let before := place.toNat + 1
    let padded := digits ++ List.replicate (before - digits.length) '0'
    let fraction := padded.drop before
    padded.take before ++ '.' :: (if fraction = [] then ['0'] else fraction)

/-- Exponent notation of digits whose first one stands for `10 ^ place`. -/
def exponential (digits : List Char) (place : Int) : List Char :=
  digits.take 1 ++ (if digits.length ≤ 1 then [] else '.' :: digits.drop 1) ++
    ['e', if place < 0 then '-' else '+'] ++ Nat.toDigits 10 place.natAbs

/-- The least and the greatest place of the first digit in positional notation. -/
def positionalPlaces : Int × Int := (-5, 15)

/-- A decimal number as text. -/
def Scaled.text (s : Scaled) : List Char :=
  let digits := Nat.toDigits 10 s.digits
  let place := s.exponent + digits.length - 1
  if positionalPlaces.1 ≤ place ∧ place ≤ positionalPlaces.2 then positional digits place
  else exponential digits place

/-- A finite double as text. -/
def doubleText (f : Float) : String :=
  let magnitude := if f == 0 then "0.0".toList else (binaryOf f).shortest.text
  String.ofList (if hasMinus f then '-' :: magnitude else magnitude)

end BridgeNames.Decimal
