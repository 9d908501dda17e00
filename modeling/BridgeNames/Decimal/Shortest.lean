/-!
# The fewest digits that read back

A positive binary number `m · 2 ^ q` of limited precision stands for a whole interval of real
numbers, all of which are rounded to it. Its shortest decimal is the one with the fewest digits in
that interval, and among those the nearest.

The search runs over the decimal grids from coarse to fine. On each grid only the two neighbours
of the number can be nearest, and the first grid with a neighbour inside the interval wins. All
comparisons are between natural numbers.
-/

namespace BridgeNames.Decimal

/-- A positive binary number: `mantissa · 2 ^ exponent`. -/
structure Binary where
  mantissa : Nat
  exponent : Int
  /-- Whether the next number below is only half as far away as the next one above. -/
  closerBelow : Bool
  deriving DecidableEq, Repr

/-- A decimal number: `digits · 10 ^ exponent`. -/
structure Scaled where
  digits : Nat
  exponent : Int
  deriving DecidableEq, Repr

/-- The power for a natural exponent, and one for a negative exponent. -/
def posPow (base : Nat) (exponent : Int) : Nat := Nat.pow base exponent.toNat

namespace Binary

/-- Four times the number, and ten to the grid's exponent, over one common denominator. -/
def onGrid (b : Binary) (grid : Int) : Nat × Nat :=
  (b.mantissa * 4 * posPow 2 b.exponent * posPow 10 (-grid),
    4 * posPow 2 (-b.exponent) * posPow 10 grid)

/-- A quarter of the distance to the next number above, over the same denominator. -/
def quarterStep (b : Binary) (grid : Int) : Nat := posPow 2 b.exponent * posPow 10 (-grid)

/-- Whether a point of the grid is rounded to the number. Points half way between two numbers are
rounded to the one with the even mantissa. -/
def rounds (b : Binary) (grid : Int) (point : Nat) : Bool :=
  let (number, unit) := b.onGrid grid
  let quarter := b.quarterStep grid
  let below := if b.closerBelow then quarter else 2 * quarter
  let above := 2 * quarter
  let place := point * unit
  if b.mantissa % 2 == 0 then number ≤ place + below && place ≤ number + above
  else number < place + below && place < number + above

/-- The nearest of the number's two neighbours on a grid that is rounded to it, if one is. Of two
that are equally near the even one is taken. -/
def nearest? (b : Binary) (grid : Int) : Option Nat :=
  let (number, unit) := b.onGrid grid
  let low := number / unit
  let twice := 2 * (number - low * unit)
  let lowFirst := twice < unit || (twice == unit && low % 2 == 0)
  let candidates := if lowFirst then [low, low + 1] else [low + 1, low]
  candidates.find? fun point => point != 0 && b.rounds grid point

/-- The shortest decimal of the number. The grids reach from above the greatest double to below
the smallest one. -/
def shortest (b : Binary) : Scaled :=
  let found := (List.range 700).findSome? fun (i : Nat) =>
    let grid : Int := 320 - (i : Int)
    (b.nearest? grid).map fun digits => (⟨digits, grid⟩ : Scaled)
  found.getD ⟨0, 0⟩

end Binary

end BridgeNames.Decimal
