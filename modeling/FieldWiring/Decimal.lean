/-!
# Decimals and binary64 magnitudes

Numbers in settings are kept as binary64 and written in decimal.  Both ways are taken in
exact arithmetic on whole numbers, so that every rounding is explicit.
-/

namespace FieldWiring

/-! ## Decimals

A decimal is a coefficient and a power of ten.  It is written in positional form, with
all of its zeros, however long that gets.
-/

/-- The number `coefficient * 10 ^ exponent`. -/
structure Decimal where
  coefficient : Nat
  exponent : Int
deriving DecidableEq, Repr

namespace Decimal

def digits (number : Nat) : List Char := Nat.toDigits 10 number

/-- Writes a decimal with a point where one is needed, and never with an exponent. -/
def positional (decimal : Decimal) : String :=
  let written := digits decimal.coefficient
  if 0 ≤ decimal.exponent then
    String.ofList (written ++ List.replicate decimal.exponent.toNat '0')
  else
    let places := (-decimal.exponent).toNat
    let padded := List.replicate (places + 1 - written.length) '0' ++ written
    let whole := padded.length - places
    String.ofList (padded.take whole ++ '.' :: padded.drop whole)

end Decimal

/-! ## Magnitudes

Every finite binary64 magnitude is a whole multiple of the least positive one, so a
magnitude is kept as a mantissa and a number of doublings of that unit.  Products and
quotients are rounded to the nearest magnitude in exact arithmetic, and a tie goes to
the even mantissa.  A decimal is brought to binary64 through them.
-/

/-- The number `mantissa * 2 ^ doublings` in units of `2 ^ -1074`. -/
structure Binary64 where
  mantissa : Nat
  doublings : Nat
deriving DecidableEq, Repr

namespace Binary64

def precision : Nat := 53

def maxDoublings : Nat := 2045

def unitsPerOne : Nat := Nat.pow 2 1074

def divNearest (numerator denominator : Nat) : Nat :=
  let quotient := numerator / denominator
  let twice := 2 * (numerator % denominator)
  if twice < denominator then quotient
  else if denominator < twice then quotient + 1
  else quotient + quotient % 2

/-- The magnitude nearest to a quotient of units, or nothing when it is not finite. -/
def ofQuotient? (numerator denominator : Nat) : Option Binary64 :=
  let quotient := numerator / denominator
  let doublings := if quotient = 0 then 0 else quotient.log2 + 1 - precision
  let mantissa := divNearest numerator (denominator * Nat.pow 2 doublings)
  let rounded : Binary64 :=
    if mantissa = Nat.pow 2 precision then ⟨Nat.pow 2 (precision - 1), doublings + 1⟩
    else ⟨mantissa, doublings⟩
  if rounded.doublings ≤ maxDoublings then some rounded else none

def units (magnitude : Binary64) : Nat := magnitude.mantissa * Nat.pow 2 magnitude.doublings

def ofNat? (number : Nat) : Option Binary64 := ofQuotient? (number * unitsPerOne) 1

def mul? (left right : Binary64) : Option Binary64 :=
  ofQuotient? (left.units * right.units) unitsPerOne

def div? (left right : Binary64) : Option Binary64 :=
  ofQuotient? (left.units * unitsPerOne) right.units

/-- The greatest exponent with a finite power of ten. -/
def maxPower : Nat := 308

/-- Divides by a power of ten, of which none is greater than the greatest finite one.
A larger exponent is taken in several steps.  Two of the greatest steps already bring
every whole number of 64 bits to zero, where further ones change nothing. -/
def dividePower? (magnitude : Binary64) (exponent : Nat) : Option Binary64 :=
  let steps := (exponent - 1) / maxPower
  let exponents := List.replicate (min steps 2) maxPower ++ [exponent - steps * maxPower]
  exponents.foldlM (fun quotient power => (ofNat? (Nat.pow 10 power)).bind quotient.div?) magnitude

/-- Brings a decimal to binary64, or to nothing when it gets out of range.  First the
coefficient is rounded, and then its product or quotient with a power of ten, which is
itself rounded.  So the result may be a few units away from the nearest magnitude. -/
def ofDecimal? (decimal : Decimal) : Option Binary64 := do
  let coefficient ← ofNat? decimal.coefficient
  if decimal.exponent < 0 then coefficient.dividePower? (-decimal.exponent).toNat
  else if decimal.exponent ≤ maxPower then
    coefficient.mul? (← ofNat? (Nat.pow 10 decimal.exponent.toNat))
  else if decimal.coefficient = 0 then some coefficient
  else none

end Binary64

/-! ## Shortest decimals

A binary64 magnitude is written with the fewest digits that tell it apart from all other
magnitudes.  The decimals whose nearest magnitude it is fill an interval around it; the
coarsest grid of decimals with a point in that interval gives the digits, and of its
points the one nearest to the magnitude is taken.
-/

namespace Binary64

/-- The interval of the numbers that round to a magnitude, in quarters of a unit. -/
structure Neighbourhood where
  low : Nat
  centre : Nat
  high : Nat
  /-- Whether the ends belong to it. -/
  closed : Bool

/-- Half a gap lies on each side of a magnitude.  Below a power of two the gap is half
as wide, except at the bottom, where all gaps are equal.  A number on an end is rounded
to an even mantissa. -/
def neighbourhood (magnitude : Binary64) : Neighbourhood :=
  let scale := Nat.pow 2 magnitude.doublings
  let narrow := magnitude.mantissa == Nat.pow 2 (precision - 1) && magnitude.doublings != 0
  { low := (4 * magnitude.mantissa - if narrow then 1 else 2) * scale
    centre := 4 * magnitude.mantissa * scale
    high := (4 * magnitude.mantissa + 2) * scale
    closed := magnitude.mantissa % 2 == 0 }

/-- The multiple of `10 ^ exponent` in the neighbourhood that is nearest to its centre,
if there is one; of two equally near ones the greater. -/
def Neighbourhood.onGrid? (around : Neighbourhood) (exponent : Int) : Option Decimal :=
  let fine := Nat.pow 10 (-exponent).toNat
  let step := Nat.pow 10 exponent.toNat * (4 * unitsPerOne)
  let centre := around.centre * fine
  let below := centre / step
  let within (coefficient : Nat) : Bool :=
    let point := coefficient * step
    if around.closed then around.low * fine ≤ point && point ≤ around.high * fine
    else around.low * fine < point && point < around.high * fine
  let nearer := if 2 * (centre % step) < step then below else below + 1
  let farther := if 2 * (centre % step) < step then below + 1 else below
  if within nearer then some ⟨nearer, exponent⟩
  else if within farther then some ⟨farther, exponent⟩
  else none

/-- The exponents of all grids that can be needed, the coarsest first. -/
def gridExponents : List Int :=
  (List.range 633).map fun (index : Nat) => 308 - (index : Int)

/-- The shortest decimal whose nearest magnitude this is. -/
def shortest (magnitude : Binary64) : Decimal :=
  if magnitude.mantissa = 0 then ⟨0, 0⟩
  else (gridExponents.findSome? magnitude.neighbourhood.onGrid?).getD ⟨0, 0⟩

end Binary64

end FieldWiring
