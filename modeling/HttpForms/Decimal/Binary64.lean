import HttpForms.Decimal.Natural

/-!
# Binary numbers of 64 bits

A finite number is a sign and `mantissa · 2 ^ exponent` with a mantissa of at most 53 bits. Decimal
text becomes the nearest such number, and such a number becomes the shortest decimal that reads back
as itself. Both are done in exact arithmetic on natural numbers.
-/

namespace HttpForms.Decimal

/-- A finite number of 64 bits. The mantissa has all 53 bits unless the exponent is the least. -/
structure Binary64 where
  negative : Bool
  mantissa : Nat
  exponent : Int
  deriving DecidableEq, Repr

namespace Binary64

/-- The least exponent. -/
def leastExponent : Int := -1074

/-- The greatest exponent. -/
def greatestExponent : Int := 971

/-- The number of bits of a mantissa. -/
def mantissaBits : Nat := 53

/-- The two factors that a power splits into, above and below the fraction line. -/
def powerOver (base : Nat) (exponent : Int) : Nat × Nat :=
  (Nat.pow base exponent.toNat, Nat.pow base (-exponent).toNat)

/-- The natural number nearest to a fraction; a half goes to the even neighbour. -/
def roundDiv (num den : Nat) : Nat :=
  let floor := num / den
  let twice := 2 * (num % den)
  if twice < den then floor
  else if twice > den then floor + 1
  else if floor % 2 == 0 then floor else floor + 1

/-- The exponent of the highest binary place of a positive fraction. -/
def log2Floor (num den : Nat) : Int :=
  let guess : Int := (num.log2 : Int) - den.log2
  let (above, below) := powerOver 2 guess
  if num * below < den * above then guess - 1 else guess

/-- The number nearest to a fraction, if it is not past the greatest. -/
def ofFraction? (negative : Bool) (num den : Nat) : Option Binary64 :=
  if num == 0 then some ⟨negative, 0, leastExponent⟩
  else
    let exponent := max (log2Floor num den + 1 - mantissaBits) leastExponent
    let (above, below) := powerOver 2 exponent
    let rounded := roundDiv (num * below) (den * above)
    let (mantissa, exponent) :=
      if rounded == Nat.pow 2 mantissaBits then (Nat.pow 2 (mantissaBits - 1), exponent + 1)
      else (rounded, exponent)
    if exponent > greatestExponent then none else some ⟨negative, mantissa, exponent⟩

/-- The number nearest to `value · 10 ^ scale`, if it is not past the greatest. Numbers that are
hundreds of decimal places out of reach are settled before any power is taken. -/
def ofDecimal? (negative : Bool) (value : Nat) (scale : Int) : Option Binary64 :=
  let places : Int := (digits value).length + scale
  if value == 0 || places < -400 then some ⟨negative, 0, leastExponent⟩
  else if places > 400 then none
  else
    let (above, below) := powerOver 10 scale
    ofFraction? negative (value * above) below

/-! ## Shortest decimals -/

/-- The exponent of the first decimal place of a positive fraction. -/
def log10Floor (num den : Nat) : Int :=
  if den ≤ num then ((digits (num / den)).length : Int) - 1
  else -((digits ((den + num - 1) / num - 1)).length : Int)

/-- The two ends of the range of fractions that read back as the number, over one denominator, with
the number itself between them: low end, number, high end, denominator. -/
def readBackRange (x : Binary64) : Nat × Nat × Nat × Nat :=
  let (above, below) := powerOver 2 x.exponent
  let centre := 4 * x.mantissa * above
  let narrow := x.mantissa == Nat.pow 2 (mantissaBits - 1) && x.exponent > leastExponent
  (centre - (if narrow then above else 2 * above), centre, centre + 2 * above, 4 * below)

/-- Whether `candidate / 10 ^ scale` reads back as the number. The ends of the range count when the
mantissa is even. -/
def readsBack (x : Binary64) (candidate : Nat) (scale : Int) : Bool :=
  let (low, _, high, den) := x.readBackRange
  let (above, below) := powerOver 10 scale
  let scaled := candidate * den * below
  if x.mantissa % 2 == 0 then low * above ≤ scaled && scaled ≤ high * above
  else low * above < scaled && scaled < high * above

/-- The neighbour of the number on a grid of decimals that reads back; of two, the nearer one, and
the even one if they are equally near. -/
def onGrid? (x : Binary64) (scale : Int) : Option Nat :=
  let (_, centre, _, den) := x.readBackRange
  let (above, below) := powerOver 10 scale
  let num := centre * above
  let den := den * below
  let floor := num / den
  match x.readsBack floor scale, x.readsBack (floor + 1) scale with
  | true, true => some (roundDiv num den)
  | true, false => some floor
  | false, true => some (floor + 1)
  | false, false => none

/-- The first grid, of those with `count` more digits to try, on which a neighbour reads back. -/
def firstGrid (x : Binary64) (scale : Int) : Nat → Nat × Int
  | 0 => ((x.onGrid? scale).getD 0, scale)
  | count + 1 =>
    match x.onGrid? scale with
    | some candidate => (candidate, scale)
    | none => firstGrid x (scale + 1) count

/-- A row of digits without the zeros at its end. -/
def dropTrailingZeros (ds : List Char) : List Char :=
  (ds.reverse.dropWhile (· == '0')).reverse

/-- The fewest digits that read back as a positive number, and the exponent of the first of them.
Seventeen digits always do. -/
def shortest (x : Binary64) : List Char × Int :=
  let (above, below) := powerOver 2 x.exponent
  let (candidate, scale) := x.firstGrid (-(log10Floor (x.mantissa * above) below)) 16
  let ds := digits candidate
  (dropTrailingZeros ds, ds.length - 1 - scale)

end Binary64

/-! ## Layout of a number -/

/-- Where a layout changes from plain digits to a power of ten. -/
structure Layout where
  /-- The least exponent of the first digit that is written plainly. -/
  plainFrom : Int
  /-- The first exponent that is no longer written plainly. -/
  plainBelow : Int
  deriving Repr

namespace Layout

/-- Digits with a point, at least one digit on either side. -/
def plain (ds : List Char) (exponent : Int) : List Char :=
  if exponent < 0 then
    ['0', '.'] ++ List.replicate (-exponent - 1).toNat '0' ++ ds
  else
    let whole := exponent.toNat + 1
    let fraction := ds.drop whole
    ds.take whole ++ List.replicate (whole - ds.length) '0' ++ ['.'] ++
      (if fraction.isEmpty then ['0'] else fraction)

/-- One digit, the others after a point, and the power of ten with its sign. -/
def scientific (ds : List Char) (exponent : Int) : List Char :=
  ds.take 1 ++ (if ds.length > 1 then '.' :: ds.drop 1 else []) ++
    ['e', if exponent < 0 then '-' else '+'] ++ digits exponent.natAbs

/-- The text of a number. -/
def render (layout : Layout) (x : Binary64) : String :=
  let sign := if x.negative then ['-'] else []
  if x.mantissa == 0 then String.ofList (sign ++ ['0', '.', '0'])
  else
    let (ds, exponent) := x.shortest
    let body :=
      if layout.plainFrom ≤ exponent && exponent < layout.plainBelow then plain ds exponent
      else scientific ds exponent
    String.ofList (sign ++ body)

end Layout

end HttpForms.Decimal
