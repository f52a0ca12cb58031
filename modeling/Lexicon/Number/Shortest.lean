import Lexicon.Number.Binary64

/-! The shortest decimal of a magnitude is written with a point and no exponent. -/

namespace Lexicon

/-- The decimal is the digits times ten to the power. -/
structure Decimal where
  digits : Nat
  power : Int
  deriving DecidableEq, Repr

namespace Decimal

/-- At least one digit stands before the point and one after it. -/
def render (decimal : Decimal) : String :=
  let digits := Nat.toDigits 10 decimal.digits
  let zeros (count : Nat) := List.replicate count '0'
  let places := (-decimal.power).toNat
  String.ofList <|
    if 0 ≤ decimal.power then digits ++ zeros decimal.power.toNat ++ ['.', '0']
    else if places < digits.length then
      digits.take (digits.length - places) ++ '.' :: digits.drop (digits.length - places)
    else '0' :: '.' :: zeros (places - digits.length) ++ digits

end Decimal

/-- The bounds of the numbers that round to a magnitude and the magnitude between them, as numerators
over one denominator. -/
structure RoundingRange where
  low : Nat
  exact : Nat
  high : Nat
  denominator : Nat
  deriving Repr

namespace Binary64

def roundingRange (value : Binary64) : RoundingRange :=
  let below := if value.mantissa = Nat.pow 2 52 ∧ -1074 < value.exponent then 1 else 2
  let unit := toQuotient ⟨1, value.exponent - 2⟩
  let quarters := 4 * value.mantissa
  ⟨(quarters - below) * unit.1, quarters * unit.1, (quarters + 2) * unit.1, unit.2⟩

/-- A decimal other than zero rounds to the magnitude between the bounds, which count when the mantissa
is even. -/
def hits (value : Binary64) (decimal : Decimal) : Bool :=
  let range := value.roundingRange
  let shift := Nat.pow 10 (-decimal.power).toNat
  let point := decimal.digits * (range.denominator * Nat.pow 10 decimal.power.toNat)
  0 < decimal.digits &&
    (if value.mantissa % 2 = 0 then range.low * shift ≤ point && point ≤ range.high * shift
      else range.low * shift < point && point < range.high * shift)

/-- The magnitude in steps of a power of ten, as a numerator and a denominator. -/
def inSteps (value : Binary64) (power : Int) : Nat × Nat :=
  (value.roundingRange.exact * Nat.pow 10 (-power).toNat,
    value.roundingRange.denominator * Nat.pow 10 power.toNat)

/-- The multiple of a power of ten that rounds to the magnitude. Of two multiples the nearer one is
taken, and the even one in a tie. -/
def onGrid? (value : Binary64) (power : Int) : Option Decimal :=
  let scaled := value.inSteps power
  let steps := scaled.1 / scaled.2
  match value.hits ⟨steps, power⟩, value.hits ⟨steps + 1, power⟩ with
  | true, true => some ⟨roundQuotient scaled.1 scaled.2, power⟩
  | true, false => some ⟨steps, power⟩
  | false, true => some ⟨steps + 1, power⟩
  | false, false => none

/-- The powers of ten of all grids, the coarsest first. -/
def grids : List Int := (List.range 640).map fun step : Nat => (309 : Int) - step

/-- The coarsest grid with a hit gives the fewest digits. -/
def shortest (value : Binary64) : Decimal :=
  if value.mantissa = 0 then ⟨0, 0⟩ else (grids.findSome? value.onGrid?).getD ⟨0, 0⟩

end Binary64

end Lexicon
