/-! The finite magnitudes of the binary format with 53 bits of precision. -/

namespace Lexicon

/-- The magnitude is the mantissa times two to the exponent. -/
structure Binary64 where
  mantissa : Nat
  exponent : Int
  deriving DecidableEq, Repr

/-- The nearest integer to a quotient, where a tie goes to the even one. -/
def roundQuotient (numerator denominator : Nat) : Nat :=
  let floor := numerator / denominator
  let twice := 2 * (numerator % denominator)
  if twice < denominator ∨ (twice = denominator ∧ floor % 2 = 0) then floor else floor + 1

namespace Binary64

def zero : Binary64 := ⟨0, -1074⟩

instance : Inhabited Binary64 := ⟨zero⟩

/-- The quotient in units of a power of two, as a numerator and a denominator. -/
def inUnits (numerator denominator : Nat) (exponent : Int) : Nat × Nat :=
  if 0 ≤ exponent then (numerator, denominator * Nat.pow 2 exponent.toNat)
  else (numerator * Nat.pow 2 (-exponent).toNat, denominator)

/-- The exponent whose unit leaves 53 bits before the point, or the least one of the format. -/
def unitOf (numerator denominator : Nat) : Int :=
  let low : Int := numerator.log2 - denominator.log2 - 53
  let scaled := inUnits numerator denominator low
  max (-1074) (if scaled.1 < Nat.pow 2 53 * scaled.2 then low else low + 1)

/-- A quotient is rounded to the nearest magnitude, and there is none when it is too large. -/
def ofQuotient? (numerator denominator : Nat) : Option Binary64 :=
  if numerator = 0 then some zero
  else
    let unit := unitOf numerator denominator
    let scaled := inUnits numerator denominator unit
    let mantissa := roundQuotient scaled.1 scaled.2
    let value : Binary64 :=
      if mantissa = Nat.pow 2 53 then ⟨Nat.pow 2 52, unit + 1⟩ else ⟨mantissa, unit⟩
    if value.exponent ≤ 971 then some value else none

def ofNat? (number : Nat) : Option Binary64 := ofQuotient? number 1

/-- The magnitude as an exact quotient. -/
def toQuotient (value : Binary64) : Nat × Nat :=
  if 0 ≤ value.exponent then (value.mantissa * Nat.pow 2 value.exponent.toNat, 1)
  else (value.mantissa, Nat.pow 2 (-value.exponent).toNat)

def mul? (first second : Binary64) : Option Binary64 :=
  let one := first.toQuotient
  let two := second.toQuotient
  ofQuotient? (one.1 * two.1) (one.2 * two.2)

def div? (first second : Binary64) : Option Binary64 :=
  let one := first.toQuotient
  let two := second.toQuotient
  ofQuotient? (one.1 * two.2) (one.2 * two.1)

def powerOfTen? (power : Nat) : Option Binary64 := ofNat? (Nat.pow 10 power)

/-- A magnitude is scaled by one rounded power of ten, after as many steps of the largest power as a
small scale needs. -/
def scaleTen? (value : Binary64) (power : Int) : Option Binary64 :=
  if power.natAbs ≤ 308 then
    (powerOfTen? power.natAbs).bind fun ten =>
      if 0 ≤ power then value.mul? ten else value.div? ten
  else if value.mantissa = 0 then some value
  else if 0 ≤ power then none
  else
    ((powerOfTen? 308).bind value.div?).bind fun smaller => smaller.scaleTen? (power + 308)
termination_by power.natAbs

end Binary64

end Lexicon
