import Lexicon.Number.Binary64
import Mathlib.Algebra.Order.Field.Power
import Mathlib.Algebra.Order.Field.Rat
import Mathlib.Data.Nat.Log
import Mathlib.Tactic.FieldSimp
import Mathlib.Tactic.Linarith
import Mathlib.Tactic.NormNum
import Mathlib.Tactic.Positivity
import Mathlib.Tactic.Ring

/-! A quotient is rounded to the magnitude of the format that covers it. -/

namespace Lexicon

/-- A number rounds to a whole number at most half a unit away, and at half a unit to an even one. -/
structure RoundsTo (number : ℚ) (whole : Nat) : Prop where
  lower : whole - 1 / 2 ≤ number
  upper : number ≤ whole + 1 / 2
  odd : whole % 2 = 1 → whole - 1 / 2 < number ∧ number < whole + 1 / 2

section RoundQuotient

variable {numerator denominator : Nat}

/-- A quotient is rounded down or to the next number. -/
theorem roundQuotient_eq_div_or (numerator denominator : Nat) :
    roundQuotient numerator denominator = numerator / denominator ∨
      roundQuotient numerator denominator = numerator / denominator + 1 := by
  simp only [roundQuotient]
  split
  · exact .inl rfl
  · exact .inr rfl

/-- Rounding a quotient is a comparison of whole numbers. -/
theorem roundsTo_div_iff (positive : 0 < denominator) (whole : Nat) :
    RoundsTo (numerator / denominator) whole ↔
      2 * (whole * denominator) ≤ 2 * numerator + denominator ∧
        2 * numerator ≤ 2 * (whole * denominator) + denominator ∧
          (whole % 2 = 1 → 2 * (whole * denominator) < 2 * numerator + denominator ∧
            2 * numerator < 2 * (whole * denominator) + denominator) := by
  have unit : (0 : ℚ) < denominator := mod_cast positive
  have cast : ∀ first second : Nat,
      (first ≤ second ↔ (first : ℚ) ≤ second) ∧ (first < second ↔ (first : ℚ) < second) :=
    fun first second => ⟨Nat.cast_le.symm, Nat.cast_lt.symm⟩
  simp only [(cast _ _).1, (cast _ _).2, Nat.cast_add, Nat.cast_mul, Nat.cast_ofNat]
  constructor
  · rintro ⟨lower, upper, odd⟩
    rw [le_div_iff₀ unit] at lower
    rw [div_le_iff₀ unit] at upper
    rw [lt_div_iff₀ unit, div_lt_iff₀ unit] at odd
    exact ⟨by linarith, by linarith, fun one => ⟨by linarith [(odd one).1], by linarith [(odd one).2]⟩⟩
  · rintro ⟨lower, upper, odd⟩
    refine ⟨?_, ?_, fun one => ⟨?_, ?_⟩⟩
    · rw [le_div_iff₀ unit]
      linarith
    · rw [div_le_iff₀ unit]
      linarith
    · rw [lt_div_iff₀ unit]
      linarith [(odd one).1]
    · rw [div_lt_iff₀ unit]
      linarith [(odd one).2]

/-- The rounded quotient is the whole number that the quotient rounds to. -/
theorem roundQuotient_eq_iff (positive : 0 < denominator) (whole : Nat) :
    roundQuotient numerator denominator = whole ↔ RoundsTo (numerator / denominator) whole := by
  have split := Nat.div_add_mod numerator denominator
  have small := Nat.mod_lt numerator positive
  rw [Nat.mul_comm] at split
  have next : (numerator / denominator + 1) * denominator =
      numerator / denominator * denominator + denominator := by rw [Nat.add_mul, Nat.one_mul]
  rw [roundsTo_div_iff positive, roundQuotient]
  constructor
  · rintro rfl
    split
    · omega
    · rw [next]
      omega
  · rintro ⟨lower, upper, odd⟩
    have least : numerator / denominator ≤ whole := by
      by_contra below
      have := Nat.mul_le_mul_right denominator (Nat.not_le.mp below)
      rw [Nat.succ_mul] at this
      omega
    have most : whole ≤ numerator / denominator + 1 := by
      by_contra above
      have := Nat.mul_le_mul_right denominator (Nat.not_le.mp above)
      rw [Nat.succ_mul, next] at this
      omega
    have sides : whole = numerator / denominator ∨ whole = numerator / denominator + 1 := by omega
    rcases sides with rfl | rfl
    · split <;> omega
    · rw [next] at lower upper odd
      split <;> omega

/-- A number rounds to one whole number. -/
theorem RoundsTo.unique {number : ℚ} {first second : Nat} (one : RoundsTo number first)
    (two : RoundsTo number second) : first = second := by
  have above : first ≤ second + 1 := by
    have : (first : ℚ) ≤ second + 1 := by linarith [one.lower, two.upper]
    exact_mod_cast this
  have below : second ≤ first + 1 := by
    have : (second : ℚ) ≤ first + 1 := by linarith [two.lower, one.upper]
    exact_mod_cast this
  by_contra differ
  -- Neighbours meet at half a unit from both, which only the even one takes.
  have neighbours : first = second + 1 ∨ second = first + 1 := by omega
  rcases neighbours with rfl | rfl
  · have bounds := one.lower
    have meets := two.upper
    push_cast at bounds
    rcases Nat.mod_two_eq_zero_or_one second with even | odd
    · have strict := (one.odd (by omega)).1
      push_cast at strict
      linarith
    · linarith [(two.odd odd).2]
  · have bounds := two.lower
    have meets := one.upper
    push_cast at bounds
    rcases Nat.mod_two_eq_zero_or_one first with even | odd
    · have strict := (two.odd (by omega)).1
      push_cast at strict
      linarith
    · linarith [(one.odd odd).2]

end RoundQuotient

namespace Binary64

/-- The exact value of a magnitude. -/
def toRat (value : Binary64) : ℚ := value.mantissa * 2 ^ value.exponent

/-- All 53 bits are used unless the unit is the least one. -/
structure InFormat (value : Binary64) : Prop where
  bits : value.mantissa < 2 ^ 53
  least : -1074 ≤ value.exponent
  most : value.exponent ≤ 971
  normal : -1074 < value.exponent → 2 ^ 52 ≤ value.mantissa

theorem inFormat_zero : zero.InFormat := ⟨by decide, by decide, by decide, by decide⟩

/-- The part of a unit below a magnitude that rounds to it. Where the unit halves just below, this is
a quarter. -/
def below (value : Binary64) : ℚ :=
  if value.mantissa = 2 ^ 52 ∧ -1074 < value.exponent then 1 / 4 else 1 / 2

/-- The number lies between the bounds of what rounds to the magnitude, where the bounds belong to an
even mantissa. -/
structure Covers (value : Binary64) (number : ℚ) : Prop where
  lower : (value.mantissa - value.below) * 2 ^ value.exponent ≤ number
  upper : number ≤ (value.mantissa + 1 / 2) * 2 ^ value.exponent
  odd : value.mantissa % 2 = 1 → (value.mantissa - value.below) * 2 ^ value.exponent < number ∧
    number < (value.mantissa + 1 / 2) * 2 ^ value.exponent

section Units

variable {numerator denominator : Nat}

theorem inUnits_positive (exponent : Int) (positive : 0 < denominator) :
    0 < (inUnits numerator denominator exponent).2 := by
  unfold inUnits
  split
  · exact Nat.mul_pos positive (Nat.two_pow_pos _)
  · exact positive

/-- A quotient in units is the quotient divided by the unit. -/
theorem inUnits_eq (numerator denominator : Nat) (exponent : Int) :
    ((inUnits numerator denominator exponent).1 : ℚ) / (inUnits numerator denominator exponent).2 =
      numerator / denominator / 2 ^ exponent := by
  unfold inUnits
  split
  · rename_i whole
    obtain ⟨count, rfl⟩ := Int.eq_ofNat_of_zero_le whole
    simp only [Int.toNat_natCast, Nat.pow_eq, Nat.cast_mul, Nat.cast_pow, Nat.cast_ofNat,
      zpow_natCast, div_div]
  · rename_i part
    obtain ⟨count, same⟩ := Int.eq_ofNat_of_zero_le (show 0 ≤ -exponent by omega)
    obtain rfl : exponent = -count := by omega
    simp only [neg_neg, Int.toNat_natCast, Nat.pow_eq, Nat.cast_mul, Nat.cast_pow, Nat.cast_ofNat,
      zpow_neg, zpow_natCast, div_inv_eq_mul]
    ring

/-- Both logarithms bound the quotient from each side. -/
theorem quotient_log2 (first : 0 < numerator) (second : 0 < denominator) :
    (2 : ℚ) ^ ((numerator.log2 : Int) - denominator.log2 - 1) ≤ numerator / denominator ∧
      (numerator / denominator : ℚ) < 2 ^ ((numerator.log2 : Int) - denominator.log2 + 1) := by
  have one : (2 : ℚ) ^ numerator.log2 ≤ numerator := mod_cast Nat.log2_self_le first.ne'
  have two : (numerator : ℚ) < 2 ^ (numerator.log2 + 1) := mod_cast Nat.lt_log2_self
  have three : (2 : ℚ) ^ denominator.log2 ≤ denominator := mod_cast Nat.log2_self_le second.ne'
  have four : (denominator : ℚ) < 2 ^ (denominator.log2 + 1) := mod_cast Nat.lt_log2_self
  have positive : (0 : ℚ) < denominator := mod_cast second
  constructor
  · rw [le_div_iff₀ positive]
    calc (2 : ℚ) ^ ((numerator.log2 : Int) - denominator.log2 - 1) * denominator
        ≤ 2 ^ ((numerator.log2 : Int) - denominator.log2 - 1) * 2 ^ (denominator.log2 + 1) := by
          gcongr
      _ = 2 ^ numerator.log2 := by
          rw [← zpow_natCast, ← zpow_natCast, ← zpow_add₀ (by norm_num)]
          congr 1
          push_cast
          ring
      _ ≤ numerator := one
  · rw [div_lt_iff₀ positive]
    calc (numerator : ℚ) < 2 ^ (numerator.log2 + 1) := two
      _ = 2 ^ ((numerator.log2 : Int) - denominator.log2 + 1) * 2 ^ denominator.log2 := by
          rw [← zpow_natCast, ← zpow_natCast, ← zpow_add₀ (by norm_num)]
          congr 1
          push_cast
          ring
      _ ≤ 2 ^ ((numerator.log2 : Int) - denominator.log2 + 1) * denominator := by gcongr

/-- In the unit a number stays below 53 bits, and it uses them all unless the unit is the least one. -/
structure FitsUnit (number : ℚ) (unit : Int) : Prop where
  least : -1074 ≤ unit
  lower : -1074 < unit → 2 ^ 52 * 2 ^ unit ≤ number
  upper : number < 2 ^ 53 * 2 ^ unit

/-- A number fits one unit. -/
theorem FitsUnit.le_of_fits {number : ℚ} {first second : Int} (one : FitsUnit number first)
    (two : FitsUnit number second) : first ≤ second := by
  by_contra above
  have high := one.lower (by have := two.least; omega)
  have step : (2 : ℚ) ^ (second + 1) ≤ 2 ^ first := zpow_le_zpow_right₀ (by norm_num) (by omega)
  rw [zpow_add_one₀ (by norm_num)] at step
  linarith [two.upper]

/-- A quotient fits the unit that is chosen for it. -/
theorem fitsUnit_unitOf (first : 0 < numerator) (second : 0 < denominator) :
    FitsUnit (numerator / denominator) (unitOf numerator denominator) := by
  obtain ⟨lower, upper⟩ := quotient_log2 first second
  -- The estimate can be one too low, which the comparison finds out.
  obtain ⟨low, estimate⟩ :
      ∃ low : Int, low = (numerator.log2 : Int) - denominator.log2 - 53 := ⟨_, rfl⟩
  have compared : (inUnits numerator denominator low).1 <
      Nat.pow 2 53 * (inUnits numerator denominator low).2 ↔
        (numerator / denominator : ℚ) < 2 ^ 53 * 2 ^ low := by
    have unit : (0 : ℚ) < (inUnits numerator denominator low).2 :=
      mod_cast inUnits_positive low second
    rw [← div_lt_iff₀ (zpow_pos (by norm_num) _), ← inUnits_eq, div_lt_iff₀ unit]
    exact_mod_cast Iff.rfl
  have twice : (2 : ℚ) ^ (low + 1) = 2 ^ low * 2 := zpow_add_one₀ (by norm_num) low
  have bottom : (2 : ℚ) ^ 52 * 2 ^ low ≤ numerator / denominator := by
    calc (2 : ℚ) ^ 52 * 2 ^ low = 2 ^ ((numerator.log2 : Int) - denominator.log2 - 1) := by
          rw [← zpow_natCast, ← zpow_add₀ (by norm_num)]
          congr 1
          omega
      _ ≤ numerator / denominator := lower
  have top : (numerator / denominator : ℚ) < 2 ^ 54 * 2 ^ low := by
    calc (numerator / denominator : ℚ) < 2 ^ ((numerator.log2 : Int) - denominator.log2 + 1) := upper
      _ = 2 ^ 54 * 2 ^ low := by
          rw [← zpow_natCast, ← zpow_add₀ (by norm_num)]
          congr 1
          omega
  obtain ⟨unit, chosen, high, within⟩ : ∃ unit : Int,
      unitOf numerator denominator = max (-1074) unit ∧
        2 ^ 52 * 2 ^ unit ≤ (numerator / denominator : ℚ) ∧
          (numerator / denominator : ℚ) < 2 ^ 53 * 2 ^ unit := by
    by_cases short : (numerator / denominator : ℚ) < 2 ^ 53 * 2 ^ low
    · refine ⟨low, ?_, bottom, short⟩
      simp only [unitOf, ← estimate, if_pos (compared.mpr short)]
    · refine ⟨low + 1, ?_, by linarith [not_lt.mp short], by linarith⟩
      simp only [unitOf, ← estimate, if_neg (mt compared.mp short)]
  rw [chosen]
  refine ⟨le_max_left _ _, fun larger => ?_, lt_of_lt_of_le within ?_⟩
  · rwa [max_eq_right (by omega)]
  · gcongr
    · norm_num
    · exact le_max_right _ _

/-- The unit that a quotient fits is chosen. -/
theorem unitOf_eq {unit : Int} (first : 0 < numerator) (second : 0 < denominator)
    (fits : FitsUnit (numerator / denominator) unit) : unitOf numerator denominator = unit :=
  le_antisymm ((fitsUnit_unitOf first second).le_of_fits fits)
    (fits.le_of_fits (fitsUnit_unitOf first second))

/-- A quotient is rounded in units of its exponent. -/
theorem roundQuotient_inUnits_iff (unit : Int) (positive : 0 < denominator) (whole : Nat) :
    roundQuotient (inUnits numerator denominator unit).1 (inUnits numerator denominator unit).2 =
        whole ↔ RoundsTo (numerator / denominator / 2 ^ unit) whole := by
  rw [roundQuotient_eq_iff (inUnits_positive unit positive), inUnits_eq]

end Units

section Rounding

variable {value : Binary64} {number : ℚ} {unit : Int}

theorem below_le (value : Binary64) : value.below ≤ 1 / 2 := by
  unfold below
  split <;> norm_num

theorem quarter_le_below (value : Binary64) : 1 / 4 ≤ value.below := by
  unfold below
  split <;> norm_num

/-- A number that rounds to a mantissa within the bits is covered by the magnitude. -/
theorem inFormat_covers_of_rounds {mantissa : Nat} (fits : FitsUnit number unit)
    (most : unit ≤ 971) (bits : mantissa < 2 ^ 53)
    (rounds : RoundsTo (number / 2 ^ unit) mantissa) :
    InFormat ⟨mantissa, unit⟩ ∧ Covers ⟨mantissa, unit⟩ number := by
  have positive : (0 : ℚ) < 2 ^ unit := zpow_pos (by norm_num) _
  obtain ⟨lower, upper, odd⟩ := rounds
  rw [le_div_iff₀ positive] at lower
  rw [div_le_iff₀ positive] at upper
  rw [lt_div_iff₀ positive, div_lt_iff₀ positive] at odd
  refine ⟨⟨bits, fits.least, most, fun larger => ?_⟩, ?_, upper, fun one => ?_⟩
  · by_contra short
    have short : (mantissa : ℚ) + 1 ≤ 2 ^ 52 := mod_cast Nat.not_le.mp short
    have := fits.lower larger
    nlinarith
  · unfold below
    split
    · rename_i edge
      obtain ⟨rfl, larger⟩ := edge
      have := fits.lower larger
      push_cast
      linarith
    · exact lower
  · have uneven : ¬(mantissa = 2 ^ 52 ∧ -1074 < unit) := by
      rintro ⟨rfl, -⟩
      norm_num at one
    simp only [below, if_neg uneven]
    exact odd one

/-- A number that rounds up to one more bit is covered by the least mantissa of the next unit. -/
theorem inFormat_covers_of_carries (fits : FitsUnit number unit) (most : unit + 1 ≤ 971)
    (rounds : RoundsTo (number / 2 ^ unit) (2 ^ 53)) :
    InFormat ⟨2 ^ 52, unit + 1⟩ ∧ Covers ⟨2 ^ 52, unit + 1⟩ number := by
  have positive : (0 : ℚ) < 2 ^ unit := zpow_pos (by norm_num) _
  have twice : (2 : ℚ) ^ (unit + 1) = 2 ^ unit * 2 := zpow_add_one₀ (by norm_num) unit
  have least := fits.least
  have lower := rounds.lower
  rw [le_div_iff₀ positive] at lower
  have edge : below ⟨2 ^ 52, unit + 1⟩ = 1 / 4 := if_pos ⟨rfl, by simp only; omega⟩
  refine ⟨⟨by norm_num, by simp only; omega, most, fun _ => le_rfl⟩, ?_, ?_, fun one => ?_⟩
  · rw [edge, twice]
    push_cast at lower ⊢
    linarith
  · rw [twice]
    push_cast
    linarith [fits.upper]
  · norm_num at one

/-- A covered number fits the unit of the magnitude and rounds to its mantissa, or it lies below a
change of the unit and rounds up to it. -/
theorem Covers.rounds (covers : value.Covers number) (inFormat : value.InFormat) :
    (FitsUnit number value.exponent ∧ RoundsTo (number / 2 ^ value.exponent) value.mantissa) ∨
      (value.mantissa = 2 ^ 52 ∧ FitsUnit number (value.exponent - 1) ∧
        RoundsTo (number / 2 ^ (value.exponent - 1)) (2 ^ 53)) := by
  have positive : (0 : ℚ) < 2 ^ value.exponent := zpow_pos (by norm_num) _
  have bits : (value.mantissa : ℚ) + 1 ≤ 2 ^ 53 := mod_cast inFormat.bits
  have high := value.below_le
  have low := value.quarter_le_below
  have upper : number < 2 ^ 53 * 2 ^ value.exponent := by nlinarith [covers.upper]
  by_cases fits : -1074 < value.exponent → 2 ^ 52 * 2 ^ value.exponent ≤ number
  · refine .inl ⟨⟨inFormat.least, fits, upper⟩, ?_, ?_, fun one => ⟨?_, ?_⟩⟩
    · rw [le_div_iff₀ positive]
      nlinarith [covers.lower]
    · rw [div_le_iff₀ positive]
      exact covers.upper
    · rw [lt_div_iff₀ positive]
      nlinarith [(covers.odd one).1]
    · rw [div_lt_iff₀ positive]
      exact (covers.odd one).2
  · obtain ⟨larger, short⟩ := Classical.not_imp.mp fits
    have full : (2 : ℚ) ^ 52 ≤ value.mantissa := mod_cast inFormat.normal larger
    have edge : value.mantissa = 2 ^ 52 := by
      by_contra other
      have : (2 : ℚ) ^ 52 + 1 ≤ value.mantissa :=
        mod_cast lt_of_le_of_ne (inFormat.normal larger) (Ne.symm other)
      nlinarith [covers.lower]
    have quarter : value.below = 1 / 4 := if_pos ⟨edge, larger⟩
    have half : (2 : ℚ) ^ value.exponent = 2 ^ (value.exponent - 1) * 2 := by
      rw [← zpow_add_one₀ (by norm_num), sub_add_cancel]
    have smaller : (0 : ℚ) < 2 ^ (value.exponent - 1) := zpow_pos (by norm_num) _
    have lower := covers.lower
    rw [edge, quarter, half] at lower
    rw [half] at short
    push_cast at lower
    refine .inr ⟨edge, ⟨by omega, fun _ => by linarith, by linarith⟩, ?_, ?_, fun one => ?_⟩
    · rw [le_div_iff₀ smaller]
      push_cast
      linarith
    · rw [div_le_iff₀ smaller]
      push_cast
      linarith
    · norm_num at one

/-- Rounding carries into one more bit at most. -/
theorem rounds_le_of_fits {mantissa : Nat} (rounds : RoundsTo (number / 2 ^ unit) mantissa)
    (fits : FitsUnit number unit) : mantissa ≤ 2 ^ 53 := by
  have upper : number / 2 ^ unit < 2 ^ 53 := (div_lt_iff₀ (zpow_pos (by norm_num) _)).mpr fits.upper
  have : (mantissa : ℚ) < 2 ^ 53 + 1 := by linarith [rounds.lower]
  exact Nat.le_of_lt_succ (mod_cast this)

/-- The format has one zero. -/
theorem InFormat.eq_zero (inFormat : value.InFormat) (none : value.mantissa = 0) : value = zero := by
  have least : value.exponent = -1074 := by
    by_contra other
    have := inFormat.normal (lt_of_le_of_ne inFormat.least (Ne.symm other))
    omega
  cases value
  simp_all [zero]

/-- Zero covers zero, and no other magnitude of the format does. -/
theorem covers_zero_iff : value = zero ↔ value.InFormat ∧ value.Covers 0 := by
  constructor
  · rintro rfl
    refine ⟨inFormat_zero, ?_, ?_, fun one => ?_⟩
    · norm_num [zero, below]
    · norm_num [zero]
    · norm_num [zero] at one
  · rintro ⟨inFormat, covers⟩
    have positive : (0 : ℚ) < 2 ^ value.exponent := zpow_pos (by norm_num) _
    have small : (value.mantissa : ℚ) < 1 := by
      have := nonpos_of_mul_nonpos_left covers.lower positive
      linarith [value.below_le]
    exact inFormat.eq_zero (Nat.lt_one_iff.mp (mod_cast small))

end Rounding

/-- A quotient is rounded to the magnitude of the format that covers it, and to none when it is too
large. -/
theorem ofQuotient?_eq_some_iff {numerator denominator : Nat} (positive : 0 < denominator)
    (value : Binary64) : ofQuotient? numerator denominator = some value ↔
      value.InFormat ∧ value.Covers (numerator / denominator) := by
  rcases Nat.eq_zero_or_pos numerator with rfl | more
  · rw [Nat.cast_zero, zero_div, ← covers_zero_iff]
    exact ⟨fun same => (Option.some.inj same).symm, fun same => congrArg some same.symm⟩
  have fits := fitsUnit_unitOf more positive
  simp only [ofQuotient?, if_neg more.ne', Option.ite_none_right_eq_some, Option.some.injEq]
  generalize mantissa : roundQuotient _ _ = rounded
  rw [roundQuotient_inUnits_iff _ positive] at mantissa
  constructor
  · rintro ⟨most, rfl⟩
    have within := rounds_le_of_fits mantissa fits
    by_cases carried : rounded = Nat.pow 2 53
    · rw [if_pos carried] at most ⊢
      rw [carried] at mantissa
      exact inFormat_covers_of_carries fits most mantissa
    · rw [if_neg carried] at most ⊢
      exact inFormat_covers_of_rounds fits most (lt_of_le_of_ne within carried) mantissa
  · rintro ⟨inFormat, covers⟩
    obtain ⟨unit, exact⟩ | ⟨edge, unit, exact⟩ := covers.rounds inFormat
    · rw [unitOf_eq more positive unit] at mantissa ⊢
      obtain rfl := mantissa.unique exact
      rw [if_neg (by simpa using inFormat.bits.ne)]
      exact ⟨inFormat.most, rfl⟩
    · rw [unitOf_eq more positive unit] at mantissa ⊢
      obtain rfl := mantissa.unique exact
      rw [if_pos (by simp), sub_add_cancel]
      exact ⟨inFormat.most, congrArg (Binary64.mk · value.exponent) edge.symm⟩

end Binary64

end Lexicon
