import Lexicon.Json.Streaming.Number
import Lexicon.Proofs.Number.Rounding

/-! The shortest decimal of a magnitude is rounded to the magnitude, and no coarser decimal is. -/

namespace Lexicon

namespace Decimal

def toQuotient (decimal : Decimal) : Nat × Nat :=
  (decimal.digits * Nat.pow 10 decimal.power.toNat, Nat.pow 10 (-decimal.power).toNat)

/-- The exact value of a decimal. -/
def toRat (decimal : Decimal) : ℚ := decimal.digits * 10 ^ decimal.power

end Decimal

/-- A power of ten is split into its whole part and its part below the point. -/
theorem ten_pow_toNat (power : Int) :
    (10 : ℚ) ^ power * (10 : ℚ) ^ (-power).toNat = 10 ^ power.toNat := by
  rw [← zpow_natCast, ← zpow_natCast, ← zpow_add₀ (by norm_num)]
  congr 1
  omega

theorem Decimal.toQuotient_positive (decimal : Decimal) : 0 < decimal.toQuotient.2 :=
  Nat.pow_pos (by decide)

/-- The quotient of a decimal is its exact value. -/
theorem Decimal.toQuotient_eq (decimal : Decimal) :
    (decimal.toQuotient.1 / decimal.toQuotient.2 : ℚ) = decimal.toRat := by
  have positive : (0 : ℚ) < 10 ^ (-decimal.power).toNat := by positivity
  simp only [toQuotient, toRat, Nat.pow_eq, Nat.cast_mul, Nat.cast_pow, Nat.cast_ofNat]
  rw [div_eq_iff positive.ne', mul_assoc, ten_pow_toNat]

section Compare

variable (decimal : Decimal) (count : Nat) {denominator : Nat} (positive : 0 < denominator)

include positive

/-- A quotient and a decimal compare as whole numbers of the same part of a unit. -/
theorem Decimal.compare_eq : ∃ unit : ℚ, 0 < unit ∧
    count / denominator * unit = (count * Nat.pow 10 (-decimal.power).toNat : Nat) ∧
      decimal.toRat * unit =
        (decimal.digits * (denominator * Nat.pow 10 decimal.power.toNat) : Nat) := by
  have nonzero : (0 : ℚ) < denominator := mod_cast positive
  refine ⟨denominator * 10 ^ (-decimal.power).toNat, by positivity, ?_, ?_⟩
  · rw [Nat.pow_eq]
    push_cast
    field_simp
  · rw [Nat.pow_eq, toRat]
    push_cast
    rw [← ten_pow_toNat decimal.power]
    ring

theorem Decimal.div_le_toRat_iff : (count / denominator : ℚ) ≤ decimal.toRat ↔
    count * Nat.pow 10 (-decimal.power).toNat ≤
      decimal.digits * (denominator * Nat.pow 10 decimal.power.toNat) := by
  obtain ⟨unit, more, first, second⟩ := decimal.compare_eq count positive
  rw [← mul_le_mul_iff_of_pos_right more, first, second, Nat.cast_le]

theorem Decimal.toRat_le_div_iff : decimal.toRat ≤ (count / denominator : ℚ) ↔
    decimal.digits * (denominator * Nat.pow 10 decimal.power.toNat) ≤
      count * Nat.pow 10 (-decimal.power).toNat := by
  obtain ⟨unit, more, first, second⟩ := decimal.compare_eq count positive
  rw [← mul_le_mul_iff_of_pos_right more, first, second, Nat.cast_le]

end Compare

namespace Binary64

variable {value : Binary64}

theorem toQuotient_positive (value : Binary64) : 0 < value.toQuotient.2 := by
  unfold toQuotient
  split
  · exact Nat.one_pos
  · exact Nat.two_pow_pos _

/-- The quotient of a magnitude is its exact value. -/
theorem toQuotient_eq (value : Binary64) :
    (value.toQuotient.1 / value.toQuotient.2 : ℚ) = value.toRat := by
  unfold toQuotient toRat
  split
  · rename_i whole
    obtain ⟨count, same⟩ := Int.eq_ofNat_of_zero_le whole
    simp [same]
  · rename_i part
    obtain ⟨count, same⟩ := Int.eq_ofNat_of_zero_le (show 0 ≤ -value.exponent by omega)
    have negative : value.exponent = -count := by omega
    simp [negative, div_eq_mul_inv]

/-- What lies between two covered numbers is covered. -/
theorem Covers.between {low number high : ℚ} (first : value.Covers low) (last : value.Covers high)
    (above : low ≤ number) (below : number ≤ high) : value.Covers number where
  lower := first.lower.trans above
  upper := below.trans last.upper
  odd one := ⟨(first.odd one).1.trans_le above, below.trans_lt (last.odd one).2⟩

/-- A magnitude covers its own value. -/
theorem covers_toRat (value : Binary64) : value.Covers value.toRat := by
  have unit : (0 : ℚ) < 2 ^ value.exponent := zpow_pos (by norm_num) _
  have low := value.quarter_le_below
  unfold toRat
  refine ⟨?_, ?_, fun _ => ⟨?_, ?_⟩⟩ <;> nlinarith

/-- The bounds of the rounding range are those of what the magnitude covers. -/
theorem roundingRange_eq (more : 0 < value.mantissa) :
    0 < value.roundingRange.denominator ∧
      (value.roundingRange.low / value.roundingRange.denominator : ℚ) =
        (value.mantissa - value.below) * 2 ^ value.exponent ∧
      (value.roundingRange.exact / value.roundingRange.denominator : ℚ) = value.toRat ∧
      (value.roundingRange.high / value.roundingRange.denominator : ℚ) =
        (value.mantissa + 1 / 2) * 2 ^ value.exponent := by
  have unit := toQuotient_eq ⟨1, value.exponent - 2⟩
  have positive := toQuotient_positive ⟨1, value.exponent - 2⟩
  have quarter : (2 : ℚ) ^ value.exponent = 4 * toRat ⟨1, value.exponent - 2⟩ := by
    rw [toRat, Nat.cast_one, one_mul, show value.exponent = value.exponent - 2 + 2 by omega,
      zpow_add₀ (by norm_num)]
    norm_num
    ring
  simp only [roundingRange, Nat.pow_eq]
  refine ⟨positive, ?_, ?_, ?_⟩
  · unfold below
    rw [quarter, ← unit]
    split <;> rw [Nat.cast_mul, Nat.cast_sub (by omega)] <;> push_cast <;> ring
  · rw [toRat, quarter, ← unit]
    push_cast
    ring
  · rw [quarter, ← unit]
    push_cast
    ring

/-- A decimal hits when it is not zero and the magnitude covers it. -/
theorem hits_iff (more : 0 < value.mantissa) (decimal : Decimal) :
    value.hits decimal = true ↔ 0 < decimal.digits ∧ value.Covers decimal.toRat := by
  obtain ⟨positive, low, -, high⟩ := roundingRange_eq more
  simp only [hits, Bool.and_eq_true, decide_eq_true_eq]
  refine and_congr_right fun _ => ?_
  split
  · rename_i even
    rw [Bool.and_eq_true, decide_eq_true_eq, decide_eq_true_eq, ← decimal.div_le_toRat_iff _ positive,
      ← decimal.toRat_le_div_iff _ positive, low, high]
    exact ⟨fun bounds => ⟨bounds.1, bounds.2, fun odd => by omega⟩,
      fun covers => ⟨covers.lower, covers.upper⟩⟩
  · rename_i odd
    rw [Bool.and_eq_true, decide_eq_true_eq, decide_eq_true_eq, ← not_le,
      ← decimal.toRat_le_div_iff _ positive, ← not_le, ← decimal.div_le_toRat_iff _ positive, low,
      high, not_le, not_le]
    exact ⟨fun bounds => ⟨bounds.1.le, bounds.2.le, fun _ => bounds⟩,
      fun covers => covers.odd (by omega)⟩

/-- The magnitude lies between two neighbours of the grid. -/
theorem inSteps_bounds (more : 0 < value.mantissa) (power : Int) :
    Decimal.toRat ⟨(value.inSteps power).1 / (value.inSteps power).2, power⟩ ≤ value.toRat ∧
      value.toRat <
        Decimal.toRat ⟨(value.inSteps power).1 / (value.inSteps power).2 + 1, power⟩ := by
  obtain ⟨positive, -, exact, -⟩ := roundingRange_eq more
  have cell : 0 < (value.inSteps power).2 := Nat.mul_pos positive (Nat.pow_pos (by decide))
  rw [← exact, ← not_le, Decimal.toRat_le_div_iff _ _ positive, Decimal.toRat_le_div_iff _ _ positive]
  refine ⟨Nat.div_mul_le_self _ _, Nat.not_le.mpr ?_⟩
  rw [Nat.add_mul, Nat.one_mul]
  exact Nat.lt_div_mul_add cell

/-- What is on the grid hits. -/
theorem hits_of_onGrid? {power : Int} {decimal : Decimal}
    (found : value.onGrid? power = some decimal) :
    decimal.power = power ∧ value.hits decimal = true := by
  unfold onGrid? at found
  dsimp only at found
  split at found
  · rename_i low high
    obtain rfl := Option.some.inj found
    refine ⟨rfl, ?_⟩
    rcases roundQuotient_eq_div_or (value.inSteps power).1 (value.inSteps power).2 with same | same
    · rwa [same]
    · rwa [same]
  · rename_i low high
    obtain rfl := Option.some.inj found
    exact ⟨rfl, low⟩
  · rename_i low high
    obtain rfl := Option.some.inj found
    exact ⟨rfl, high⟩
  · contradiction

/-- A decimal that hits is found on its grid. -/
theorem isSome_onGrid?_of_hits (more : 0 < value.mantissa) (decimal : Decimal)
    (hit : value.hits decimal = true) : (value.onGrid? decimal.power).isSome = true := by
  obtain ⟨below, above⟩ := inSteps_bounds more decimal.power
  obtain ⟨some, covers⟩ := (hits_iff more decimal).mp hit
  have ordered {first second : Nat} (le : first ≤ second) :
      Decimal.toRat ⟨first, decimal.power⟩ ≤ Decimal.toRat ⟨second, decimal.power⟩ := by
    unfold Decimal.toRat
    gcongr
  have neighbour : value.hits ⟨(value.inSteps decimal.power).1 / (value.inSteps decimal.power).2,
      decimal.power⟩ = true ∨
        value.hits ⟨(value.inSteps decimal.power).1 / (value.inSteps decimal.power).2 + 1,
          decimal.power⟩ = true := by
    rw [hits_iff more, hits_iff more]
    rcases Nat.lt_or_ge ((value.inSteps decimal.power).1 / (value.inSteps decimal.power).2)
      decimal.digits with past | within
    · exact .inr ⟨Nat.succ_pos _, value.covers_toRat.between covers above.le (ordered past)⟩
    · exact .inl ⟨some.trans_le within, covers.between value.covers_toRat (ordered within) below⟩
  unfold onGrid?
  dsimp only
  split <;> simp_all

theorem two_pow_lt : 2 ^ 1024 < 10 ^ 310 := by decide +kernel

theorem twice_two_pow_lt : 2 * 2 ^ 1074 < 10 ^ 330 := by decide +kernel

/-- The grids reach from ten to the 309 down to ten to the -330. -/
theorem mem_grids (power : Int) : power ∈ grids ↔ -330 ≤ power ∧ power ≤ 309 := by
  simp only [grids, List.mem_map, List.mem_range]
  exact ⟨fun ⟨step, within, same⟩ => by omega,
    fun bounds => ⟨(309 - power).toNat, by omega, by omega⟩⟩

/-- Coarser grids come first. -/
theorem pairwise_grids : grids.Pairwise (· > ·) :=
  List.pairwise_map.mpr (List.pairwise_lt_range.imp fun less => by omega)

/-- The finest grid is finer than half the least unit. -/
theorem isSome_onGrid?_finest (inFormat : value.InFormat) (more : 0 < value.mantissa) :
    (value.onGrid? (-330)).isSome = true := by
  obtain ⟨steps, below, above⟩ : ∃ steps : Nat, Decimal.toRat ⟨steps, -330⟩ ≤ value.toRat ∧
      value.toRat < Decimal.toRat ⟨steps + 1, -330⟩ := ⟨_, inSteps_bounds more (-330)⟩
  have fine : (10 : ℚ) ^ (-330 : Int) < 1 / 2 * 2 ^ value.exponent := by
    have less : (2 : ℚ) * 2 ^ 1074 < 10 ^ 330 := mod_cast twice_two_pow_lt
    calc (10 : ℚ) ^ (-330 : Int) = 1 / 10 ^ 330 := by
          rw [one_div, zpow_neg]
          rfl
      _ < 1 / (2 * 2 ^ 1074) := one_div_lt_one_div_of_lt (by positivity) less
      _ = 1 / 2 * 2 ^ (-1074 : Int) := by
        rw [one_div, one_div, mul_inv, zpow_neg]
        rfl
      _ ≤ 1 / 2 * 2 ^ value.exponent := by
        gcongr
        · norm_num
        · exact inFormat.least
  have near : Decimal.toRat ⟨steps + 1, -330⟩ < (value.mantissa + 1 / 2) * 2 ^ value.exponent := by
    simp only [Decimal.toRat, toRat, Nat.cast_add, Nat.cast_one] at below ⊢
    linarith
  have covers := value.covers_toRat
  exact isSome_onGrid?_of_hits more ⟨steps + 1, -330⟩ ((hits_iff more _).mpr
    ⟨Nat.succ_pos _, covers.lower.trans above.le, near.le,
      fun odd => ⟨(covers.odd odd).1.trans above, near⟩⟩)

/-- A power of ten above the format is too coarse. -/
theorem power_le_of_hits (inFormat : value.InFormat) (more : 0 < value.mantissa) {decimal : Decimal}
    (hit : value.hits decimal = true) : decimal.power ≤ 309 := by
  obtain ⟨some, covers⟩ := (hits_iff more decimal).mp hit
  by_contra coarse
  have one : (1 : ℚ) ≤ decimal.digits := mod_cast some
  have bits : (value.mantissa : ℚ) + 1 ≤ 2 ^ 53 := mod_cast inFormat.bits
  have : (2 : ℚ) ^ 1024 < 2 ^ 1024 := by
    calc (2 : ℚ) ^ 1024 < 10 ^ 310 := mod_cast two_pow_lt
      _ = 10 ^ (310 : Int) := (zpow_natCast 10 310).symm
      _ ≤ 10 ^ decimal.power := zpow_le_zpow_right₀ (by norm_num) (by omega)
      _ ≤ decimal.toRat := le_mul_of_one_le_left (by positivity) one
      _ ≤ (value.mantissa + 1 / 2) * 2 ^ value.exponent := covers.upper
      _ ≤ 2 ^ 53 * 2 ^ (971 : Int) := by
        gcongr
        · linarith
        · norm_num
        · exact inFormat.most
      _ = 2 ^ 1024 := by
        rw [← zpow_natCast, ← zpow_natCast, ← zpow_add₀ (by norm_num)]
        norm_num only
  exact lt_irrefl _ this

/-- The shortest decimal is on the coarsest grid that has one. -/
theorem onGrid?_shortest (inFormat : value.InFormat) (more : 0 < value.mantissa) :
    value.onGrid? value.shortest.power = some value.shortest ∧ value.shortest.power ∈ grids ∧
      ∀ power ∈ grids, value.shortest.power < power → value.onGrid? power = none := by
  rw [shortest, if_neg more.ne']
  cases found : grids.findSome? value.onGrid? with
  | none =>
      have finest := isSome_onGrid?_finest inFormat more
      have listed : (-330 : Int) ∈ grids := (mem_grids _).mpr ⟨le_rfl, by norm_num⟩
      rw [List.findSome?_eq_none_iff.mp found _ listed] at finest
      cases finest
  | some decimal =>
      obtain ⟨before, power, after, listed, own, missed⟩ := List.findSome?_eq_some_iff.mp found
      obtain ⟨rfl, -⟩ := hits_of_onGrid? own
      refine ⟨own, by simp [listed], fun coarser member less => ?_⟩
      have descending := pairwise_grids
      rw [listed] at member descending
      rcases List.mem_append.mp member with early | late
      · exact missed _ early
      · have finer := (List.pairwise_cons.mp (List.pairwise_append.mp descending).2.1).1
        rcases List.mem_cons.mp late with same | later
        · exact absurd same less.ne'
        · exact absurd less (finer coarser later).not_gt

/-- Every decimal that hits is at least as fine as the shortest one. -/
theorem power_le_shortest_of_hits (inFormat : value.InFormat) (more : 0 < value.mantissa)
    {decimal : Decimal} (hit : value.hits decimal = true) : decimal.power ≤ value.shortest.power := by
  obtain ⟨-, listed, missed⟩ := onGrid?_shortest inFormat more
  by_contra coarser
  have member : decimal.power ∈ grids :=
    (mem_grids _).mpr ⟨((mem_grids _).mp listed).1.trans (not_le.mp coarser).le,
      power_le_of_hits inFormat more hit⟩
  have found := isSome_onGrid?_of_hits more decimal hit
  rw [missed _ member (not_le.mp coarser)] at found
  cases found

/-- The shortest decimal of a magnitude of the format is rounded to the magnitude. -/
theorem ofQuotient?_shortest (inFormat : value.InFormat) :
    ofQuotient? value.shortest.toQuotient.1 value.shortest.toQuotient.2 = some value := by
  rcases Nat.eq_zero_or_pos value.mantissa with none | more
  · rw [inFormat.eq_zero none]
    rfl
  · rw [ofQuotient?_eq_some_iff (Decimal.toQuotient_positive _), Decimal.toQuotient_eq]
    exact ⟨inFormat, ((hits_iff more _).mp (hits_of_onGrid? (onGrid?_shortest inFormat more).1).2).2⟩

/-- No decimal other than zero with a greater power of ten is rounded to a magnitude other than zero. -/
theorem power_le_shortest (more : 0 < value.mantissa) {decimal : Decimal} (some : 0 < decimal.digits)
    (rounded : ofQuotient? decimal.toQuotient.1 decimal.toQuotient.2 = .some value) :
    decimal.power ≤ value.shortest.power := by
  rw [ofQuotient?_eq_some_iff (Decimal.toQuotient_positive _), Decimal.toQuotient_eq] at rounded
  exact power_le_shortest_of_hits rounded.1 more ((hits_iff more decimal).mpr ⟨some, rounded.2⟩)

/-! Scaling by powers of ten stays in the format. -/

theorem toQuotient_fst_positive (more : 0 < value.mantissa) : 0 < value.toQuotient.1 := by
  unfold toQuotient
  split
  · exact Nat.mul_pos more (Nat.two_pow_pos _)
  · exact more

/-- No power of ten is rounded to zero. -/
theorem mantissa_positive_of_powerOfTen? {power : Nat} {ten : Binary64}
    (found : powerOfTen? power = some ten) : 0 < ten.mantissa := by
  obtain ⟨inFormat, covers⟩ := (ofQuotient?_eq_some_iff Nat.one_pos ten).mp found
  rw [Nat.pos_iff_ne_zero]
  intro none
  have upper := covers.upper
  rw [inFormat.eq_zero none, Nat.pow_eq] at upper
  have one : (1 : ℚ) ≤ 10 ^ power := one_le_pow₀ (by norm_num)
  have least : (2 : ℚ) ^ (-1074 : Int) ≤ 1 := zpow_le_one_of_nonpos₀ (by norm_num) (by norm_num)
  simp only [zero, Nat.cast_zero, Nat.cast_pow, Nat.cast_ofNat, Nat.cast_one, div_one] at upper
  linarith

/-- A product is rounded to the format. -/
theorem inFormat_of_mul? {first second result : Binary64} (found : first.mul? second = some result) :
    result.InFormat :=
  ((ofQuotient?_eq_some_iff (Nat.mul_pos first.toQuotient_positive second.toQuotient_positive) _).mp
    found).1

/-- A quotient is rounded to the format. -/
theorem inFormat_of_div? {first second result : Binary64} (more : 0 < second.mantissa)
    (found : first.div? second = some result) : result.InFormat :=
  ((ofQuotient?_eq_some_iff (Nat.mul_pos first.toQuotient_positive (toQuotient_fst_positive more))
    _).mp found).1

/-- A magnitude that is scaled stays in the format. -/
theorem inFormat_of_scaleTen? {power : Int} {result : Binary64} (inFormat : value.InFormat)
    (found : value.scaleTen? power = some result) : result.InFormat := by
  fun_induction scaleTen? value power with
  | case1 value power small =>
      obtain ⟨ten, own, scaled⟩ := Option.bind_eq_some_iff.mp found
      split at scaled
      · exact inFormat_of_mul? scaled
      · exact inFormat_of_div? (mantissa_positive_of_powerOfTen? own) scaled
  | case2 value power large none => exact Option.some.inj found ▸ inFormat
  | case3 => contradiction
  | case4 value power large some negative ih =>
      obtain ⟨smaller, divided, scaled⟩ := Option.bind_eq_some_iff.mp found
      obtain ⟨ten, own, divided⟩ := Option.bind_eq_some_iff.mp divided
      exact ih smaller (inFormat_of_div? (mantissa_positive_of_powerOfTen? own) divided) scaled

end Binary64

/-- The decimal that is shown of a number is rounded to the magnitude that was read. -/
theorem Json.Streaming.Numeral.ofQuotient?_shortest {numeral : Numeral} {unread : List Char}
    {magnitude : Binary64} (read : numeral.magnitude unread = .ok magnitude) :
    Binary64.ofQuotient? magnitude.shortest.toQuotient.1 magnitude.shortest.toQuotient.2 =
      some magnitude := by
  apply Binary64.ofQuotient?_shortest
  unfold Numeral.magnitude at read
  dsimp only at read
  split at read
  · split at read
    · contradiction
    · exact Except.ok.inj read ▸ Binary64.inFormat_zero
  · split at read
    · rename_i scaled
      obtain rfl := Except.ok.inj read
      obtain ⟨whole, own, scaled⟩ := Option.bind_eq_some_iff.mp scaled
      exact Binary64.inFormat_of_scaleTen?
        ((Binary64.ofQuotient?_eq_some_iff Nat.one_pos _).mp own).1 scaled
    · contradiction

end Lexicon
