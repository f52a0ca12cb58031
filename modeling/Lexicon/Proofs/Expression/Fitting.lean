import Lexicon.Proofs.Expression.Steps

/-! Which operators may stand below another one depends on their tiers and associativities. -/

namespace Lexicon

variable {Hook : Type}

namespace Tier

/-- Tiers are told apart by their ranks. -/
theorem eq_iff_rank_eq (first second : Tier) : first = second ↔ first.rank = second.rank :=
  ⟨congrArg rank, rank_injective⟩

/-- What does not bind on the right of an operator has this operator on its left side. -/
theorem not_tighter_iff (tier other : Tier) (associativity : Associativity) :
    ¬(tier < other ∨ associativity = .right ∧ tier = other) ↔
      other < tier ∨ other = tier ∧ associativity = .left := by
  simp only [lt_iff_rank_lt, eq_iff_rank_eq]
  cases associativity with
  | left => simp; omega
  | right => simp; omega

end Tier

namespace Registry

/-- An operator fits on the right of another one when it binds tighter, or when both bind alike and
the outer one groups to the right. -/
def FitsRight (registry : Registry Hook) (outer inner : Handle) : Prop :=
  ∃ outerTier innerTier, registry.tier? outer = some outerTier ∧
    registry.tier? inner = some innerTier ∧
    (outerTier < innerTier ∨
      outerTier = innerTier ∧ registry.associativity? outer = some .right)

/-- An operator fits on the left of another one when it binds tighter, or when both bind alike and
the inner one groups to the left. -/
def FitsLeft (registry : Registry Hook) (outer inner : Handle) : Prop :=
  ∃ outerTier innerTier, registry.tier? outer = some outerTier ∧
    registry.tier? inner = some innerTier ∧
    (outerTier < innerTier ∨
      outerTier = innerTier ∧ registry.associativity? inner = some .left)

/-- A climb with the bound takes the operator. -/
def Takes (registry : Registry Hook) (bound : Option Tier) (handle : Handle) : Prop :=
  ∃ tier, registry.tier? handle = some tier ∧ tier.within bound = true

/-- A climb with the bound stops before the operator. -/
def Leaves (registry : Registry Hook) (bound : Option Tier) (handle : Handle) : Prop :=
  ∃ tier, registry.tier? handle = some tier ∧ tier.within bound = false

variable {registry : Registry Hook}

/-- The bound for the right side of an operator separates what fits there from what goes on after
it. -/
theorem Leveled.exists_fitting_bound (leveled : registry.Leveled) {handle : Handle} {tier : Tier}
    {associativity : Associativity} (known : registry.tier? handle = some tier)
    (groups : registry.associativity? handle = some associativity) :
    ∃ inner, tier.rightBound associativity = .ok inner ∧
      (∀ other, registry.Takes inner other ↔ registry.FitsRight handle other) ∧
      (∀ other, registry.Leaves inner other ↔ registry.FitsLeft other handle) := by
  obtain ⟨inner, below, lets⟩ := leveled.exists_rightBound known associativity
  refine ⟨inner, below, ?_, ?_⟩
  · intro other
    constructor
    · intro takes
      obtain ⟨otherTier, otherKnown, within⟩ := takes
      refine ⟨tier, otherTier, known, otherKnown, ?_⟩
      rw [groups, Option.some_inj, and_comm]
      exact (lets other otherTier otherKnown).mp within
    · intro fits
      obtain ⟨outerTier, otherTier, outerKnown, otherKnown, tighter⟩ := fits
      cases known.symm.trans outerKnown
      refine ⟨otherTier, otherKnown, (lets other otherTier otherKnown).mpr ?_⟩
      rw [groups, Option.some_inj, and_comm] at tighter
      exact tighter
  · intro other
    constructor
    · intro leaves
      obtain ⟨otherTier, otherKnown, outside⟩ := leaves
      refine ⟨otherTier, tier, otherKnown, known, ?_⟩
      rw [← Bool.not_eq_true, lets other otherTier otherKnown, Tier.not_tighter_iff] at outside
      rw [groups, Option.some_inj]
      exact outside
    · intro fits
      obtain ⟨otherTier, innerTier, otherKnown, innerKnown, tighter⟩ := fits
      cases known.symm.trans innerKnown
      refine ⟨otherTier, otherKnown, ?_⟩
      rw [← Bool.not_eq_true, lets other otherTier otherKnown, Tier.not_tighter_iff]
      rw [groups, Option.some_inj] at tighter
      exact tighter

/-- What fits on the right of an operator that fits on the left binds tighter than the outermost. -/
theorem FitsLeft.of_fitsRight {outer middle inner : Handle}
    (fits : registry.FitsLeft outer middle) (below : registry.FitsRight middle inner) :
    registry.FitsLeft outer inner := by
  obtain ⟨outerTier, middleTier, outerKnown, middleKnown, outerFits⟩ := fits
  obtain ⟨otherTier, innerTier, otherKnown, innerKnown, innerFits⟩ := below
  cases middleKnown.symm.trans otherKnown
  refine ⟨outerTier, innerTier, outerKnown, innerKnown, .inl ?_⟩
  rcases outerFits with outerTighter | ⟨rfl, left⟩
  · rcases innerFits with innerTighter | ⟨rfl, _⟩
    · exact Nat.lt_trans outerTighter innerTighter
    · exact outerTighter
  · rcases innerFits with innerTighter | ⟨_, right⟩
    · exact innerTighter
    · cases left.symm.trans right

/-- What fits on the left of an operator that fits on the right fits on the right too. -/
theorem FitsRight.of_fitsLeft {outer middle inner : Handle}
    (fits : registry.FitsRight outer middle) (below : registry.FitsLeft middle inner) :
    registry.FitsRight outer inner := by
  obtain ⟨outerTier, middleTier, outerKnown, middleKnown, outerFits⟩ := fits
  obtain ⟨otherTier, innerTier, otherKnown, innerKnown, innerFits⟩ := below
  cases middleKnown.symm.trans otherKnown
  refine ⟨outerTier, innerTier, outerKnown, innerKnown, ?_⟩
  rcases innerFits with innerTighter | ⟨rfl, _⟩
  · rcases outerFits with outerTighter | ⟨rfl, _⟩
    · exact .inl (Nat.lt_trans outerTighter innerTighter)
    · exact .inl innerTighter
  · exact outerFits

end Registry

end Lexicon
