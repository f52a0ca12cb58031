import Lexicon.Expression.Tree

/-! Precedence climbing reads an operand and then takes operators whose tier is above a bound. -/

namespace Lexicon

variable {Hook : Type}

/-- A climb fails where the items break the alternation of operands and operators, or where a table
does not know an operator. -/
inductive ClimbFault where
  /-- The items end where an operand is due. -/
  | ended
  | operandExpected (text : String)
  | foreignHandle (bounds : OutOfBounds)
  /-- The token type of an operator has no tier. -/
  | noTier (text : String)
  /-- Nothing lies below the level zero. -/
  | noLowerLevel
  deriving DecidableEq, Repr

/-- A fault at the end names the number of items as the index. -/
def ClimbFault.message (total : Nat) : ClimbFault → String
  | .ended => OutOfBounds.message ⟨total, total⟩
  | .operandExpected text => "expected operand, found " ++ text
  | .foreignHandle bounds => bounds.message
  | .noTier text => "operator " ++ text ++ " has no tier"
  | .noLowerLevel => "no level lies below zero"

/-- An operator is taken when its tier is above the bound, and without a bound always. -/
def Tier.within (tier : Tier) : Option Tier → Bool
  | none => true
  | some bound => bound < tier

/-- The bound below a tier lets the same tier bind again on the right. -/
def Tier.lower : Tier → Except ClimbFault (Option Tier)
  | .assignment => .ok none
  | .binary level =>
      if level = 0 then .error .noLowerLevel
      else if level = 1 then .ok (some .assignment)
      else .ok (some (.binary (level - 1)))

/-- Apart from the level zero, the tiers within the bound below a tier are those that bind at least as
tightly. -/
theorem Tier.within_lower_iff {tier other : Tier} {bound : Option Tier}
    (lower : tier.lower = .ok bound) (nonzero : other ≠ .binary 0) :
    other.within bound = true ↔ tier ≤ other := by
  have positive : other.rank ≠ 1 := fun one => nonzero (Tier.rank_injective one)
  have zero : (0 : UInt8).toNat = 0 := rfl
  have one : (1 : UInt8).toNat = 1 := rfl
  cases tier with
  | assignment =>
      simp only [Tier.lower, Except.ok.injEq] at lower
      simp [← lower, Tier.within, Tier.le_iff_rank_le, Tier.rank_assignment]
  | binary level =>
      simp only [Tier.lower, ← UInt8.toNat_inj, zero, one] at lower
      split at lower
      · contradiction
      · split at lower <;> simp only [Except.ok.injEq] at lower <;> rw [← lower]
        · simp only [Tier.within, Tier.le_iff_rank_le, Tier.lt_iff_rank_lt,
            Tier.rank_assignment, Tier.rank_binary, decide_eq_true_eq]
          omega
        · have below : (level - 1).toNat = level.toNat - 1 :=
            UInt8.toNat_sub_of_le level 1 (UInt8.le_iff_toNat_le.mpr (by omega))
          simp only [Tier.within, Tier.le_iff_rank_le, Tier.lt_iff_rank_lt,
            Tier.rank_binary, below, decide_eq_true_eq]
          omega

/-- A left-associative operator leaves its own tier to the operators after its right side. -/
def Tier.rightBound (tier : Tier) : Associativity → Except ClimbFault (Option Tier)
  | .left => .ok (some tier)
  | .right => tier.lower

/-- The tier and the associativity of an operator are looked up by its handle. -/
def Registry.binding (registry : Registry Hook) (handle : Handle) (text : String) :
    Except ClimbFault (Tier × Associativity) :=
  match registry.catalog.index handle with
  | .error bounds => .error (.foreignHandle bounds)
  | .ok descriptor =>
      match descriptor.tier?, descriptor.associativity? with
      | some tier, some associativity => .ok (tier, associativity)
      | _, _ => .error (.noTier text)

/-- A climb over some items gives a tree and leaves the items that it has not read. -/
structure Climbed (items : List Item) where
  tree : Tree
  rest : List Item
  within : rest.length ≤ items.length

namespace Registry

mutual

/-- A climb starts with an operand. -/
def climb (registry : Registry Hook) (bound : Option Tier) (items : List Item) :
    Except ClimbFault (Climbed items) :=
  match items with
  | [] => .error .ended
  | .operator _ text :: _ => .error (.operandExpected text)
  | .operand text :: rest =>
      match registry.extend bound (.leaf text) rest with
      | .error fault => .error fault
      | .ok ⟨tree, unread, within⟩ => .ok ⟨tree, unread, by simp only [List.length_cons]; omega⟩
termination_by items.length

/-- The tree so far becomes the left side of each operator taken. -/
def extend (registry : Registry Hook) (bound : Option Tier) (left : Tree) (items : List Item) :
    Except ClimbFault (Climbed items) :=
  match items with
  | [] => .ok ⟨left, [], Nat.le_refl _⟩
  | .operand text :: rest => .ok ⟨left, .operand text :: rest, Nat.le_refl _⟩
  | .operator handle text :: rest =>
      match registry.binding handle text with
      | .error fault => .error fault
      | .ok (tier, associativity) =>
          if tier.within bound then
            match tier.rightBound associativity with
            | .error fault => .error fault
            | .ok rightBound =>
                match registry.climb rightBound rest with
                | .error fault => .error fault
                | .ok ⟨right, unread, within⟩ =>
                    match registry.extend bound (.node left handle text right) unread with
                    | .error fault => .error fault
                    | .ok ⟨tree, last, lastWithin⟩ =>
                        .ok ⟨tree, last, by simp only [List.length_cons]; omega⟩
          else .ok ⟨left, .operator handle text :: rest, Nat.le_refl _⟩
termination_by items.length
decreasing_by all_goals simp only [List.length_cons]; omega

end

end Registry

end Lexicon
