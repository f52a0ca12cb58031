import Lexicon.Token.Descriptor

/-! A binary operator has a numeric level, and assignment has a tier below every level. -/

namespace Lexicon

variable {Hook : Type}

namespace Level

def logicalOr : UInt8 := 1
def logicalAnd : UInt8 := 2
def bitwiseOr : UInt8 := 3
def bitwiseXor : UInt8 := 4
def bitwiseAnd : UInt8 := 5
def equality : UInt8 := 6
/-- The words `in` and `instanceof` have this level too. -/
def relational : UInt8 := 7
def shift : UInt8 := 8
def additive : UInt8 := 9
def multiplicative : UInt8 := 10
def exponent : UInt8 := 11

/-- The levels stand from the loosest to the tightest. -/
def all : List UInt8 :=
  [logicalOr, logicalAnd, bitwiseOr, bitwiseXor, bitwiseAnd, equality, relational, shift, additive,
    multiplicative, exponent]

end Level

/-- A tier says how tightly an infix operator binds. -/
inductive Tier where
  | assignment
  | binary (level : UInt8)
  deriving DecidableEq, Repr

namespace Tier

/-- Assignment ranks lowest and the levels follow in their order. -/
def rank : Tier → Nat
  | .assignment => 0
  | .binary level => level.toNat + 1

instance : Ord Tier := ⟨fun first second => compare first.rank second.rank⟩

instance : LT Tier := ⟨fun first second => first.rank < second.rank⟩

instance : LE Tier := ⟨fun first second => first.rank ≤ second.rank⟩

instance (first second : Tier) : Decidable (first < second) :=
  inferInstanceAs (Decidable (first.rank < second.rank))

instance (first second : Tier) : Decidable (first ≤ second) :=
  inferInstanceAs (Decidable (first.rank ≤ second.rank))

theorem rank_assignment : rank .assignment = 0 := rfl

theorem rank_binary (level : UInt8) : rank (.binary level) = level.toNat + 1 := rfl

theorem lt_iff_rank_lt (first second : Tier) : first < second ↔ first.rank < second.rank := Iff.rfl

theorem le_iff_rank_le (first second : Tier) : first ≤ second ↔ first.rank ≤ second.rank := Iff.rfl

/-- Different tiers have different ranks. -/
theorem rank_injective {first second : Tier} (same : first.rank = second.rank) :
    first = second := by
  cases first <;> cases second <;> simp_all [rank, UInt8.toNat_inj]

end Tier

inductive Associativity where
  | left
  | right
  deriving DecidableEq, Repr

namespace Descriptor

/-- The tier of a token as an infix operator, which other tokens lack. -/
def tier? (descriptor : Descriptor Hook) : Option Tier :=
  if descriptor.has .isAssign then some .assignment
  else descriptor.level.map .binary

/-- Assignment and exponentiation group to the right and every other operator to the left. -/
def associativity? (descriptor : Descriptor Hook) : Option Associativity :=
  descriptor.tier?.map fun
    | .assignment => .right
    | .binary _ => if descriptor.has .rightAssociative then .right else .left

/-- The level of a binary tier is that of the descriptor. -/
theorem level_of_tier? {descriptor : Descriptor Hook} {level : UInt8}
    (binary : descriptor.tier? = some (.binary level)) : descriptor.level = some level := by
  rw [tier?] at binary
  split at binary
  · cases binary
  · obtain ⟨own, has, same⟩ := Option.map_eq_some_iff.mp binary
    cases same
    exact has

/-- Exactly the descriptors with a tier associate. -/
theorem isSome_associativity? (descriptor : Descriptor Hook) :
    descriptor.associativity?.isSome = descriptor.tier?.isSome := by
  simp [associativity?]

end Descriptor

end Lexicon
