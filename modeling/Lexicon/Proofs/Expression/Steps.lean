import Lexicon.Expression.Group
import Lexicon.Proofs.Expression.Lexing

/-! The steps of a climb, which gives the tree together with the items left over. -/

namespace Lexicon

variable {Hook : Type}

/-- On the right of an operator the tighter tiers bind, and on the right of a right-associative one
also its own tier. -/
theorem Tier.exists_rightBound {tier : Tier} (nonzero : tier ≠ .binary 0)
    (associativity : Associativity) :
    ∃ inner, tier.rightBound associativity = .ok inner ∧ ∀ other, other ≠ .binary 0 →
      (other.within inner = true ↔ tier < other ∨ associativity = .right ∧ tier = other) := by
  cases associativity with
  | left =>
      refine ⟨some tier, rfl, fun other _ => ?_⟩
      simp [within]
  | right =>
      have exists_lower : ∃ inner, tier.lower = .ok inner := by
        unfold lower
        split
        · exact ⟨none, rfl⟩
        · rename_i level
          have positive : level ≠ 0 := fun zero => nonzero (congrArg Tier.binary zero)
          rw [if_neg positive]
          split
          · exact ⟨_, rfl⟩
          · exact ⟨_, rfl⟩
      obtain ⟨inner, lower⟩ := exists_lower
      refine ⟨inner, lower, fun other otherNonzero => ?_⟩
      rw [within_lower_iff lower otherNonzero, le_iff_rank_le, lt_iff_rank_lt,
        Nat.le_iff_lt_or_eq]
      constructor
      · intro tighter
        rcases tighter with tighter | same
        · exact .inl tighter
        · exact .inr ⟨rfl, rank_injective same⟩
      · intro tighter
        rcases tighter with tighter | ⟨_, rfl⟩
        · exact .inl tighter
        · exact .inr rfl

/-- A tier above another one that is taken is taken too. -/
theorem Tier.within_of_le {tier other : Tier} {bound : Option Tier}
    (taken : tier.within bound = true) (above : tier ≤ other) : other.within bound = true := by
  cases bound with
  | none => rfl
  | some bound =>
      simp only [within, decide_eq_true_eq, lt_iff_rank_lt] at taken ⊢
      rw [le_iff_rank_le] at above
      omega

namespace Registry

variable {registry : Registry Hook}

/-- Every operator has a bound for its right side, and what this bound lets through is known. -/
theorem Leveled.exists_rightBound (leveled : registry.Leveled) {handle : Handle} {tier : Tier}
    (known : registry.tier? handle = some tier) (associativity : Associativity) :
    ∃ inner, tier.rightBound associativity = .ok inner ∧
      ∀ other otherTier, registry.tier? other = some otherTier →
        (otherTier.within inner = true ↔
          tier < otherTier ∨ associativity = .right ∧ tier = otherTier) := by
  have nonzero : tier ≠ .binary 0 := fun zero => leveled handle (zero ▸ known)
  obtain ⟨inner, below, lets⟩ := Tier.exists_rightBound nonzero associativity
  refine ⟨inner, below, ?_⟩
  intro other otherTier otherKnown
  exact lets otherTier fun zero => leveled other (zero ▸ otherKnown)

/-- The inner bound lets through no operator that the outer bound leaves. -/
def Higher (registry : Registry Hook) (inner outer : Option Tier) : Prop :=
  ∀ handle tier, registry.tier? handle = some tier → tier.within inner = true →
    tier.within outer = true

/-- Every bound is at least as high as itself. -/
theorem Higher.refl (bound : Option Tier) : registry.Higher bound bound :=
  fun _ _ _ within => within

/-- A bound above a higher bound is higher. -/
theorem Higher.trans {inner middle outer : Option Tier} (first : registry.Higher inner middle)
    (second : registry.Higher middle outer) : registry.Higher inner outer :=
  fun handle tier known within => second handle tier known (first handle tier known within)

/-- On the right of an operator that is taken the bound is higher. -/
theorem Leveled.exists_higher_bound (leveled : registry.Leveled) {bound : Option Tier}
    {handle : Handle} {tier : Tier} (known : registry.tier? handle = some tier)
    (taken : tier.within bound = true) (associativity : Associativity) :
    ∃ inner, tier.rightBound associativity = .ok inner ∧ registry.Higher inner bound := by
  obtain ⟨inner, below, lets⟩ := leveled.exists_rightBound known associativity
  refine ⟨inner, below, ?_⟩
  intro other otherTier otherKnown within
  apply Tier.within_of_le taken
  rcases (lets other otherTier otherKnown).mp within with tighter | ⟨_, rfl⟩
  · exact Nat.le_of_lt tighter
  · exact Nat.le_refl _

/-- The tree of a climb with the items that it leaves. -/
def climbResult (registry : Registry Hook) (bound : Option Tier) (items : List Item) :
    Except ClimbFault (Tree × List Item) :=
  (registry.climb bound items).map fun climbed => (climbed.tree, climbed.rest)

/-- The tree that a tree is extended to, with the items that are left. -/
def extendResult (registry : Registry Hook) (bound : Option Tier) (left : Tree) (items : List Item)
    :
    Except ClimbFault (Tree × List Item) :=
  (registry.extend bound left items).map fun climbed => (climbed.tree, climbed.rest)

variable (registry) (bound : Option Tier)

theorem climbResult_nil : registry.climbResult bound [] = .error .ended := by
  rw [climbResult, climb]
  rfl

/-- A climb does not begin with an operator. -/
theorem climbResult_operator (handle : Handle) (text : String) (rest : List Item) :
    registry.climbResult bound (.operator handle text :: rest) =
      .error (.operandExpected text) := by
  rw [climbResult, climb]
  rfl

/-- A climb begins with an operand and extends it. -/
theorem climbResult_operand (text : String) (rest : List Item) :
    registry.climbResult bound (.operand text :: rest) =
      registry.extendResult bound (.leaf text) rest := by
  rw [climbResult, climb, extendResult]
  cases registry.extend bound (.leaf text) rest <;> rfl

theorem extendResult_nil (left : Tree) :
    registry.extendResult bound left [] = .ok (left, []) := by
  rw [extendResult, extend]
  rfl

/-- An operand stops an extension. -/
theorem extendResult_operand (left : Tree) (text : String) (rest : List Item) :
    registry.extendResult bound left (.operand text :: rest) =
      .ok (left, .operand text :: rest) := by
  rw [extendResult, extend]
  rfl

/-- An operator that the registry cannot bind ends the climb. -/
theorem extendResult_of_binding_error {handle : Handle} {text : String} {fault : ClimbFault}
    (unbound : registry.binding handle text = .error fault) (left : Tree) (rest : List Item) :
    registry.extendResult bound left (.operator handle text :: rest) = .error fault := by
  rw [extendResult, extend, unbound]
  rfl

/-- An operator that is not above the bound is left for the climb outside. -/
theorem extendResult_of_not_within {handle : Handle} {text : String} {tier : Tier}
    {associativity : Associativity}
    (binding : registry.binding handle text = .ok (tier, associativity))
    (outside : tier.within bound = false) (left : Tree) (rest : List Item) :
    registry.extendResult bound left (.operator handle text :: rest) =
      .ok (left, .operator handle text :: rest) := by
  rw [extendResult, extend, binding]
  simp only [outside, Bool.false_eq_true, if_false]
  rfl

/-- An operator above the bound takes the tree so far on its left and the next climb on its right. -/
theorem extendResult_of_within {handle : Handle} {text : String} {tier : Tier}
    {associativity : Associativity} {inner : Option Tier}
    (binding : registry.binding handle text = .ok (tier, associativity))
    (within : tier.within bound = true) (below : tier.rightBound associativity = .ok inner)
    (left : Tree) (rest : List Item) :
    registry.extendResult bound left (.operator handle text :: rest) =
      (registry.climbResult inner rest).bind fun climbed =>
        registry.extendResult bound (.node left handle text climbed.1) climbed.2 := by
  rw [extendResult, extend, binding, climbResult]
  simp only [within, if_true, below]
  cases registry.climb inner rest with
  | error fault => rfl
  | ok climbed =>
      simp only [Except.map, Except.bind, extendResult]
      cases registry.extend bound (.node left handle text climbed.tree) climbed.rest <;> rfl

variable {registry bound}

/-- A parse is a climb over all items without a bound. -/
theorem parse_of_lex {source : String} {items : List Item}
    (lexed : registry.lex source = .ok items) :
    registry.parse source =
      match registry.climbResult none items with
      | .error fault => .error (.climb fault items.length)
      | .ok (tree, rest) => .ok ⟨tree, items.length - rest.length, items.length⟩ := by
  simp only [parse, lexed, climbResult]
  cases registry.climb none items <;> rfl

/-- A climb leaves no more items than it was given. -/
theorem length_le_of_climbResult {items rest : List Item} {tree : Tree}
    (climbed : registry.climbResult bound items = .ok (tree, rest)) :
    rest.length ≤ items.length := by
  unfold climbResult at climbed
  cases result : registry.climb bound items with
  | error fault =>
      rw [result] at climbed
      cases climbed
  | ok climb =>
      rw [result] at climbed
      cases climbed
      exact climb.within

end Registry

end Lexicon
