import Lexicon.Proofs.Expression.Steps
import Lexicon.Proofs.Registry.Growth

/-! On one scale of integers assignment stands at zero and needs no tier of its own. -/

namespace Lexicon

variable {Hook : Type}

namespace Descriptor

/-- On the scale an operator has its numeric level, and assignment has zero and groups to the right. -/
def scaled? (descriptor : Descriptor Hook) : Option (Int × Associativity) :=
  match descriptor.level with
  | some level =>
      some (level.toNat, if descriptor.has .rightAssociative then .right else .left)
  | none => if descriptor.has .isAssign then some (0, .right) else none

end Descriptor

/-- A right-associative operator lets its own level bind again on the right. -/
def scaledBound (level : Int) : Associativity → Int
  | .left => level
  | .right => level - 1

namespace Registry

/-- The level and the associativity of an operator are looked up by its handle. -/
def scaled (registry : Registry Hook) (handle : Handle) (text : String) :
    Except ClimbFault (Int × Associativity) :=
  match registry.catalog.index handle with
  | .error bounds => .error (.foreignHandle bounds)
  | .ok descriptor =>
      match descriptor.scaled? with
      | some (level, associativity) => .ok (level, associativity)
      | none => .error (.noTier text)

mutual

/-- Classic climbing reads an operand and then takes operators whose level is above the bound. -/
def climbScale (registry : Registry Hook) (bound : Int) (items : List Item) :
    Except ClimbFault (Climbed items) :=
  match items with
  | [] => .error .ended
  | .operator _ text :: _ => .error (.operandExpected text)
  | .operand text :: rest =>
      match registry.extendScale bound (.leaf text) rest with
      | .error fault => .error fault
      | .ok ⟨tree, unread, within⟩ => .ok ⟨tree, unread, by simp only [List.length_cons]; omega⟩
termination_by items.length

/-- The right side of an operator is climbed with the bound of its level and associativity. -/
def extendScale (registry : Registry Hook) (bound : Int) (left : Tree) (items : List Item) :
    Except ClimbFault (Climbed items) :=
  match items with
  | [] => .ok ⟨left, [], Nat.le_refl _⟩
  | .operand text :: rest => .ok ⟨left, .operand text :: rest, Nat.le_refl _⟩
  | .operator handle text :: rest =>
      match registry.scaled handle text with
      | .error fault => .error fault
      | .ok (level, associativity) =>
          if bound < level then
            match registry.climbScale (scaledBound level associativity) rest with
            | .error fault => .error fault
            | .ok ⟨right, unread, within⟩ =>
                match registry.extendScale bound (.node left handle text right) unread with
                | .error fault => .error fault
                | .ok ⟨tree, last, lastWithin⟩ =>
                    .ok ⟨tree, last, by simp only [List.length_cons]; omega⟩
          else .ok ⟨left, .operator handle text :: rest, Nat.le_refl _⟩
termination_by items.length
decreasing_by all_goals simp only [List.length_cons]; omega

end

/-- The bound below every level lets the first climb take all operators. -/
def parseScale (registry : Registry Hook) (source : String) : Except GroupFault Parse :=
  match registry.lex source with
  | .error bounds => .error (.foreignHandle bounds)
  | .ok items =>
      match registry.climbScale (-1) items with
      | .error fault => .error (.climb fault items.length)
      | .ok climbed => .ok ⟨climbed.tree, items.length - climbed.rest.length, items.length⟩

end Registry

namespace Tier

/-- The place of a tier on the scale. -/
def onScale : Tier → Int
  | .assignment => 0
  | .binary level => level.toNat

/-- Without a bound every tier is above. -/
def boundOnScale (bound : Option Tier) : Int := (bound.map onScale).getD (-1)

/-- The scale begins at zero. -/
theorem onScale_nonneg (tier : Tier) : 0 ≤ tier.onScale := by
  cases tier with
  | assignment => exact Int.le_refl 0
  | binary level => exact Int.natCast_nonneg _

/-- Apart from the level zero, a tier is within a bound exactly when it is above on the scale. -/
theorem within_iff_boundOnScale_lt {tier : Tier} (nonzero : tier ≠ .binary 0)
    (bound : Option Tier) : tier.within bound = true ↔ boundOnScale bound < tier.onScale := by
  have positive : tier.rank ≠ 1 := fun one => nonzero (rank_injective one)
  cases bound with
  | none =>
      have above := tier.onScale_nonneg
      simp only [within, boundOnScale, Option.map_none, Option.getD_none, true_iff]
      omega
  | some bound =>
      simp only [within, decide_eq_true_eq, lt_iff_rank_lt, boundOnScale, Option.map_some,
        Option.getD_some]
      cases bound <;> cases tier <;> simp only [rank_assignment, rank_binary, onScale] at positive ⊢
      all_goals omega

/-- The bound for a right side is the level on the scale, or one below it. -/
theorem exists_rightBound_onScale {tier : Tier} (nonzero : tier ≠ .binary 0)
    (associativity : Associativity) :
    ∃ inner, tier.rightBound associativity = .ok inner ∧
      boundOnScale inner = scaledBound tier.onScale associativity := by
  cases associativity with
  | left => exact ⟨some tier, rfl, rfl⟩
  | right =>
      cases tier with
      | assignment => exact ⟨none, rfl, rfl⟩
      | binary level =>
          have positive : level ≠ 0 := fun zero => nonzero (congrArg Tier.binary zero)
          have least : 1 ≤ level.toNat :=
            UInt8.lt_iff_toNat_lt.mp (UInt8.pos_iff_ne_zero.mpr positive)
          rw [rightBound, lower, if_neg positive]
          split
          · rename_i one
            subst one
            exact ⟨_, rfl, rfl⟩
          · have one : (1 : UInt8).toNat = 1 := rfl
            have below : (level - 1).toNat = level.toNat - 1 :=
              UInt8.toNat_sub_of_le level 1 (UInt8.le_iff_toNat_le.mpr least)
            refine ⟨_, rfl, ?_⟩
            simp only [boundOnScale, Option.map_some, Option.getD_some, onScale, scaledBound, below]
            omega

end Tier

/-- Where no level goes with assignment, the scale shows the tier and the associativity. -/
theorem Descriptor.scaled?_eq {descriptor : Descriptor Hook}
    (unassigned : descriptor.level.isSome = true → descriptor.has .isAssign = false) :
    descriptor.scaled? = descriptor.tier?.bind fun tier =>
      descriptor.associativity?.map fun associativity => (tier.onScale, associativity) := by
  rw [scaled?, associativity?, tier?]
  cases level : descriptor.level with
  | none => cases descriptor.has .isAssign <;> rfl
  | some level =>
      rw [unassigned (level ▸ rfl)]
      rfl

/-- The attributes of every descriptor are consistent. -/
theorem Catalog.Holds.consistent_of_descriptor? {catalog : Catalog Hook}
    {definitions : List Definition} (holds : catalog.Holds definitions) {handle : Handle}
    {descriptor : Descriptor Hook} (found : catalog.descriptor? handle = some descriptor) :
    descriptor.attributes.Consistent descriptor.keyword.isSome false := by
  rw [holds.descriptor?_eq, Option.map_eq_some_iff] at found
  obtain ⟨definition, stands, rfl⟩ := found
  exact (holds.soundAt stands).consistent

namespace Registry

variable {registry : Registry Hook}

/-- The scale shows what binds. -/
def Scaled (registry : Registry Hook) : Prop :=
  ∀ handle text, registry.scaled handle text =
    (registry.binding handle text).map fun (tier, associativity) => (tier.onScale, associativity)

mutual

/-- Climbing by tiers is climbing on the scale. -/
theorem climb_eq_climbScale (leveled : registry.Leveled) (scaled : registry.Scaled)
    (bound : Option Tier) (items : List Item) :
    registry.climb bound items = registry.climbScale (Tier.boundOnScale bound) items := by
  match items with
  | [] => rw [climb, climbScale]
  | .operator _ text :: _ => rw [climb, climbScale]
  | .operand text :: rest =>
      rewrite [climb, climbScale, extend_eq_extendScale leveled scaled]
      rfl
termination_by items.length

/-- Extending by tiers is extending on the scale. -/
theorem extend_eq_extendScale (leveled : registry.Leveled) (scaled : registry.Scaled)
    (bound : Option Tier) (left : Tree) (items : List Item) :
    registry.extend bound left items =
      registry.extendScale (Tier.boundOnScale bound) left items := by
  match items with
  | [] => rw [extend, extendScale]
  | .operand text :: _ => rw [extend, extendScale]
  | .operator handle text :: rest =>
      rw [extend, extendScale, scaled]
      cases binding : registry.binding handle text with
      | error fault => rfl
      | ok bound =>
          obtain ⟨tier, associativity⟩ := bound
          have nonzero : tier ≠ .binary 0 := fun zero =>
            leveled handle (zero ▸ tier?_of_binding binding)
          obtain ⟨inner, below, sameBound⟩ := Tier.exists_rightBound_onScale nonzero associativity
          simp only [Except.map, Tier.within_iff_boundOnScale_lt nonzero, below, ← sameBound]
          rw [climb_eq_climbScale leveled scaled]
          cases registry.climbScale (Tier.boundOnScale inner) rest with
          | error fault => rfl
          | ok climbed =>
              obtain ⟨right, unread, within⟩ := climbed
              simp only
              rewrite [extend_eq_extendScale leveled scaled]
              rfl
termination_by items.length

end

/-- No attributes of an operator mix a level with assignment, so the scale shows each operator as it
binds. -/
theorem Reachable.scaled (reachable : registry.Reachable) : registry.Scaled := by
  intro handle text
  obtain ⟨definitions, holds⟩ := reachable.catalog.holds
  rw [Registry.scaled, binding, Catalog.index]
  cases found : registry.catalog.descriptor? handle with
  | none => rfl
  | some descriptor =>
      have unassigned := (holds.consistent_of_descriptor? found).unassigned
      simp only [Descriptor.scaled?_eq unassigned]
      cases tiered : descriptor.tier? with
      | none => rfl
      | some tier =>
          cases descriptor.associativity? with
          | none => rfl
          | some associativity => rfl

/-- Climbing with a tier for assignment is classic climbing on the scale. -/
theorem Reachable.parse_eq_parseScale (reachable : registry.Reachable) (source : String) :
    registry.parse source = registry.parseScale source := by
  have same (items : List Item) :=
    climb_eq_climbScale reachable.leveled reachable.scaled none items
  rw [parse, parseScale]
  cases registry.lex source with
  | error bounds => rfl
  | ok items =>
      simp only [same]
      rfl

/-- Chained assignment by a word takes the whole disjunction on its left and the sum on its right. -/
theorem parse_of_chained_assignment :
    let registry := ((new String).register "becomes" (.ofFlags [.beforeExpr, .isAssign])).1
    let sum : Tree := .node (.leaf "d") (.ofPosition 35) "+" (.leaf "e")
    let right : Tree := .node (.leaf "c") (.ofPosition 40) "becomes" sum
    let left : Tree := .node (.leaf "a") (.ofPosition 27) "||" (.leaf "b")
    registry.Reachable ∧ registry.parse "a || b becomes c becomes d + e" =
      .ok ⟨.node left (.ofPosition 40) "becomes" right, 9, 9⟩ := by
  intro registry sum right left
  have reachable : registry.Reachable := .register .new _ _
  refine ⟨reachable, ?_⟩
  have read : registry.lex "a || b becomes c becomes d + e" =
      .ok (left.items ++ .operator (.ofPosition 40) "becomes" :: right.items) := by decide +kernel
  have disjunction : registry.scaled (.ofPosition 27) "||" = .ok (1, .left) := by decide +kernel
  have addition : registry.scaled (.ofPosition 35) "+" = .ok (9, .left) := by decide +kernel
  have assignment : registry.scaled (.ofPosition 40) "becomes" = .ok (0, .right) := by
    decide +kernel
  rw [reachable.parse_eq_parseScale, parseScale, read]
  simp [left, right, sum, Tree.items, climbScale, extendScale, scaledBound, disjunction, addition,
    assignment]

end Registry

end Lexicon
