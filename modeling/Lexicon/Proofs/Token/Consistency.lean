import Lexicon.Token.Consistency

/-! Attributes have no fault exactly when they meet every rule of consistency. -/

namespace Lexicon.Attributes

/-- Each field is one rule. The first three bind only attributes with a level. -/
structure Consistent (attributes : Attributes) (isKeyword rightTaken : Bool) : Prop where
  positive : attributes.level ≠ some 0
  followed : attributes.level.isSome = true → attributes.has .beforeExpr = true
  unassigned : attributes.level.isSome = true → attributes.has .isAssign = false
  leveled : attributes.has .rightAssociative = true → attributes.level.isSome = true
  alone : attributes.has .rightAssociative = true → rightTaken = false
  starting : (attributes.has .unaryPrefix || attributes.has .unaryPostfix) = true →
    attributes.has .startsExpr = true
  reserved : attributes.has .isLoop = true → isKeyword = true

/-- Beside a right-associative operator only left-associative attributes are consistent. -/
theorem Consistent.left {attributes : Attributes} {isKeyword : Bool}
    (consistent : attributes.Consistent isKeyword true) :
    attributes.has .rightAssociative = false := by
  rw [Bool.eq_false_iff]
  intro right
  cases consistent.alone right

theorem not_and_iff (first second : Bool) :
    ¬(first && second) = true ↔ (first = true → second = false) := by
  revert first second
  decide

/-- The check finds no fault in consistent attributes and in no others. -/
theorem fault?_eq_none_iff (attributes : Attributes) (isKeyword rightTaken : Bool) :
    attributes.fault? isKeyword rightTaken = none ↔ attributes.Consistent isKeyword rightTaken := by
  have step {rule : Prop} [Decidable rule] (fault : AttributeFault)
      (rest : Option AttributeFault) :
      (if rule then some fault else rest) = none ↔ ¬rule ∧ rest = none := by
    by_cases broken : rule <;> simp [broken]
  rw [fault?, step, step, step, step, step, step, step, ← Option.not_isSome]
  simp only [not_and_iff, Bool.not_eq_false', and_true]
  constructor
  · intro found
    obtain ⟨positive, followed, unassigned, leveled, alone, starting, reserved⟩ := found
    exact ⟨positive, followed, unassigned, leveled, alone, starting, reserved⟩
  · intro found
    obtain ⟨positive, followed, unassigned, leveled, alone, starting, reserved⟩ := found
    exact ⟨positive, followed, unassigned, leveled, alone, starting, reserved⟩

end Lexicon.Attributes
