import Lexicon.Token.Attributes

/-! Attributes are consistent when they contradict neither each other nor what their definition is. -/

namespace Lexicon

/-- Each reason is a rule that flags and level can break. -/
inductive Inconsistency where
  | closedBinary
  | leveledAssignment
  | unleveledRight
  | secondRight
  | closedUnary
  | loopWithoutKeyword
  deriving DecidableEq, Repr

def Inconsistency.reason : Inconsistency → String
  | .closedBinary => "binary operator must allow an expression after it"
  | .leveledAssignment => "assignment has its own tier and takes no binary precedence"
  | .unleveledRight => "right associativity requires a binary precedence"
  | .secondRight => "only exponentiation is right-associative"
  | .closedUnary => "unary operator must be able to start an expression"
  | .loopWithoutKeyword => "only keywords open loops"

/-- Levels start at one. -/
inductive AttributeFault where
  | levelZero
  | inconsistent (reason : Inconsistency)
  deriving DecidableEq, Repr

/-- The first rule that the attributes break is the fault. -/
def Attributes.fault? (attributes : Attributes) (isKeyword rightTaken : Bool) :
    Option AttributeFault :=
  if attributes.level = some 0 then some .levelZero
  else if attributes.level.isSome && !attributes.has .beforeExpr then
    some (.inconsistent .closedBinary)
  else if attributes.level.isSome && attributes.has .isAssign then
    some (.inconsistent .leveledAssignment)
  else if attributes.has .rightAssociative && attributes.level.isNone then
    some (.inconsistent .unleveledRight)
  else if attributes.has .rightAssociative && rightTaken then
    some (.inconsistent .secondRight)
  else if (attributes.has .unaryPrefix || attributes.has .unaryPostfix) &&
      !attributes.has .startsExpr then
    some (.inconsistent .closedUnary)
  else if attributes.has .isLoop && !isKeyword then
    some (.inconsistent .loopWithoutKeyword)
  else none

end Lexicon
