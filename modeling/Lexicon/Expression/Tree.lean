import Lexicon.Expression.Item

/-! A tree fixes how the operators of an expression group their operands. -/

namespace Lexicon

/-- A leaf is an operand and a node is an infix operation. -/
inductive Tree where
  | leaf (text : String)
  | node (left : Tree) (handle : Handle) (operator : String) (right : Tree)
  deriving DecidableEq, Repr

namespace Tree

def render : Tree → String
  | .leaf text => text
  | .node left _ operator right =>
      "(" ++ left.render ++ " " ++ operator ++ " " ++ right.render ++ ")"

/-- The operands and operators stand from left to right. -/
def items : Tree → List Item
  | .leaf text => [.operand text]
  | .node left handle operator right => left.items ++ .operator handle operator :: right.items

/-- Every tree has an item. -/
theorem items_ne_nil (tree : Tree) : tree.items ≠ [] := by
  cases tree <;> simp [items]

end Tree

end Lexicon
