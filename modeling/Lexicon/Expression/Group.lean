import Lexicon.Expression.Climb

/-! Grouping a source climbs over all its items and writes the tree with parentheses. -/

namespace Lexicon

variable {Hook : Type}

/-- A parse reads some of the items of a source, and the tree is made of them. -/
structure Parse where
  tree : Tree
  consumed : Nat
  total : Nat
  deriving DecidableEq, Repr

inductive GroupFault where
  | foreignHandle (bounds : OutOfBounds)
  | climb (fault : ClimbFault) (total : Nat)
  | trailing (source : String) (consumed total : Nat)
  deriving DecidableEq, Repr

def GroupFault.message : GroupFault → String
  | .foreignHandle bounds => bounds.message
  | .climb fault total => fault.message total
  | .trailing source consumed total =>
      "assertion `left == right` failed: trailing input in " ++ Text.quoted source ++
        "\n  left: " ++ toString consumed ++ "\n right: " ++ toString total

namespace Registry

/-- A parse can end before the last item. -/
def parse (registry : Registry Hook) (source : String) : Except GroupFault Parse :=
  match registry.lex source with
  | .error bounds => .error (.foreignHandle bounds)
  | .ok items =>
      match registry.climb none items with
      | .error fault => .error (.climb fault items.length)
      | .ok climbed => .ok ⟨climbed.tree, items.length - climbed.rest.length, items.length⟩

/-- A source that is not read to its end has no grouping. -/
def group (registry : Registry Hook) (source : String) : Except GroupFault String :=
  match registry.parse source with
  | .error fault => .error fault
  | .ok parse =>
      if parse.consumed = parse.total then .ok parse.tree.render
      else .error (.trailing source parse.consumed parse.total)

end Registry

end Lexicon
