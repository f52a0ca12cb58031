import Lexicon.Registry

/-! A source is a sequence of words, and a registry sorts them into operands and infix operators. -/

namespace Lexicon

variable {Hook : Type}

/-- An item is a word of a source, and an operator also has a handle. -/
inductive Item where
  | operand (text : String)
  | operator (handle : Handle) (text : String)
  deriving DecidableEq, Repr

def Item.text : Item → String
  | .operand text => text
  | .operator _ text => text

namespace Registry

/-- A word is an operator when its token type has a tier. -/
def item (registry : Registry Hook) (word : String) : Except OutOfBounds Item :=
  match registry.wordHandle? word with
  | none => .ok (.operand word)
  | some handle =>
      match registry.catalog.index handle with
      | .error bounds => .error bounds
      | .ok descriptor =>
          .ok (if descriptor.tier?.isSome then .operator handle word else .operand word)

/-- Each word of the source is one item. -/
def lex (registry : Registry Hook) (source : String) : Except OutOfBounds (List Item) :=
  (Text.words source).mapM registry.item

end Registry

end Lexicon
