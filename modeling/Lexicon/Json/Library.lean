import Lexicon.Json.Shape
import Lexicon.Json.Tree

/-! The operations of a library that reads and writes declared types. -/

namespace Lexicon.Json

/-- A text is cut off, or breaks the grammar, or holds the wrong data. -/
inductive Category where
  | cutOff
  | grammar
  | data
  deriving DecidableEq, Repr

/-- What a library does with the shapes that are declared to it. -/
structure Library where
  Error : Type
  category : Error → Category
  message : Error → String
  rename : Rename → String → String
  /-- The whole text is one value of the shape. -/
  fromText {Value : Type} : Shape Value → String → Except Error Value
  toText {Value : Type} : Shape Value → Value → String
  /-- A value of the shape stands at the start of the text, and what follows it is left. -/
  read {Value : Type} : Shape Value → List Char → Except Category (Value × List Char)
  /-- What the shape makes of a value of the format, whatever text this stands in. -/
  visit {Value : Type} : Shape Value → Tree → Except Category Value
  /-- A record takes one member of an object. -/
  takeMember {Record Field : Type} [DecidableEq Field] {Content : Field → Type} :
    Declaration Record Field Content → ((field : Field) → Shape (Content field)) →
      Draft Content → List Char × Tree → Except Category (Draft Content)
  /-- A field of a record takes the first element that is left of a list. -/
  takePlace {Record Field : Type} [DecidableEq Field] {Content : Field → Type} :
    Declaration Record Field Content → ((field : Field) → Shape (Content field)) →
      Draft Content × List Tree → Field → Except Category (Draft Content × List Tree)

end Lexicon.Json
