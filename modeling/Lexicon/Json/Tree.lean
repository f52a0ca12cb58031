/-! Values of the format, as they are written. -/

namespace Lexicon.Json

/-- Numbers, quoted texts and keys are kept as they stand in the text. The members of an object keep
their order and their repetitions. -/
inductive Tree where
  | null
  | boolean (value : Bool)
  | number (written : List Char)
  | text (written : List Char)
  | list (elements : List Tree)
  | object (members : List (List Char × Tree))
  deriving Repr

end Lexicon.Json
