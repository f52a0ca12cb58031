/-! Options choose the reserved words of a registry. -/

namespace Lexicon

/-- An edition of the language has a preset of reserved words. -/
inductive Edition where
  | es5
  | es2015
  deriving DecidableEq, Repr

namespace Edition

/-- This edition serves when the options name none. -/
def default : Edition := .es2015

instance : Inhabited Edition := ⟨default⟩

/-- The reserved words of the older edition stand in registration order. -/
def es5Words : List String :=
  ["break", "case", "catch", "continue", "debugger", "default", "do", "else", "finally", "for",
    "function", "if", "return", "switch", "throw", "try", "var", "while", "with", "null", "true",
    "false", "instanceof", "typeof", "void", "delete", "new", "in", "this"]

/-- The newer edition adds these words. -/
def es2015Additions : List String :=
  ["let", "const", "class", "extends", "export", "import", "yield", "super"]

def words : Edition → List String
  | .es5 => es5Words
  | .es2015 => es5Words ++ es2015Additions

end Edition

/-- An absent list differs from an empty one. -/
structure Options where
  edition : Option Edition
  keywords : Option (List String)
  extraKeywords : Option (List String)
  deriving DecidableEq, Repr

namespace Options

def default : Options := ⟨none, none, none⟩

instance : Inhabited Options := ⟨default⟩

/-- The options that name an edition and nothing else. -/
def forEdition (edition : Edition) : Options := { default with edition := some edition }

/-- Explicit keywords replace the preset, and extra keywords follow either. Repeated words stay. -/
def wordList (options : Options) : List String :=
  options.keywords.getD (options.edition.getD .default).words ++ options.extraKeywords.getD []

end Options

end Lexicon
