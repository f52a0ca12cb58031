import Lexicon.Operator.Tier
import Lexicon.Text.WhiteSpace

/-! The grammar gives reserved words their attributes and their names in the catalog. -/

namespace Lexicon.Keyword

/-- The underscore keeps the names of keywords apart from those of the kinds. -/
def name (spelling : String) : String := "_" ++ spelling

/-- A word that the grammar does not list carries no flag. -/
def attributes : String → Attributes
  | "case" | "default" | "else" | "return" | "throw" | "extends" => .ofFlags [.beforeExpr]
  | "do" => .ofFlags [.isLoop, .beforeExpr]
  | "for" | "while" => .ofFlags [.isLoop]
  | "function" | "this" | "super" | "null" | "true" | "false" => .ofFlags [.startsExpr]
  | "new" | "yield" => .ofFlags [.beforeExpr, .startsExpr]
  | "in" | "instanceof" => .binary Level.relational
  | "typeof" | "void" | "delete" => .ofFlags [.beforeExpr, .unaryPrefix, .startsExpr]
  | _ => .plain

/-- A spelling is one word: it is not empty and holds no white space. -/
def isSpelling (text : String) : Bool := !text.isEmpty && !text.toList.any Text.isWhiteSpace

end Lexicon.Keyword
