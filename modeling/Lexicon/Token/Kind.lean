import Lexicon.Operator.Tier

/-! The kinds are the token types that are not reserved words, and every catalog defines them first. -/

namespace Lexicon

inductive Kind where
  | num | regexp | string | identifier | eof | bracketL | bracketR | braceL | braceR | parenL | parenR
  | comma | semi | colon | doubleColon | dot | question | arrow | template | ellipsis | backQuote
  | dollarBraceL | atSign | eq | assign | incDec | unaryPrefix | logicalOr | logicalAnd
  | bitwiseOr | bitwiseXor | bitwiseAnd | equality | relational | bitShift | plusMin | modulo
  | star | slash | exponent
  deriving DecidableEq, Repr

namespace Kind

def all : List Kind :=
  [.num, .regexp, .string, .identifier, .eof, .bracketL, .bracketR, .braceL, .braceR, .parenL,
    .parenR, .comma, .semi, .colon, .doubleColon, .dot, .question, .arrow, .template, .ellipsis,
    .backQuote, .dollarBraceL, .atSign, .eq, .assign, .incDec, .unaryPrefix, .logicalOr,
    .logicalAnd, .bitwiseOr, .bitwiseXor, .bitwiseAnd, .equality, .relational, .bitShift,
    .plusMin, .modulo, .star, .slash, .exponent]

def position (kind : Kind) : Nat := kind.ctorIdx

/-- The handle that the kind has in every catalog. -/
def handle (kind : Kind) : Handle := .ofPosition kind.position

instance : Ord Kind := ⟨fun first second => compare first.position second.position⟩

/-- The name is the key of the kind in a catalog. -/
def name : Kind → String
  | .num => "num"
  | .regexp => "regexp"
  | .string => "string"
  | .identifier => "name"
  | .eof => "eof"
  | .bracketL => "bracketL"
  | .bracketR => "bracketR"
  | .braceL => "braceL"
  | .braceR => "braceR"
  | .parenL => "parenL"
  | .parenR => "parenR"
  | .comma => "comma"
  | .semi => "semi"
  | .colon => "colon"
  | .doubleColon => "doubleColon"
  | .dot => "dot"
  | .question => "question"
  | .arrow => "arrow"
  | .template => "template"
  | .ellipsis => "ellipsis"
  | .backQuote => "backQuote"
  | .dollarBraceL => "dollarBraceL"
  | .atSign => "at"
  | .eq => "eq"
  | .assign => "assign"
  | .incDec => "incDec"
  | .unaryPrefix => "prefix"
  | .logicalOr => "logicalOR"
  | .logicalAnd => "logicalAND"
  | .bitwiseOr => "bitwiseOR"
  | .bitwiseXor => "bitwiseXOR"
  | .bitwiseAnd => "bitwiseAND"
  | .equality => "equality"
  | .relational => "relational"
  | .bitShift => "bitShift"
  | .plusMin => "plusMin"
  | .modulo => "modulo"
  | .star => "star"
  | .slash => "slash"
  | .exponent => "exponent"

/-- A slash separates the spellings of a kind that has several. -/
def label : Kind → String
  | .num => "num"
  | .regexp => "regexp"
  | .string => "string"
  | .identifier => "name"
  | .eof => "eof"
  | .bracketL => "["
  | .bracketR => "]"
  | .braceL => "\x7b"
  | .braceR => "\x7d"
  | .parenL => "("
  | .parenR => ")"
  | .comma => ","
  | .semi => ";"
  | .colon => ":"
  | .doubleColon => "::"
  | .dot => "."
  | .question => "?"
  | .arrow => "=>"
  | .template => "template"
  | .ellipsis => "..."
  | .backQuote => "`"
  | .dollarBraceL => "$\x7b"
  | .atSign => "@"
  | .eq => "="
  | .assign => "_="
  | .incDec => "++/--"
  | .unaryPrefix => "!/~"
  | .logicalOr => "||"
  | .logicalAnd => "&&"
  | .bitwiseOr => "|"
  | .bitwiseXor => "^"
  | .bitwiseAnd => "&"
  | .equality => "==/!=/===/!=="
  | .relational => "</>/<=/>="
  | .bitShift => "<</>>/>>>"
  | .plusMin => "+/-"
  | .modulo => "%"
  | .star => "*"
  | .slash => "/"
  | .exponent => "**"

/-- A kind is shown by its name in capitalised words. -/
def shown : Kind → String
  | .logicalOr => "LogicalOr"
  | .logicalAnd => "LogicalAnd"
  | .bitwiseOr => "BitwiseOr"
  | .bitwiseXor => "BitwiseXor"
  | .bitwiseAnd => "BitwiseAnd"
  | kind => kind.name.capitalize

/-- The grammar gives each kind its attributes. -/
def attributes : Kind → Attributes
  | .num | .regexp | .string | .identifier | .backQuote => .ofFlags [.startsExpr]
  | .bracketL | .braceL | .parenL | .dollarBraceL => .ofFlags [.beforeExpr, .startsExpr]
  | .comma | .semi | .colon | .doubleColon | .question | .arrow | .ellipsis =>
      .ofFlags [.beforeExpr]
  | .eq | .assign => .ofFlags [.beforeExpr, .isAssign]
  | .incDec => .ofFlags [.unaryPrefix, .unaryPostfix, .startsExpr]
  | .unaryPrefix => .ofFlags [.beforeExpr, .unaryPrefix, .startsExpr]
  | .plusMin =>
      .ofSettings [.flag .beforeExpr, .level Level.additive, .flag .unaryPrefix, .flag .startsExpr]
  | .exponent => .ofSettings [.flag .beforeExpr, .level Level.exponent, .flag .rightAssociative]
  | .logicalOr => .binary Level.logicalOr
  | .logicalAnd => .binary Level.logicalAnd
  | .bitwiseOr => .binary Level.bitwiseOr
  | .bitwiseXor => .binary Level.bitwiseXor
  | .bitwiseAnd => .binary Level.bitwiseAnd
  | .equality => .binary Level.equality
  | .relational => .binary Level.relational
  | .bitShift => .binary Level.shift
  | .modulo | .star | .slash => .binary Level.multiplicative
  | .eof | .bracketR | .braceR | .parenR | .dot | .template | .atSign => .plain

def ofName? (name : String) : Option Kind := all.find? (·.name == name)

/-- The kind that a punctuator or operator belongs to. -/
def ofPunctuator? : String → Option Kind
  | "[" => some .bracketL
  | "]" => some .bracketR
  | "\x7b" => some .braceL
  | "\x7d" => some .braceR
  | "(" => some .parenL
  | ")" => some .parenR
  | "," => some .comma
  | ";" => some .semi
  | ":" => some .colon
  | "::" => some .doubleColon
  | "." => some .dot
  | "?" => some .question
  | "=>" => some .arrow
  | "..." => some .ellipsis
  | "`" => some .backQuote
  | "$\x7b" => some .dollarBraceL
  | "@" => some .atSign
  | "=" => some .eq
  | "+=" | "-=" | "*=" | "/=" | "%=" | "**=" | "<<=" | ">>=" | ">>>=" | "&=" | "|=" | "^=" =>
      some .assign
  | "++" | "--" => some .incDec
  | "!" | "~" => some .unaryPrefix
  | "||" => some .logicalOr
  | "&&" => some .logicalAnd
  | "|" => some .bitwiseOr
  | "^" => some .bitwiseXor
  | "&" => some .bitwiseAnd
  | "==" | "!=" | "===" | "!==" => some .equality
  | "<" | ">" | "<=" | ">=" => some .relational
  | "<<" | ">>" | ">>>" => some .bitShift
  | "+" | "-" => some .plusMin
  | "%" => some .modulo
  | "*" => some .star
  | "/" => some .slash
  | "**" => some .exponent
  | _ => none

/-- Each kind stands in the list at its position. -/
theorem all_getElem?_position (kind : Kind) : all[kind.position]? = some kind := by
  cases kind <;> rfl

/-- There are forty kinds. -/
theorem position_lt (kind : Kind) : kind.position < 40 := by
  cases kind <;> decide

theorem position_handle (kind : Kind) : kind.handle.position = kind.position :=
  Handle.position_ofPosition (by have := kind.position_lt; omega)

/-- A kind is found by its name. -/
theorem ofName?_name (kind : Kind) : ofName? kind.name = some kind := by
  cases kind <;> rfl

end Kind

end Lexicon
