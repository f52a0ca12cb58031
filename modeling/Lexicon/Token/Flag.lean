/-! The named attributes of a token type and the sets of them. -/

namespace Lexicon

/-- A flag says one thing about a token type. -/
inductive Flag where
  /-- An expression may follow, so a slash after the token starts a regular expression. -/
  | beforeExpr
  /-- The token may begin an expression. -/
  | startsExpr
  | rightAssociative
  /-- The keyword opens a loop. -/
  | isLoop
  /-- The token is plain or compound assignment. -/
  | isAssign
  | unaryPrefix
  | unaryPostfix
  deriving DecidableEq, Repr

namespace Flag

/-- The flags stand in the order of their bits. -/
def all : List Flag :=
  [.beforeExpr, .startsExpr, .rightAssociative, .isLoop, .isAssign, .unaryPrefix, .unaryPostfix]

def bit : Flag → UInt8
  | .beforeExpr => 1
  | .startsExpr => 2
  | .rightAssociative => 4
  | .isLoop => 8
  | .isAssign => 16
  | .unaryPrefix => 32
  | .unaryPostfix => 64

/-- The constant names the flag as a member of a set. -/
def constant : Flag → String
  | .beforeExpr => "BEFORE_EXPR"
  | .startsExpr => "STARTS_EXPR"
  | .rightAssociative => "RIGHT_ASSOCIATIVE"
  | .isLoop => "IS_LOOP"
  | .isAssign => "IS_ASSIGN"
  | .unaryPrefix => "PREFIX"
  | .unaryPostfix => "POSTFIX"

end Flag

/-- A set of flags is a byte with one bit for each member. The highest bit has no name but is carried
like the others. -/
@[ext] structure Flags where
  bits : UInt8
  deriving DecidableEq, Repr

namespace Flags

def empty : Flags := ⟨0⟩

instance : Inhabited Flags := ⟨empty⟩

/-- This set holds every named flag. -/
def named : Flags := ⟨127⟩

def only (flag : Flag) : Flags := ⟨flag.bit⟩

def union (first second : Flags) : Flags := ⟨first.bits ||| second.bits⟩

def inter (first second : Flags) : Flags := ⟨first.bits &&& second.bits⟩

/-- The difference keeps an unnamed bit that the second set lacks. -/
def diff (first second : Flags) : Flags := ⟨first.bits &&& ~~~second.bits⟩

/-- Truncation drops the unnamed bit. -/
def truncate (flags : Flags) : Flags := flags.inter named

/-- The unnamed bits are those that truncation drops. -/
def unnamed (flags : Flags) : Flags := flags.diff named

def isEmpty (flags : Flags) : Bool := flags.bits == 0

/-- Every member of the second set is one of the first. -/
def includes (first second : Flags) : Bool := first.inter second == second

def has (flags : Flags) (flag : Flag) : Bool := flags.includes (only flag)

def ofList (flags : List Flag) : Flags :=
  flags.foldl (fun set flag => set.union (only flag)) empty

def toList (flags : Flags) : List Flag := Flag.all.filter flags.has

/-- The names of the members are joined by bars, and unnamed bits follow in hexadecimal. -/
def shown (flags : Flags) : String :=
  let names := flags.toList.map Flag.constant
  let rest :=
    if flags.unnamed.isEmpty && !flags.isEmpty then []
    else ["0x" ++ String.ofList (Nat.toDigits 16 flags.unnamed.bits.toNat)]
  "TokenFlags(" ++ " | ".intercalate (names ++ rest) ++ ")"

end Flags

end Lexicon
