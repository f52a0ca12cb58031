import Lexicon.Token.Flag

/-! A token type is defined from a set of flags and, for a binary operator, a level. -/

namespace Lexicon

@[ext] structure Attributes where
  flags : Flags
  level : Option UInt8
  deriving DecidableEq, Repr

/-- A setting raises one flag or gives the level. -/
inductive Setting where
  | flag (flag : Flag)
  | level (level : UInt8)
  deriving DecidableEq, Repr

namespace Attributes

/-- No flag is raised and there is no level. -/
def plain : Attributes := ⟨.empty, none⟩

instance : Inhabited Attributes := ⟨plain⟩

/-- A later level replaces an earlier one, and a flag stays raised. -/
def set (attributes : Attributes) : Setting → Attributes
  | .flag flag => { attributes with flags := attributes.flags.union (.only flag) }
  | .level level => { attributes with level := some level }

def ofSettings (settings : List Setting) : Attributes := settings.foldl set plain

def ofFlags (flags : List Flag) : Attributes := ⟨.ofList flags, none⟩

/-- A binary operator of the level allows an expression after it. -/
def binary (level : UInt8) : Attributes := ⟨.only .beforeExpr, some level⟩

def has (attributes : Attributes) (flag : Flag) : Bool := attributes.flags.has flag

end Attributes

/-- A level is shown by the word None, or by its number in the word Some. -/
def shownLevel : Option UInt8 → String
  | none => "None"
  | some level => "Some(" ++ toString level.toNat ++ ")"

def Attributes.shown (attributes : Attributes) : String :=
  "TokenOptions \x7b flags: " ++ attributes.flags.shown ++ ", binop: " ++
    shownLevel attributes.level ++ " \x7d"

end Lexicon
