import Lexicon.Text.Quoted
import Lexicon.Token.Attributes

/-! A descriptor holds what is known of a token type, and a handle is its position in a catalog. -/

namespace Lexicon

/-- Handles of one catalog are equal exactly when they stand for the same token type. -/
@[ext] structure Handle where
  index : UInt16
  deriving DecidableEq, Repr

namespace Handle

instance : Inhabited Handle := ⟨⟨0⟩⟩

def position (handle : Handle) : Nat := handle.index.toNat

/-- The handle of a position below 65536. -/
def ofPosition (position : Nat) : Handle := ⟨.ofNat position⟩

instance : Ord Handle := ⟨fun first second => compare first.position second.position⟩

def shown (handle : Handle) : String := "TokenType(" ++ toString handle.position ++ ")"

/-- A position below 65536 is that of its handle. -/
theorem position_ofPosition {position : Nat} (within : position < 65536) :
    (ofPosition position).position = position :=
  UInt16.toNat_ofNat_of_lt' within

theorem ofPosition_position (handle : Handle) : ofPosition handle.position = handle := by
  simp [ofPosition, position]

end Handle

/-- The label is for diagnostics, and only a keyword has a spelling. The slot takes a hook of the
context tracker, of any type. -/
structure Descriptor (Hook : Type) where
  handle : Handle
  label : String
  keyword : Option String
  attributes : Attributes
  hook : Option Hook
  deriving DecidableEq, Repr, Inhabited

namespace Descriptor

variable {Hook : Type}

def has (descriptor : Descriptor Hook) (flag : Flag) : Bool := descriptor.attributes.has flag

def level (descriptor : Descriptor Hook) : Option UInt8 := descriptor.attributes.level

/-- A keyword is displayed by its spelling and another type by its label. -/
def display (descriptor : Descriptor Hook) : String :=
  match descriptor.keyword with
  | some spelling => "keyword '" ++ spelling ++ "'"
  | none => "'" ++ descriptor.label ++ "'"

def shown (descriptor : Descriptor Hook) : String :=
  "TokenDescriptor \x7b ty: " ++ descriptor.handle.shown ++
    ", label: " ++ Text.quoted descriptor.label ++
    ", keyword: " ++ Text.quotedOption descriptor.keyword ++
    ", flags: " ++ descriptor.attributes.flags.shown ++
    ", binop: " ++ shownLevel descriptor.level ++
    ", update_context: " ++ toString descriptor.hook.isSome ++ " \x7d"

end Descriptor

end Lexicon
