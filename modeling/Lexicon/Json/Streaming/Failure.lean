import Lexicon.Json.Library
import Lexicon.Number.Shortest
import Lexicon.Text.Quoted

/-! Reading fails for a cause and at a place. -/

namespace Lexicon.Json.Streaming

/-- A value that stands where another kind of value is expected. -/
inductive Found where
  | null
  | boolean (value : Bool)
  | integer (value : Int)
  | float (negative : Bool) (magnitude : Binary64)
  | text (value : String)
  | list
  | object
  deriving DecidableEq, Repr

def Found.describe : Found → String
  | .null => "null"
  | .boolean value => "boolean `" ++ toString value ++ "`"
  | .integer value => "integer `" ++ toString value ++ "`"
  | .float negative magnitude =>
      "floating point `" ++ (if negative then "-" else "") ++ magnitude.shortest.render ++ "`"
  | .text value => "string " ++ Text.quoted value
  | .list => "sequence"
  | .object => "map"

inductive Cause where
  | endInValue
  | endInObject
  | endInList
  | endInText
  | valueExpected
  | identExpected
  | colonExpected
  | listEndExpected
  | objectEndExpected
  | keyExpected
  | trailingComma
  | trailingCharacters
  | invalidNumber
  | numberOutOfRange
  | controlCharacter
  | invalidEscape
  | loneSurrogate
  | halfPair
  | wrongType (found : Found) (expected : String)
  | wrongLength (count : Nat) (expected : String)
  | unknownVariant (name : String) (known : List String)
  | duplicateField (name : String)
  deriving DecidableEq, Repr

namespace Cause

def category : Cause → Category
  | .endInValue | .endInObject | .endInList | .endInText => .cutOff
  | .wrongType .. | .wrongLength .. | .unknownVariant .. | .duplicateField .. => .data
  | _ => .grammar

def message : Cause → String
  | .endInValue => "EOF while parsing a value"
  | .endInObject => "EOF while parsing an object"
  | .endInList => "EOF while parsing a list"
  | .endInText => "EOF while parsing a string"
  | .valueExpected => "expected value"
  | .identExpected => "expected ident"
  | .colonExpected => "expected `:`"
  | .listEndExpected => "expected `,` or `]`"
  | .objectEndExpected => "expected `,` or `\x7d`"
  | .keyExpected => "key must be a string"
  | .trailingComma => "trailing comma"
  | .trailingCharacters => "trailing characters"
  | .invalidNumber => "invalid number"
  | .numberOutOfRange => "number out of range"
  | .controlCharacter => "control character (\\u0000-\\u001F) found while parsing a string"
  | .invalidEscape => "invalid escape"
  | .loneSurrogate => "lone leading surrogate in hex escape"
  | .halfPair => "unexpected end of hex escape"
  | .wrongType found expected =>
      "invalid type: " ++ found.describe ++ ", expected " ++ expected
  | .wrongLength count expected =>
      "invalid length " ++ toString count ++ ", expected " ++ expected
  | .unknownVariant name known =>
      "unknown variant `" ++ name ++ "`, expected " ++
        " or ".intercalate (known.map fun word => "`" ++ word ++ "`")
  | .duplicateField name => "duplicate field `" ++ name ++ "`"

end Cause

/-- The place is the start of the unread text, moved on by some of its bytes. -/
structure Failure where
  cause : Cause
  unread : List Char
  counted : Nat
  deriving DecidableEq, Repr

namespace Failure

/-- The failure is at the next byte to be read. -/
def here (cause : Cause) (unread : List Char) : Failure := ⟨cause, unread, 0⟩

/-- The failure is after the next byte, if there is one. -/
def next (cause : Cause) (unread : List Char) : Failure := ⟨cause, unread, 1⟩

end Failure

/-- Lines count from one, and columns count the bytes of a line before the position. -/
structure Position where
  line : Nat
  column : Nat
  deriving DecidableEq, Repr

namespace Position

def start : Position := ⟨1, 0⟩

/-- A line feed starts a line. -/
def advance (position : Position) (byte : UInt8) : Position :=
  if byte = 10 then ⟨position.line + 1, 0⟩ else ⟨position.line, position.column + 1⟩

end Position

def bytes (text : List Char) : List UInt8 := text.flatMap String.utf8EncodeChar

/-- An error is a failure at its position in the whole text. -/
structure Error where
  cause : Cause
  position : Position
  deriving DecidableEq, Repr

namespace Error

def message (error : Error) : String :=
  error.cause.message ++ " at line " ++ toString error.position.line ++ " column " ++
    toString error.position.column

def category (error : Error) : Category := error.cause.category

end Error

/-- The position is that after all read bytes and the counted ones. -/
def Failure.locate (failure : Failure) (text : List Char) : Error :=
  let read := bytes (text.take (text.length - failure.unread.length))
  let counted := (bytes (failure.unread.take failure.counted)).take failure.counted
  ⟨failure.cause, (read ++ counted).foldl Position.advance .start⟩

/-- A reader gives a value and the text that it has not read. -/
abbrev Read (Value : Type) := Except Failure (Value × List Char)

end Lexicon.Json.Streaming
