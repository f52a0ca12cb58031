import Lexicon.Json.Streaming.Number
import Lexicon.Json.Streaming.Quote

/-! A value of the wrong type is read for its own faults before it is refused. -/

namespace Lexicon.Json.Streaming

/-- The value that stands at the start of the text. -/
def readFound (text : List Char) : Read Found :=
  let ident (found : Found) (letters rest : List Char) : Read Found :=
    (readIdent letters rest).map fun unread => (found, unread)
  match text with
  | [] => .error (.next .endInValue [])
  | c :: rest =>
      if c = 'n' then ident .null ['u', 'l', 'l'] rest
      else if c = 't' then ident (.boolean true) ['r', 'u', 'e'] rest
      else if c = 'f' then ident (.boolean false) ['a', 'l', 's', 'e'] rest
      else if c = '-' ∨ c.isDigit then
        match readNumeral .endInValue (c :: rest) with
        | .error failure => .error failure
        | .ok (numeral, unread) => (numeral.value unread).map fun found => (found, unread)
      else if c = '"' then (readText rest).map fun (value, unread) => (.text value, unread)
      else if c = '[' then .ok (.list, c :: rest)
      else if c = '{' then .ok (.object, c :: rest)
      else .error (.next .valueExpected (c :: rest))

/-- The failure of a text that starts with no value of the expected type. -/
def mismatch (expected : String) (text : List Char) : Failure :=
  match readFound text with
  | .error failure => failure
  | .ok (found, unread) => .here (.wrongType found expected) unread

end Lexicon.Json.Streaming
