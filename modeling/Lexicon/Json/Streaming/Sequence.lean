import Lexicon.Json.Streaming.Mismatch

/-! What stands between the elements of a list and the members of an object. -/

namespace Lexicon.Json.Streaming

/-- A comma stands before every element but the first. An element that follows is still unread. -/
def nextElement (first : Bool) (text : List Char) : Read Bool :=
  match skipBlank text with
  | [] => .error (.next .endInList [])
  | ']' :: rest => .ok (false, rest)
  | c :: rest =>
      if first then .ok (true, c :: rest)
      else if c = ',' then
        match skipBlank rest with
        | [] => .error (.next .endInValue [])
        | ']' :: unread => .error (.next .trailingComma (']' :: unread))
        | unread => .ok (true, unread)
      else .error (.next .listEndExpected (c :: rest))

/-- The opening quote of a key is read. -/
def openKey : List Char → Read Bool
  | '"' :: rest => .ok (true, rest)
  | text => .error (.next .keyExpected text)

/-- A comma stands before every member but the first. The quote of a member that follows is read. -/
def nextMember (first : Bool) (text : List Char) : Read Bool :=
  match skipBlank text with
  | [] => .error (.next .endInObject [])
  | '}' :: rest => .ok (false, rest)
  | c :: rest =>
      if first then openKey (c :: rest)
      else if c = ',' then
        match skipBlank rest with
        | [] => .error (.next .endInValue [])
        | '}' :: unread => .error (.next .trailingComma ('}' :: unread))
        | unread => openKey unread
      else .error (.next .objectEndExpected (c :: rest))

/-- The bracket of a list without more elements is read. -/
def closeList (text : List Char) : Except Failure (List Char) :=
  match skipBlank text with
  | [] => .error (.next .endInList [])
  | ']' :: rest => .ok rest
  | ',' :: rest =>
      match skipBlank rest with
      | ']' :: unread => .error (.next .trailingComma (']' :: unread))
      | unread => .error (.next .trailingCharacters unread)
  | other => .error (.next .trailingCharacters other)

/-- The word null stands for an absent value. -/
def readOptional {Value : Type} (read : List Char → Read Value) (text : List Char) :
    Read (Option Value) :=
  match skipBlank text with
  | 'n' :: rest =>
      match readIdent ['u', 'l', 'l'] rest with
      | .error failure => .error failure
      | .ok unread => .ok (none, unread)
  | other =>
      match read other with
      | .error failure => .error failure
      | .ok (value, unread) => .ok (some value, unread)

/-- A text stands at the start of the unread one. -/
def readString (text : List Char) : Read String :=
  match skipBlank text with
  | '"' :: rest => readText rest
  | other => .error (mismatch "a string" other)

theorem length_le_of_nextElement {first more : Bool} {text rest : List Char}
    (read : nextElement first text = .ok (more, rest)) : rest.length ≤ text.length := by
  have blank := length_skipBlank_le
  unfold nextElement at read
  grind

theorem length_lt_of_nextMember {first more : Bool} {text rest : List Char}
    (read : nextMember first text = .ok (more, rest)) : rest.length < text.length := by
  have blank := length_skipBlank_le
  unfold nextMember openKey at read
  grind

theorem length_lt_of_readString {text rest : List Char} {value : String}
    (read : readString text = .ok (value, rest)) : rest.length < text.length := by
  have blank := length_skipBlank_le
  have inside {text rest : List Char} {value : String} := @length_lt_of_readText text rest value
  unfold readString at read
  grind

/-- The whole text is one value, and blanks may follow it. -/
def readAll {Value : Type} (read : List Char → Read Value) (text : List Char) :
    Except Error Value :=
  match read text with
  | .error failure => .error (failure.locate text)
  | .ok (value, rest) =>
      match skipBlank rest with
      | [] => .ok value
      | unread => .error ((Failure.next .trailingCharacters unread).locate text)

end Lexicon.Json.Streaming
