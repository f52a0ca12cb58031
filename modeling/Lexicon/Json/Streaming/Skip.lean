import Lexicon.Json.Streaming.Number
import Lexicon.Json.Streaming.Quote

/-! A value of no interest is skipped at any depth. -/

namespace Lexicon.Json.Streaming

inductive Enclosing where
  | list
  | object
  deriving DecidableEq, Repr

/-- What is due next, with the enclosing values from the innermost outwards. -/
inductive Due where
  | value (enclosing : List Enclosing)
  | key (enclosing : List Enclosing)
  | separator (inner : Enclosing) (outer : List Enclosing)
  deriving DecidableEq, Repr

/-- A scalar is a fixed word, a number or a text. -/
def skipScalar (text : List Char) : Except Failure (List Char) :=
  match text with
  | [] => .error (.next .endInValue [])
  | c :: rest =>
      if c = 'n' then readIdent ['u', 'l', 'l'] rest
      else if c = 't' then readIdent ['r', 'u', 'e'] rest
      else if c = 'f' then readIdent ['a', 'l', 's', 'e'] rest
      else if c = '-' ∨ c.isDigit then
        match readNumeral .invalidNumber (c :: rest) with
        | .error failure => .error failure
        | .ok (_, unread) => .ok unread
      else if c = '"' then skipText rest
      else .error (.next .valueExpected (c :: rest))

theorem length_lt_of_skipScalar {text rest : List Char} (read : skipScalar text = .ok rest) :
    rest.length < text.length := by
  unfold skipScalar at read
  have ident {letters text rest : List Char} := @length_le_of_readIdent letters text rest
  have skipped {text rest : List Char} := @length_lt_of_skipText text rest
  have numeral {ended : Cause} {text rest : List Char} {numeral : Numeral} :=
    @length_lt_of_readNumeral ended text rest numeral
  grind

namespace Due

/-- Nothing is due after the outermost value. -/
def afterValue : List Enclosing → Option Due
  | [] => none
  | inner :: outer => some (.separator inner outer)

/-- A list or an object may end at once. -/
def stepValue (enclosing : List Enclosing) (text : List Char) : Read (Option Due) :=
  match text with
  | '[' :: rest =>
      match skipBlank rest with
      | [] => .error (.next .endInList [])
      | ']' :: unread => .ok (afterValue enclosing, unread)
      | unread => .ok (some (.value (.list :: enclosing)), unread)
  | '{' :: rest =>
      match skipBlank rest with
      | [] => .error (.next .endInObject [])
      | '}' :: unread => .ok (afterValue enclosing, unread)
      | unread => .ok (some (.key enclosing), unread)
  | other =>
      match skipScalar other with
      | .error failure => .error failure
      | .ok unread => .ok (afterValue enclosing, unread)

/-- A key is a text and a colon. -/
def stepKey (enclosing : List Enclosing) (text : List Char) : Read (Option Due) :=
  match text with
  | [] => .error (.next .endInObject [])
  | '"' :: rest =>
      match skipText rest with
      | .error failure => .error failure
      | .ok unread =>
          match readColon unread with
          | .error failure => .error failure
          | .ok unread => .ok (some (.value (.object :: enclosing)), unread)
  | other => .error (.next .keyExpected other)

def stepSeparator (inner : Enclosing) (outer : List Enclosing) (text : List Char) :
    Read (Option Due) :=
  match inner, text with
  | .list, [] => .error (.next .endInList [])
  | .list, ',' :: rest => .ok (some (.value (.list :: outer)), rest)
  | .list, ']' :: rest => .ok (afterValue outer, rest)
  | .list, other => .error (.next .listEndExpected other)
  | .object, [] => .error (.next .endInObject [])
  | .object, ',' :: rest => .ok (some (.key outer), rest)
  | .object, '}' :: rest => .ok (afterValue outer, rest)
  | .object, other => .error (.next .objectEndExpected other)

/-- Blanks may stand before everything that is due. -/
def step (due : Due) (text : List Char) : Read (Option Due) :=
  match due with
  | .value enclosing => stepValue enclosing (skipBlank text)
  | .key enclosing => stepKey enclosing (skipBlank text)
  | .separator inner outer => stepSeparator inner outer (skipBlank text)

/-- A value or its opening bracket is skipped. -/
theorem length_lt_of_stepValue {enclosing : List Enclosing} {text rest : List Char}
    {due : Option Due} (read : stepValue enclosing text = .ok (due, rest)) :
    rest.length < text.length := by
  unfold stepValue at read
  have blank := length_skipBlank_le
  have scalar {text rest : List Char} := @length_lt_of_skipScalar text rest
  grind

/-- A key and its colon are skipped. -/
theorem length_lt_of_stepKey {enclosing : List Enclosing} {text rest : List Char}
    {due : Option Due} (read : stepKey enclosing text = .ok (due, rest)) :
    rest.length < text.length := by
  unfold stepKey at read
  have skipped {text rest : List Char} := @length_lt_of_skipText text rest
  have colon {text rest : List Char} := @length_lt_of_readColon text rest
  grind

/-- A comma or a closing bracket is skipped. -/
theorem length_lt_of_stepSeparator {inner : Enclosing} {outer : List Enclosing}
    {text rest : List Char} {due : Option Due}
    (read : stepSeparator inner outer text = .ok (due, rest)) : rest.length < text.length := by
  unfold stepSeparator at read
  grind

/-- Every step skips something, so skipping comes to an end. -/
theorem length_lt_of_step {due : Due} {next : Option Due} {text rest : List Char}
    (read : due.step text = .ok (next, rest)) : rest.length < text.length := by
  have blank := length_skipBlank_le text
  cases due with
  | value enclosing => exact Nat.lt_of_lt_of_le (length_lt_of_stepValue read) blank
  | key enclosing => exact Nat.lt_of_lt_of_le (length_lt_of_stepKey read) blank
  | separator inner outer => exact Nat.lt_of_lt_of_le (length_lt_of_stepSeparator read) blank

/-- Steps follow one another until nothing is due. -/
def skip (due : Due) (text : List Char) : Except Failure (List Char) :=
  match _ : due.step text with
  | .error failure => .error failure
  | .ok (none, rest) => .ok rest
  | .ok (some next, rest) => next.skip rest
termination_by text.length
decreasing_by exact length_lt_of_step ‹_›

theorem length_lt_of_skip {due : Due} {text rest : List Char} (read : due.skip text = .ok rest) :
    rest.length < text.length := by
  fun_induction skip due text with
  | case1 => contradiction
  | case2 due text unread step =>
      simp only [Except.ok.injEq] at read
      exact read ▸ length_lt_of_step step
  | case3 due text next unread step ih => exact Nat.lt_trans (ih read) (length_lt_of_step step)

end Due

def skipValue (text : List Char) : Except Failure (List Char) := Due.skip (.value []) text

theorem length_lt_of_skipValue {text rest : List Char} (read : skipValue text = .ok rest) :
    rest.length < text.length :=
  Due.length_lt_of_skip read

end Lexicon.Json.Streaming
