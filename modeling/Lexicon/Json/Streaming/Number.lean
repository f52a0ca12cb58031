import Lexicon.Json.Streaming.Scalar

/-! A number is read as its digits, and its value is worked out from them. -/

namespace Lexicon.Json.Streaming

/-- The digits of each part stand in their order. -/
structure Numeral where
  negative : Bool
  whole : List Char
  fraction : Option (List Char)
  /-- The power has a sign of its own. -/
  power : Option (Bool × List Char)
  deriving DecidableEq, Repr

/-- A leading zero is the whole of its part. -/
def readWhole (ended : Cause) : List Char → Read (List Char)
  | [] => .error (.here ended [])
  | c :: rest =>
      if c = '0' then
        if rest.head?.any Char.isDigit then .error (.next .invalidNumber rest)
        else .ok (['0'], rest)
      else if c.isDigit then .ok (c :: rest.takeWhile Char.isDigit, rest.dropWhile Char.isDigit)
      else .error (.next .invalidNumber (c :: rest))

/-- At least one digit follows a point. -/
def readFraction (ended : Cause) : List Char → Read (Option (List Char))
  | '.' :: rest =>
      if rest.head?.any Char.isDigit then
        .ok (some (rest.takeWhile Char.isDigit), rest.dropWhile Char.isDigit)
      else .error (.next (if rest.isEmpty then ended else .invalidNumber) rest)
  | text => .ok (none, text)

/-- A minus sign is taken off and reported. -/
def readSign : List Char → Bool × List Char
  | '-' :: rest => (true, rest)
  | text => (false, text)

/-- At least one digit follows the sign of a power. -/
def readPower (ended : Cause) : List Char → Read (Option (Bool × List Char))
  | [] => .ok (none, [])
  | c :: rest =>
      if c = 'e' ∨ c = 'E' then
        let (negative, digits) :=
          match rest with
          | '+' :: digits => (false, digits)
          | text => readSign text
        match digits with
        | [] => .error (.here ended [])
        | first :: others =>
            if first.isDigit then
              .ok (some (negative, first :: others.takeWhile Char.isDigit),
                others.dropWhile Char.isDigit)
            else .error (.next .invalidNumber (first :: others))
      else .ok (none, c :: rest)

/-- The cause serves where the text ends inside the number. -/
def readNumeral (ended : Cause) (text : List Char) : Except Failure (Numeral × List Char) := do
  let (negative, text) := readSign text
  let (whole, text) ← readWhole ended text
  let (fraction, text) ← readFraction ended text
  let (power, text) ← readPower ended text
  return (⟨negative, whole, fraction, power⟩, text)

def digitValue (c : Char) : Nat := c.toNat - '0'.toNat

/-- Digits are taken while the number stays below the limit, and the others are left. -/
def takeDigits (limit number : Nat) : List Char → Nat × List Char
  | [] => (number, [])
  | c :: rest =>
      let next := 10 * number + digitValue c
      if next < limit then takeDigits limit next rest else (number, c :: rest)

namespace Numeral

/-- An integer has neither fraction nor power, fits in 64 bits and is no negative zero. -/
def integer? (numeral : Numeral) : Option Int :=
  if numeral.fraction.isSome || numeral.power.isSome then none
  else
    match takeDigits (Nat.pow 2 64) 0 numeral.whole with
    | (number, []) =>
        if !numeral.negative then some number
        else if 0 < number ∧ number ≤ Nat.pow 2 63 then some (-number)
        else none
    | _ => none

/-- The significand holds the digits that fit in 64 bits. A whole digit that is left raises the
exponent, and a fraction digit that is taken lowers it. -/
def significand (numeral : Numeral) : Nat × Int :=
  let (whole, left) := takeDigits (Nat.pow 2 64) 0 numeral.whole
  let fraction := numeral.fraction.getD []
  let (number, dropped) := takeDigits (Nat.pow 2 64) whole fraction
  (number, left.length - (fraction.length - dropped.length : Nat))

/-- The power is below two to 31, or the text after its first excessive digit is left. -/
def powerValue (numeral : Numeral) : Except (List Char) Int :=
  match numeral.power with
  | none => .ok 0
  | some (negative, digits) =>
      match takeDigits (Nat.pow 2 31) 0 digits with
      | (number, []) => .ok (if negative then -number else number)
      | (_, _ :: left) => .error left

/-- The magnitude is rounded, and a number that is too large is a failure. -/
def magnitude (numeral : Numeral) (unread : List Char) : Except Failure Binary64 :=
  let (number, exponent) := numeral.significand
  match numeral.powerValue with
  | .error left =>
      if number ≠ 0 ∧ numeral.power.all (!·.1) then
        .error (.here .numberOutOfRange (left ++ unread))
      else .ok .zero
  | .ok power =>
      match (Binary64.ofNat? number).bind (·.scaleTen? (exponent + power)) with
      | some magnitude => .ok magnitude
      | none => .error (.here .numberOutOfRange unread)

/-- A number is an integer when it can be. -/
def value (numeral : Numeral) (unread : List Char) : Except Failure Found :=
  match numeral.integer? with
  | some number => .ok (.integer number)
  | none => (numeral.magnitude unread).map (.float numeral.negative)

end Numeral

theorem length_readSign_le (text : List Char) : (readSign text).2.length ≤ text.length := by
  unfold readSign
  split <;> simp

theorem length_lt_of_readWhole {ended : Cause} {text rest digits : List Char}
    (read : readWhole ended text = .ok (digits, rest)) : rest.length < text.length := by
  unfold readWhole at read
  have (text : List Char) := (List.dropWhile_sublist (l := text) Char.isDigit).length_le
  grind

theorem length_le_of_readFraction {ended : Cause} {text rest : List Char}
    {digits : Option (List Char)} (read : readFraction ended text = .ok (digits, rest)) :
    rest.length ≤ text.length := by
  unfold readFraction at read
  have (text : List Char) := (List.dropWhile_sublist (l := text) Char.isDigit).length_le
  grind

theorem length_le_of_readPower {ended : Cause} {text rest : List Char}
    {power : Option (Bool × List Char)} (read : readPower ended text = .ok (power, rest)) :
    rest.length ≤ text.length := by
  unfold readPower readSign at read
  have (text : List Char) := (List.dropWhile_sublist (l := text) Char.isDigit).length_le
  grind

/-- A number has a digit at least. -/
theorem length_lt_of_readNumeral {ended : Cause} {text rest : List Char} {numeral : Numeral}
    (read : readNumeral ended text = .ok (numeral, rest)) : rest.length < text.length := by
  have sign := length_readSign_le text
  simp only [readNumeral, bind, Except.bind, pure, Except.pure] at read
  split at read
  · contradiction
  rename_i first whole
  split at read
  · contradiction
  rename_i second fraction
  split at read
  · contradiction
  rename_i third power
  simp only [Except.ok.injEq, Prod.mk.injEq] at read
  have one := length_lt_of_readWhole whole
  have two := length_le_of_readFraction fraction
  have three := length_le_of_readPower power
  rw [read.2] at three
  omega

end Lexicon.Json.Streaming
