import Lexicon.Json.Quoted
import Lexicon.Json.Streaming.Scalar

/-! Reading quoted text, and skipping it. -/

namespace Lexicon.Json.Streaming

/-- Four bytes are read before they are judged, and a shorter text is at its end. -/
def readCode (text : List Char) : Read Nat :=
  match text with
  | a :: b :: c :: d :: rest =>
      match hexValue? a, hexValue? b, hexValue? c, hexValue? d with
      | some a, some b, some c, some d => .ok (((a * 16 + b) * 16 + c) * 16 + d, rest)
      | _, _, _, _ => .error ⟨.invalidEscape, text, 4⟩
  | _ =>
      if (bytes text).length < 4 then .error (.here .endInText [])
      else .error ⟨.invalidEscape, text, 4⟩

def isHighSurrogate (code : Nat) : Bool := 0xD800 ≤ code && code ≤ 0xDBFF

def isLowSurrogate (code : Nat) : Bool := 0xDC00 ≤ code && code ≤ 0xDFFF

/-- A high surrogate is followed by the escape of a low one, and both make one character. -/
def readLow (high : Nat) : List Char → Read Char
  | [] => .error (.here .endInText [])
  | '\\' :: [] => .error (.here .endInText [])
  | '\\' :: 'u' :: rest =>
      match readCode rest with
      | .error failure => .error failure
      | .ok (low, unread) =>
          if isLowSurrogate low then
            .ok (Char.ofNat (0x10000 + (high - 0xD800) * 0x400 + (low - 0xDC00)), unread)
          else .error (.here .loneSurrogate unread)
  | '\\' :: c :: rest => .error (.next .halfPair (c :: rest))
  | c :: rest => .error (.next .halfPair (c :: rest))

/-- The character of an escape with one letter. -/
def letterEscape? (c : Char) : Option Char :=
  if c = '"' ∨ c = '\\' ∨ c = '/' then some c
  else if c = 'b' then some '\x08'
  else if c = 'f' then some '\x0c'
  else if c = 'n' then some '\n'
  else if c = 'r' then some '\r'
  else if c = 't' then some '\t'
  else none

/-- The escape is read after its backslash. -/
def readEscape : List Char → Read Char
  | [] => .error (.here .endInText [])
  | c :: rest =>
      if c = 'u' then
        match readCode rest with
        | .error failure => .error failure
        | .ok (code, unread) =>
            if isLowSurrogate code then .error (.here .loneSurrogate unread)
            else if isHighSurrogate code then readLow code unread
            else .ok (Char.ofNat code, unread)
      else
        match letterEscape? c with
        | some escaped => .ok (escaped, rest)
        | none => .error (.next .invalidEscape (c :: rest))

/-- The number of a skipped escape is not judged. -/
def skipEscape : List Char → Except Failure (List Char)
  | [] => .error (.here .endInText [])
  | c :: rest =>
      if c = 'u' then
        match readCode rest with
        | .error failure => .error failure
        | .ok (_, unread) => .ok unread
      else if (letterEscape? c).isSome then .ok rest
      else .error (.next .invalidEscape (c :: rest))

/-- No digit is given back. -/
theorem length_le_of_readCode {text rest : List Char} {code : Nat}
    (read : readCode text = .ok (code, rest)) : rest.length ≤ text.length := by
  unfold readCode at read
  grind

theorem length_le_of_readLow {high : Nat} {text rest : List Char} {c : Char}
    (read : readLow high text = .ok (c, rest)) : rest.length ≤ text.length := by
  unfold readLow at read
  have code {text rest : List Char} {code : Nat} :=
    @length_le_of_readCode text rest code
  grind

theorem length_le_of_readEscape {text rest : List Char} {c : Char}
    (read : readEscape text = .ok (c, rest)) : rest.length ≤ text.length := by
  unfold readEscape at read
  have code {text rest : List Char} {code : Nat} :=
    @length_le_of_readCode text rest code
  have low {high : Nat} {text rest : List Char} {c : Char} :=
    @length_le_of_readLow high text rest c
  grind

theorem length_le_of_skipEscape {text rest : List Char} (read : skipEscape text = .ok rest) :
    rest.length ≤ text.length := by
  unfold skipEscape at read
  have code {text rest : List Char} {code : Nat} :=
    @length_le_of_readCode text rest code
  grind

/-- The text is read after its opening quote, and the characters taken so far stand in reverse. -/
def readTextFrom (taken : List Char) (text : List Char) : Read String :=
  match text with
  | [] => .error (.here .endInText [])
  | c :: rest =>
      if c = '"' then .ok (String.ofList taken.reverse, rest)
      else if c = '\\' then
        match _ : readEscape rest with
        | .error failure => .error failure
        | .ok (escaped, unread) => readTextFrom (escaped :: taken) unread
      else if c.toNat < 0x20 then .error (.next .controlCharacter (c :: rest))
      else readTextFrom (c :: taken) rest
termination_by text.length
decreasing_by
  · have := length_le_of_readEscape ‹_›
    simp only [List.length_cons]
    omega
  · simp

def readText (text : List Char) : Read String := readTextFrom [] text

/-- A control character in a skipped text is not read. -/
def skipText (text : List Char) : Except Failure (List Char) :=
  match text with
  | [] => .error (.here .endInText [])
  | c :: rest =>
      if c = '"' then .ok rest
      else if c = '\\' then
        match _ : skipEscape rest with
        | .error failure => .error failure
        | .ok unread => skipText unread
      else if c.toNat < 0x20 then .error (.here .controlCharacter (c :: rest))
      else skipText rest
termination_by text.length
decreasing_by
  · have := length_le_of_skipEscape ‹_›
    simp only [List.length_cons]
    omega
  · simp

/-- The closing quote at least is read. -/
theorem length_lt_of_readTextFrom {taken text rest : List Char} {value : String}
    (read : readTextFrom taken text = .ok (value, rest)) : rest.length < text.length := by
  fun_induction readTextFrom taken text with
  | case1 => contradiction
  | case2 => simp_all
  | case3 => contradiction
  | case4 taken rest escaped unread escape _ ih =>
      have := length_le_of_readEscape escape
      have := ih read
      simp only [List.length_cons]
      omega
  | case5 => contradiction
  | case6 taken c rest _ _ _ ih =>
      have := ih read
      simp only [List.length_cons]
      omega

theorem length_lt_of_readText {text rest : List Char} {value : String}
    (read : readText text = .ok (value, rest)) : rest.length < text.length :=
  length_lt_of_readTextFrom read

/-- The closing quote at least is skipped. -/
theorem length_lt_of_skipText {text rest : List Char} (read : skipText text = .ok rest) :
    rest.length < text.length := by
  fun_induction skipText text with
  | case1 => contradiction
  | case2 => simp_all
  | case3 => contradiction
  | case4 rest unread escape _ ih =>
      have := length_le_of_skipEscape escape
      have := ih read
      simp only [List.length_cons]
      omega
  | case5 => contradiction
  | case6 c rest _ _ _ ih =>
      have := ih read
      simp only [List.length_cons]
      omega

/-- A quote ends the text. -/
theorem readTextFrom_quote (taken rest : List Char) :
    readTextFrom taken ('"' :: rest) = .ok (String.ofList taken.reverse, rest) := by
  rw [readTextFrom, if_pos rfl]

/-- An escape is read as its character. -/
theorem readTextFrom_escape {c : Char} {text rest : List Char}
    (escape : readEscape text = .ok (c, rest)) (taken : List Char) :
    readTextFrom taken ('\\' :: text) = readTextFrom (c :: taken) rest := by
  rw [readTextFrom, if_neg (by decide), if_pos rfl]
  split <;> simp_all

end Lexicon.Json.Streaming
