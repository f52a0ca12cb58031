import Lexicon.Json.Streaming.Failure

/-! Blanks, fixed words and the colon of a member. -/

namespace Lexicon.Json.Streaming

/-- The blanks of the format are four of the white space characters. -/
def isBlank (c : Char) : Bool := c == ' ' || c == '\n' || c == '\t' || c == '\r'

def skipBlank (text : List Char) : List Char := text.dropWhile isBlank

/-- The rest of a fixed word follows its first letter. -/
def readIdent : List Char → List Char → Except Failure (List Char)
  | [], text => .ok text
  | _ :: _, [] => .error (.here .endInValue [])
  | letter :: letters, c :: rest =>
      if c = letter then readIdent letters rest else .error (.next .identExpected (c :: rest))

def readColon (text : List Char) : Except Failure (List Char) :=
  match skipBlank text with
  | [] => .error (.next .endInObject [])
  | ':' :: rest => .ok rest
  | other => .error (.next .colonExpected other)

theorem length_skipBlank_le (text : List Char) : (skipBlank text).length ≤ text.length :=
  (List.dropWhile_sublist isBlank).length_le

theorem length_le_of_readIdent {letters text rest : List Char}
    (read : readIdent letters text = .ok rest) : rest.length ≤ text.length := by
  induction letters generalizing text with
  | nil =>
      simp only [readIdent, Except.ok.injEq] at read
      simp [read]
  | cons letter letters ih =>
      cases text with
      | nil => simp [readIdent] at read
      | cons c text =>
          simp only [readIdent] at read
          split at read
          · have := ih read
            simp only [List.length_cons]
            omega
          · contradiction

theorem length_lt_of_readColon {text rest : List Char} (read : readColon text = .ok rest) :
    rest.length < text.length := by
  have shorter := length_skipBlank_le text
  simp only [readColon] at read
  split at read
  · contradiction
  · rename_i same
    simp only [Except.ok.injEq] at read
    subst read
    rw [same, List.length_cons] at shorter
    omega
  · contradiction

end Lexicon.Json.Streaming
