import Lexicon.Json.Streaming.Library
import Lexicon.Proofs.Json.Streaming.Skipping

/-! What is made of a quoted text or a number does not depend on what follows it. -/

namespace Lexicon.Json.Streaming

variable {Value Other : Type}

/-- A reading without the place and the cause of its failure. -/
def outcome (result : Except Failure Value) : Except Category Value :=
  result.mapError (·.cause.category)

/-- The outcome of two readings in turn is that of their outcomes. -/
theorem outcome_bind (result : Except Failure Value) (next : Value → Except Failure Other) :
    outcome (result.bind next) = (outcome result).bind fun value => outcome (next value) := by
  cases result <;> rfl

/-- Changing a value does not change how the reading went. -/
theorem outcome_map (result : Except Failure Value) (change : Value → Other) :
    outcome (result.map change) = (outcome result).map change := by
  cases result <;> rfl

/-- The verdict on a reading tells whether it fails, and of which category its failure is. -/
theorem exists_of_outcome {result : Read Value} {verdict : Except Category Value}
    {rest : List Char} (settled : outcome result = verdict.map fun value => (value, rest)) :
    (∃ value, result = .ok (value, rest) ∧ verdict = .ok value) ∨
      ∃ failure, result = .error failure ∧ verdict = .error failure.cause.category := by
  cases result with
  | error failure =>
      cases verdict with
      | error category =>
          injection settled with same
          exact .inr ⟨failure, rfl, congrArg _ same.symm⟩
      | ok value => cases settled
  | ok parts =>
      cases verdict with
      | error category => cases settled
      | ok value =>
          injection settled with same
          exact .inl ⟨value, congrArg _ same, rfl⟩

/-- What follows the text is left, and it does not change the verdict. -/
def Settles (read : List Char → Read Value) (text : List Char) (verdict : Except Category Value) :
    Prop :=
  ∀ rest, outcome (read (text ++ rest)) = verdict.map fun value => (value, rest)

section Quotations

variable {number : Nat} {digits : List Char}

/-- The character of a high surrogate and of what follows it is taken with the others. -/
def readPair (high : Nat) (taken text : List Char) : Read String :=
  (readLow high text).bind fun parts => readTextFrom (parts.1 :: taken) parts.2

/-- A backslash is read with the escape behind it. -/
theorem readTextFrom_backslash (taken text : List Char) :
    readTextFrom taken ('\\' :: text) =
      (readEscape text).bind fun parts => readTextFrom (parts.1 :: taken) parts.2 := by
  rw [readTextFrom, if_neg (by decide), if_pos rfl]
  split
  all_goals
    rename_i found
    rw [found]
    rfl

/-- An escape by a number depends on the place of the number among the surrogates. -/
theorem readEscape_append (written : Code number digits) (rest : List Char) :
    readEscape ('u' :: (digits ++ rest)) =
      if isLowSurrogate number then .error (.here .loneSurrogate rest)
      else if isHighSurrogate number then readLow number rest
      else .ok (Char.ofNat number, rest) := by
  simp only [readEscape, if_true, readCode_append written]

/-- A low surrogate completes a pair. -/
theorem exists_readLow_append (written : Code number digits) (low : isLowSurrogate number = true)
    (high : Nat) : ∃ c, ∀ rest, readLow high ('\\' :: 'u' :: (digits ++ rest)) = .ok (c, rest) := by
  simp only [readLow, readCode_append written, low, if_true]
  exact ⟨_, fun rest => rfl⟩

/-- Any other number leaves the pair lone. -/
theorem readLow_append_of_not_low (written : Code number digits)
    (other : isLowSurrogate number = false) (high : Nat) (rest : List Char) :
    readLow high ('\\' :: 'u' :: (digits ++ rest)) = .error (.here .loneSurrogate rest) := by
  simp only [readLow, readCode_append written, other, Bool.false_eq_true, if_false]

/-- Another character than a backslash does not follow a high surrogate. -/
theorem readLow_of_ne {c : Char} (other : c ≠ '\\') (high : Nat) (rest : List Char) :
    readLow high (c :: rest) = .error (.next .halfPair (c :: rest)) := by
  rw [readLow]
  all_goals simp [other]

/-- Another escape than that of a number does not follow a high surrogate. -/
theorem readLow_escape_of_ne {c : Char} (other : c ≠ 'u') (high : Nat) (rest : List Char) :
    readLow high ('\\' :: c :: rest) = .error (.next .halfPair (c :: rest)) := by
  rw [readLow]
  simp [other]

/-- A pair that fails ends the text. -/
theorem outcome_readPair_of_error {high : Nat} {text : List Char} {failure : Failure}
    (failed : readLow high text = .error failure) (taken : List Char) :
    outcome (readPair high taken text) = .error failure.cause.category := by
  rw [readPair, failed]
  rfl

/-- The verdict on a quoted text depends on its marks alone. A high surrogate judges the mark after
it, so the induction is for a text that follows one too. -/
theorem exists_settles_marks {text : List Char} (marks : Marks text) :
    (∀ taken, ∃ verdict, Settles (readTextFrom taken) (text ++ ['"']) verdict) ∧
    ∀ high taken, ∃ verdict, Settles (readPair high taken) (text ++ ['"']) verdict := by
  induction marks with
  | nil =>
      constructor
      · exact fun taken => ⟨.ok _, fun rest => congrArg outcome (readTextFrom_quote taken rest)⟩
      · exact fun high taken => ⟨.error _, fun rest => rfl⟩
  | @cons mark others first _ ih =>
      obtain ⟨alone, paired⟩ := ih
      simp only [Settles, List.append_assoc, List.cons_append, List.nil_append] at alone paired ⊢
      cases first with
      | @plain c plain =>
          constructor
          · intro taken
            simp only [readTextFrom_append (.plain plain)]
            exact alone (c :: taken)
          · intro high taken
            exact ⟨.error .grammar, fun rest =>
              outcome_readPair_of_error (readLow_of_ne plain.2.1 high _) taken⟩
      | @letter letter c listed =>
          constructor
          · intro taken
            simp only [readTextFrom_append (.letter listed)]
            exact alone (c :: taken)
          · intro high taken
            exact ⟨.error .grammar, fun rest =>
              outcome_readPair_of_error
                (readLow_escape_of_ne (letterEscape?_of_mem listed).1 high _) taken⟩
      | @code number digits code =>
          constructor
          · intro taken
            simp only [List.cons_append, readTextFrom_backslash, readEscape_append code]
            cases isLowSurrogate number with
            | true => exact ⟨.error .grammar, fun rest => rfl⟩
            | false =>
                cases isHighSurrogate number with
                | true => exact paired number taken
                | false => exact alone (Char.ofNat number :: taken)
          · intro high taken
            cases low : isLowSurrogate number with
            | true =>
                obtain ⟨c, joined⟩ := exists_readLow_append code low high
                simp only [List.cons_append, readPair, joined]
                exact alone (c :: taken)
            | false =>
                exact ⟨.error .grammar, fun rest =>
                  outcome_readPair_of_error (readLow_append_of_not_low code low high _) taken⟩

/-- A quoted text is read as its value, or it is refused for a lone surrogate. -/
theorem settles_readText {inside : List Char} (quoted : Quoted ('"' :: inside)) :
    Settles readText inside (visitText (.text ('"' :: inside))) := by
  obtain ⟨verdict, settled⟩ : ∃ verdict, Settles readText inside verdict := by
    cases quoted with
    | quoted marks => exact (exists_settles_marks marks).1 []
  -- The verdict is the one on the text with nothing behind it.
  have alone := settled []
  rw [List.append_nil] at alone
  have same : visitText (.text ('"' :: inside)) = verdict := by
    have visited : visitText (.text ('"' :: inside)) =
        (outcome (readText inside)).map Prod.fst := rfl
    rw [visited, alone]
    cases verdict <;> rfl
  rw [same]
  exact settled

/-- A quoted text settles how it is read. -/
theorem exists_quoted {text : List Char} (quoted : Quoted text) :
    ∃ inside, text = '"' :: inside ∧ Settles readText inside (visitText (.text text)) := by
  have settled {inside : List Char} := @settles_readText inside
  cases quoted with
  | @quoted text marks => exact ⟨text ++ ['"'], rfl, settled (.quoted marks)⟩

end Quotations

section Mismatches

/-- A value that is found is of the wrong type. -/
def judge : Except Category (Found × List Char) → Category
  | .error category => category
  | .ok _ => .data

/-- A value of another type is wrong data, unless it cannot be read itself. -/
theorem category_mismatch (expected : String) (text : List Char) :
    (mismatch expected text).cause.category = judge (outcome (readFound text)) := by
  rw [mismatch]
  cases readFound text <;> rfl

/-- What follows a number changes no value. -/
theorem outcome_value (numeral : Numeral) (unread : List Char) :
    outcome (numeral.value unread) = outcome (numeral.value []) := by
  unfold Numeral.value
  cases numeral.integer? with
  | some number => rfl
  | none =>
      unfold Numeral.magnitude
      cases numeral.powerValue with
      | error left =>
          dsimp only
          split <;> rfl
      | ok power =>
          dsimp only
          split <;> rfl

/-- A number is found up to what ends it. -/
theorem outcome_readFound_number {text rest : List Char} (number : Number text)
    (ends : Ended rest) :
    outcome (readFound (text ++ rest)) =
      (outcome (readFound text)).map fun parts => (parts.1, rest) := by
  obtain ⟨numeral, done⟩ := readNumeral_append number
  obtain ⟨c, others, rfl, first⟩ := number.first_isDigit
  have other {d : Char} := @ne_of_isDigit c d first
  have found (rest : List Char) (ends : Ended rest) :
      outcome (readFound (c :: others ++ rest)) =
        (outcome (numeral.value [])).map fun found => (found, rest) := by
    have done := done rest .endInValue ends
    rw [List.cons_append] at done ⊢
    simp only [readFound, if_neg (@other 'n' (by decide) rfl), if_neg (@other 't' (by decide) rfl),
      if_neg (@other 'f' (by decide) rfl), if_pos first, done]
    rw [outcome_map, outcome_value]
  have alone := found [] .nil
  rw [List.append_nil] at alone
  rw [found rest ends, alone]
  cases outcome (numeral.value []) <;> rfl

/-- A value of the wrong type is refused alike whatever follows it. -/
theorem category_mismatch_append {tree : Tree} {text rest : List Char}
    (written : Writes (.value tree) text) (ends : Ended rest) (expected : String) :
    (mismatch expected (text ++ rest)).cause.category = refusal tree := by
  cases written with
  | number number =>
      rw [refusal, category_mismatch, category_mismatch, outcome_readFound_number number ends]
      cases outcome (readFound text) <;> rfl
  | text quoted =>
      obtain ⟨inside, rfl, settled⟩ := exists_quoted quoted
      have found (rest : List Char) : outcome (readFound ('"' :: inside ++ rest)) =
          (visitText (.text ('"' :: inside))).map fun value => (.text value, rest) := by
        have read : readFound ('"' :: inside ++ rest) =
            (readText (inside ++ rest)).map fun parts => (.text parts.1, parts.2) := rfl
        rw [read, outcome_map, settled rest]
        cases visitText (.text ('"' :: inside)) <;> rfl
      have alone := found []
      rw [List.append_nil] at alone
      rw [refusal, category_mismatch, category_mismatch, found rest, alone]
      cases visitText (.text ('"' :: inside)) <;> rfl
  | _ => rfl

end Mismatches

end Lexicon.Json.Streaming
