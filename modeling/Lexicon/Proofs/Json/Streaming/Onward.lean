import Lexicon.Proofs.Json.Streaming.Records

/-! What a reader has made of a text stands whatever follows it. -/

namespace Lexicon.Json.Streaming

variable {Value Other : Type}

/-- A reading and that of a longer text. What was left unread is extended, and only one that misses
the end of the text may come out in another way. -/
inductive Onward (extend : Value → Value) : Except Failure Value → Except Failure Value → Prop where
  | taken (value : Value) : Onward extend (.ok value) (.ok (extend value))
  | failed (failure other : Failure) : Onward extend (.error failure) (.error other)
  | cut {failure : Failure} (missed : failure.cause.category = .cutOff)
      (longer : Except Failure Value) : Onward extend (.error failure) longer

/-- Two readings in turn go onward when each of them does. -/
theorem Onward.bind {extend : Value → Value} {further : Other → Other}
    {result longer : Except Failure Value} (onward : Onward extend result longer)
    {next : Value → Except Failure Other}
    (follows : ∀ value, result = .ok value → Onward further (next value) (next (extend value))) :
    Onward further (result.bind next) (longer.bind next) := by
  cases onward with
  | taken value => exact follows value rfl
  | failed failure other => exact .failed failure other
  | cut missed => exact .cut missed _

/-- A reading that fails comes to nothing, whatever follows. -/
theorem Onward.bind_of_error {extend : Value → Value} {further : Other → Other}
    {failure : Failure} {longer : Except Failure Value} (onward : Onward extend (.error failure) longer)
    (next : Value → Except Failure Other) : Onward further (.error failure) (longer.bind next) := by
  cases onward with
  | failed => exact .failed _ _
  | cut missed => exact .cut missed _

/-- What was taken is taken of the longer text. -/
theorem Onward.of_ok {extend : Value → Value} {value : Value} {longer : Except Failure Value}
    (onward : Onward extend (.ok value) longer) : longer = .ok (extend value) := by
  cases onward
  rfl

/-- The reading misses the end of the text. -/
def Missed (result : Except Failure Value) : Prop := outcome result = .error .cutOff

/-- What a longer text gives was taken before, unless the end was missed. -/
theorem Onward.missed_or_taken {extend : Value → Value} {result : Except Failure Value}
    {value : Value} (onward : Onward extend result (.ok value)) :
    Missed result ∨ ∃ before, result = .ok before ∧ value = extend before := by
  cases onward with
  | taken before => exact .inr ⟨before, rfl, rfl⟩
  | cut missed => exact .inl (congrArg Except.error missed)

/-- A reading that misses the end says nothing of longer texts. -/
theorem onward_of_missed {extend : Value → Value} {result : Except Failure Value}
    (missed : Missed result) (longer : Except Failure Value) :
    Onward extend result longer := by
  cases result with
  | error failure =>
      injection missed with same
      exact .cut same longer
  | ok value => cases missed

/-- The text that is left goes on. -/
def after (more rest : List Char) : List Char := rest ++ more

def behind (more : List Char) (parts : Value × List Char) : Value × List Char :=
  (parts.1, after more parts.2)

/-- The reader makes the same of a text and of a longer one, or it misses the end. -/
def Steady (extend : List Char → Value → Value) (read : List Char → Except Failure Value) : Prop :=
  ∀ text more, Onward (extend more) (read text) (read (text ++ more))

/-- It is enough to look at texts that start with no blank. -/
theorem PassesBlanks.steady {extend : List Char → Value → Value}
    {read : List Char → Except Failure Value} (passes : PassesBlanks read)
    (missed : Missed (read []))
    (starts : ∀ c others more, isBlank c = false →
      Onward (extend more) (read (c :: others)) (read (c :: (others ++ more)))) :
    Steady extend read := by
  intro text more
  rcases passes.start text with nothing | ⟨c, others, seen, same, longer⟩
  · exact onward_of_missed (nothing ▸ missed) _
  · rw [same, longer more]
    exact starts c others more seen

section Scalars

/-- A literal is read alike in a longer text. -/
theorem steady_readIdent (letters : List Char) : Steady after (readIdent letters) := by
  intro text more
  induction letters generalizing text with
  | nil => exact .taken text
  | cons letter letters ih =>
      cases text with
      | nil => exact .cut rfl _
      | cons c text =>
          rw [List.cons_append, readIdent, readIdent]
          split
          · exact ih text
          · exact .failed _ _

end Scalars

section Quotations

/-- A hexadecimal digit has one byte. -/
theorem length_utf8EncodeChar_of_hexValue? {c : Char} {value : Nat}
    (digit : hexValue? c = some value) : (String.utf8EncodeChar c).length = 1 := by
  have small : c.val ≤ 127 := by
    simp only [hexValue?, Char.isDigit, Char.le_def] at digit
    grind
  rw [String.length_utf8EncodeChar, Char.utf8Size]
  exact if_pos small

/-- A number is read only from four characters of one byte each. -/
theorem exists_digits_of_readCode {text rest : List Char} {code : Nat}
    (read : readCode text = .ok (code, rest)) :
    ∃ a b c d, text = a :: b :: c :: d :: rest ∧
      ∀ digit ∈ [a, b, c, d], (String.utf8EncodeChar digit).length = 1 := by
  unfold readCode at read
  split at read
  · split at read
    · rename_i one two three four
      cases read
      refine ⟨_, _, _, _, rfl, ?_⟩
      simp only [List.forall_mem_cons]
      exact ⟨length_utf8EncodeChar_of_hexValue? one, length_utf8EncodeChar_of_hexValue? two,
        length_utf8EncodeChar_of_hexValue? three, length_utf8EncodeChar_of_hexValue? four,
        List.forall_mem_nil _⟩
    · cases read
  · split at read <;> cases read

/-- Fewer than four characters are no number. -/
theorem readCode_of_length_lt {text : List Char} (few : text.length < 4) :
    readCode text = if (bytes text).length < 4 then .error (.here .endInText [])
      else .error ⟨.invalidEscape, text, 4⟩ := by
  rw [readCode]
  intro a b c d rest same
  rw [same] at few
  simp only [List.length_cons] at few
  omega

/-- Too few characters that begin a number are too few bytes. -/
theorem length_bytes_lt_of_readCode {text more rest : List Char} {code : Nat}
    (few : text.length < 4) (read : readCode (text ++ more) = .ok (code, rest)) :
    (bytes text).length < 4 := by
  obtain ⟨a, b, c, d, same, narrow⟩ := exists_digits_of_readCode read
  have begins : text = [a, b, c, d].take text.length := by
    have same : text ++ more = [a, b, c, d] ++ rest := same
    have taken := congrArg (List.take text.length) same
    rwa [List.take_left, List.take_append_of_le_length (Nat.le_of_lt few)] at taken
  have one : ∀ digit ∈ text, (String.utf8EncodeChar digit).length = 1 := by
    intro digit member
    rw [begins] at member
    exact narrow digit (List.mem_of_mem_take member)
  rw [bytes, List.length_flatMap, List.map_congr_left one, List.map_const']
  simpa using few

/-- A number of four digits is read alike in a longer text. -/
theorem steady_readCode : Steady behind readCode := by
  intro text more
  by_cases few : text.length < 4
  · rw [readCode_of_length_lt few]
    split
    · exact .cut rfl _
    · rename_i wide
      cases read : readCode (text ++ more) with
      | error failure => exact .failed _ _
      | ok parts => exact absurd (length_bytes_lt_of_readCode few read) wide
  · rcases text with _ | ⟨a, _ | ⟨b, _ | ⟨c, _ | ⟨d, rest⟩⟩⟩⟩
    case neg.cons.cons.cons.cons =>
      simp only [readCode, List.cons_append]
      split
      · exact .taken _
      · exact .failed _ _
    all_goals simp at few

/-- An escape is skipped alike in a longer text. -/
theorem steady_skipEscape : Steady after skipEscape := by
  intro text more
  cases text with
  | nil => exact .cut rfl _
  | cons c text =>
      rw [List.cons_append]
      by_cases code : c = 'u'
      · subst code
        have skip (text : List Char) : skipEscape ('u' :: text) =
            (readCode text).bind fun parts => .ok parts.2 := by
          rw [skipEscape, if_pos rfl]
          cases readCode text <;> rfl
        rw [skip, skip]
        exact (steady_readCode text more).bind fun parts _ => .taken parts.2
      · rw [skipEscape, skipEscape, if_neg code, if_neg code]
        split
        · exact .taken text
        · exact .failed _ _

theorem skipText_backslash (text : List Char) :
    skipText ('\\' :: text) = (skipEscape text).bind skipText := by
  rw [skipText, if_neg (by decide), if_pos rfl]
  split
  all_goals
    rename_i found
    rw [found]
    rfl

/-- A text is skipped alike in a longer text. -/
theorem steady_skipText : Steady after skipText := by
  intro text more
  fun_induction skipText text with
  | case1 => exact .cut rfl _
  | case2 rest =>
      rw [List.cons_append, skipText, if_pos rfl]
      exact .taken rest
  | case3 rest failure escape =>
      have onward := steady_skipEscape rest more
      rw [escape] at onward
      rw [List.cons_append, skipText_backslash]
      exact onward.bind_of_error _
  | case4 rest unread escape _ ih =>
      have onward := steady_skipEscape rest more
      rw [escape] at onward
      rw [List.cons_append, skipText_backslash, onward.of_ok]
      exact ih
  | case5 c rest quote backslash control =>
      rw [List.cons_append, skipText, if_neg quote, if_neg backslash, if_pos control]
      exact .failed _ _
  | case6 c rest quote backslash control ih =>
      rw [List.cons_append, skipText, if_neg quote, if_neg backslash, if_neg control]
      exact ih

end Quotations

section Values

variable {Choice : Type} (enumeration : Enumeration Choice)

end Values

namespace Due

/-- A key is skipped with the colon behind it. -/
theorem stepKey_quote (enclosing : List Enclosing) (text : List Char) :
    stepKey enclosing ('"' :: text) = (skipText text).bind fun unread =>
      (readColon unread).bind fun rest => .ok (some (.value (.object :: enclosing)), rest) := by
  rw [stepKey]
  cases skipText text with
  | error failure => rfl
  | ok unread =>
      simp only [Except.bind]
      cases readColon unread <;> rfl

end Due

section Separators

/-- What stands behind the comma of a list. -/
def elementAfterComma (text : List Char) : Read Bool :=
  match skipBlank text with
  | [] => .error (.next .endInValue [])
  | ']' :: unread => .error (.next .trailingComma (']' :: unread))
  | unread => .ok (true, unread)

theorem steady_elementAfterComma : Steady behind elementAfterComma := by
  have passes : PassesBlanks elementAfterComma := by
    intro blank blanks rest
    rw [elementAfterComma, elementAfterComma, skipBlank_append blanks]
  apply passes.steady rfl
  intro c others more seen
  rw [elementAfterComma, elementAfterComma, skipBlank_cons seen, skipBlank_cons seen]
  by_cases bracket : c = ']'
  · subst bracket
    exact .failed _ _
  · grind [Onward.taken, behind, after]

/-- A list goes on with its first element or behind a comma. -/
theorem nextElement_of_ne {c : Char} (seen : isBlank c = false) (bracket : c ≠ ']')
    (first : Bool) (rest : List Char) :
    nextElement first (c :: rest) = if first then .ok (true, c :: rest)
      else if c = ',' then elementAfterComma rest else .error (.next .listEndExpected (c :: rest)) := by
  rw [nextElement, skipBlank_cons seen]
  split
  · rename_i same
    cases same
  · rename_i same
    exact absurd (List.cons.inj same).1 bracket
  · rename_i same
    cases same
    rfl

/-- An element or the bracket stands at the start, or behind a comma. -/
theorem steady_nextElement (first : Bool) : Steady behind (nextElement first) := by
  have passes : PassesBlanks (nextElement first) := fun blank blanks =>
    nextElement_append blanks first
  apply passes.steady rfl
  intro c others more seen
  by_cases bracket : c = ']'
  · subst bracket
    exact .taken (false, others)
  rw [nextElement_of_ne seen bracket, nextElement_of_ne seen bracket]
  cases first with
  | true => exact .taken (true, c :: others)
  | false =>
      by_cases comma : c = ','
      · rw [if_neg Bool.false_ne_true, if_neg Bool.false_ne_true, if_pos comma, if_pos comma]
        exact steady_elementAfterComma others more
      · rw [if_neg Bool.false_ne_true, if_neg Bool.false_ne_true, if_neg comma, if_neg comma]
        exact .failed _ _

end Separators

end Lexicon.Json.Streaming
