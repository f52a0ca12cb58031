import Mathlib.Data.List.DropRight
import Lexicon.Json.Streaming.Skip
import Lexicon.Proofs.Json.Streaming.Tokens

/-! A value of the grammar is skipped to its end. -/

namespace Lexicon.Json.Streaming

section Beginnings

theorem skipBlank_cons {c : Char} (seen : isBlank c = false) (rest : List Char) :
    skipBlank (c :: rest) = c :: rest :=
  List.dropWhile_cons_of_neg (by simp [seen])

/-- A phrase starts with a character that is no blank and closes nothing. -/
def Opening (c : Char) : Prop := isBlank c = false ∧ c ≠ ']' ∧ c ≠ '}'

theorem ne_of_isDigit {c other : Char} (number : c = '-' ∨ c.isDigit = true)
    (notMinus : other ≠ '-') (notDigit : other.isDigit = false) : c ≠ other := by
  rintro rfl
  rcases number with same | digit
  · exact notMinus same
  · rw [notDigit] at digit
    cases digit

/-- A number opens a value. -/
theorem opening_of_isDigit {c : Char} (number : c = '-' ∨ c.isDigit = true) : Opening c := by
  have other {d : Char} := @ne_of_isDigit c d number
  refine ⟨?_, other (by decide) rfl, other (by decide) rfl⟩
  rw [Bool.eq_false_iff, ne_eq, isBlank_eq_true_iff]
  rintro (rfl | rfl | rfl | rfl) <;> exact absurd number (by decide)

/-- Every written value begins with a character that opens one. -/
theorem exists_opening {tree : Tree} {text : List Char} (written : Writes (.value tree) text)
    (rest : List Char) : ∃ c others, text ++ rest = c :: others ∧ Opening c := by
  cases written with
  | number number =>
      obtain ⟨c, others, rfl, first⟩ := number.first_isDigit
      exact ⟨c, _, rfl, opening_of_isDigit first⟩
  | text quoted =>
      cases quoted
      exact ⟨_, _, rfl, rfl, by decide, by decide⟩
  | _ => exact ⟨_, _, rfl, rfl, by decide, by decide⟩

/-- Only blanks stand before the first character of a list or an object. -/
theorem exists_start {phrase : Phrase} {text : List Char} (written : Writes phrase text)
    (rest : List Char) : ∃ c others, skipBlank (text ++ rest) = c :: others ∧ Opening c := by
  induction written generalizing rest with
  | element lead value _ _ =>
      obtain ⟨c, others, start, opening⟩ := exists_opening value (_ ++ rest)
      rw [List.append_assoc, skipBlank_append lead, List.append_assoc, start]
      exact ⟨c, _, skipBlank_cons opening.1 _, opening⟩
  | lastElement _ ih | lastMember _ ih => exact ih rest
  | moreElements _ _ ih | moreMembers _ _ ih =>
      rw [List.append_assoc]
      exact ih _
  | member lead name =>
      cases name
      rw [List.append_assoc, skipBlank_append lead]
      exact ⟨_, _, skipBlank_cons rfl _, rfl, by decide, by decide⟩
  | number number =>
      obtain ⟨c, others, start, opening⟩ := exists_opening (.number number) rest
      exact ⟨c, others, start ▸ skipBlank_cons opening.1 _, opening⟩
  | text quoted =>
      obtain ⟨c, others, start, opening⟩ := exists_opening (.text quoted) rest
      exact ⟨c, others, start ▸ skipBlank_cons opening.1 _, opening⟩
  | _ => exact ⟨_, _, skipBlank_cons rfl _, rfl, by decide, by decide⟩

end Beginnings

section Scalars

/-- A literal is read letter by letter. -/
theorem readIdent_append (letters rest : List Char) :
    readIdent letters (letters ++ rest) = .ok rest := by
  induction letters with
  | nil => rfl
  | cons letter letters ih => rw [List.cons_append, readIdent, if_pos rfl, ih]

/-- A number stops at what does not carry it on. -/
theorem skipScalar_number {text rest : List Char} (number : Number text) (ends : Ended rest) :
    skipScalar (text ++ rest) = .ok rest := by
  obtain ⟨numeral, done⟩ := readNumeral_append number
  have done := done rest .invalidNumber ends
  obtain ⟨c, others, rfl, first⟩ := number.first_isDigit
  have other {d : Char} := @ne_of_isDigit c d first
  rw [List.cons_append] at done ⊢
  rw [skipScalar, if_neg (other (by decide) rfl), if_neg (other (by decide) rfl),
    if_neg (other (by decide) rfl), if_pos first, done]

/-- A quoted text is skipped. -/
theorem skipScalar_quoted {text : List Char} (quoted : Quoted text) (rest : List Char) :
    skipScalar (text ++ rest) = .ok rest := by
  cases quoted with
  | quoted marks =>
      have inside := skipText_marks marks rest
      rw [List.cons_append, List.append_assoc]
      exact inside

/-- A colon is read behind white space. -/
theorem readColon_append {blank : List Char} (blanks : Blank blank) (rest : List Char) :
    readColon (blank ++ ':' :: rest) = .ok rest := by
  rw [readColon, skipBlank_append blanks]
  rfl

end Scalars

namespace Due

section Steps

/-- What is due is skipped, and the text is left when nothing is. -/
def skipIfDue (due : Option Due) (text : List Char) : Except Failure (List Char) :=
  match due with
  | none => .ok text
  | some due => due.skip text

/-- Skipping is a step and then what is still due. -/
theorem skip_eq (due : Due) (text : List Char) :
    due.skip text = (due.step text).bind fun (next, rest) => skipIfDue next rest := by
  rw [skip]
  split
  all_goals
    rename_i found
    rw [found]
    rfl

/-- After a step what is still due is skipped. -/
theorem skip_of_step {due : Due} {next : Option Due} {text rest : List Char}
    (done : due.step text = .ok (next, rest)) : due.skip text = skipIfDue next rest := by
  rw [skip_eq, done]
  rfl

/-- Texts with the same step are skipped alike. -/
theorem skip_of_step_eq {due : Due} {text other : List Char}
    (same : due.step text = due.step other) : due.skip text = due.skip other := by
  rw [skip_eq, same, ← skip_eq]

/-- Blanks before what is due make no difference. -/
theorem skip_append {blank : List Char} (blanks : Blank blank) (due : Due) (rest : List Char) :
    due.skip (blank ++ rest) = due.skip rest := by
  apply skip_of_step_eq
  cases due <;> simp only [step, skipBlank_append blanks]

/-- White space before what is due makes no difference. -/
theorem skip_skipBlank (due : Due) (text : List Char) :
    due.skip (skipBlank text) = due.skip text := by
  apply skip_of_step_eq
  have twice : skipBlank (skipBlank text) = skipBlank text :=
    List.dropWhile_idempotent isBlank text
  cases due <;> simp only [step, twice]

variable {enclosing outer : List Enclosing} {rest : List Char}

/-- A value that is no list and no object is skipped in one step. -/
theorem stepValue_of_ne {c : Char} (notList : c ≠ '[') (notObject : c ≠ '{') (text : List Char) :
    stepValue enclosing (c :: text) =
      (skipScalar (c :: text)).bind fun unread => .ok (afterValue enclosing, unread) := by
  unfold stepValue
  split
  · rename_i same
    exact absurd (List.cons.inj same).1 notList
  · rename_i same
    exact absurd (List.cons.inj same).1 notObject
  · cases skipScalar (c :: text) <;> rfl

/-- A scalar is skipped in one step. -/
theorem skip_scalar {c : Char} {others : List Char} (opening : Opening c) (notList : c ≠ '[')
    (notObject : c ≠ '{') (scalar : skipScalar (c :: others) = .ok rest) :
    (Due.value enclosing).skip (c :: others) = skipIfDue (afterValue enclosing) rest := by
  apply skip_of_step
  rw [step, skipBlank_cons opening.1, stepValue_of_ne notList notObject, scalar]
  rfl

/-- An empty list is skipped. -/
theorem skip_emptyList {blank : List Char} (blanks : Blank blank) :
    (Due.value enclosing).skip ('[' :: (blank ++ ']' :: rest)) =
      skipIfDue (afterValue enclosing) rest := by
  apply skip_of_step
  rw [step, skipBlank_cons rfl, stepValue, skipBlank_append blanks]
  rfl

/-- An empty object is skipped. -/
theorem skip_emptyObject {blank : List Char} (blanks : Blank blank) :
    (Due.value enclosing).skip ('{' :: (blank ++ '}' :: rest)) =
      skipIfDue (afterValue enclosing) rest := by
  apply skip_of_step
  rw [step, skipBlank_cons rfl, stepValue, skipBlank_append blanks]
  rfl

/-- A list that does not end at once is entered. -/
theorem skip_list {c : Char} {others : List Char} (first : skipBlank rest = c :: others)
    (opening : Opening c) :
    (Due.value enclosing).skip ('[' :: rest) = (Due.value (.list :: enclosing)).skip rest := by
  have entered : step (.value enclosing) ('[' :: rest) =
      .ok (some (.value (.list :: enclosing)), c :: others) := by
    rw [step, skipBlank_cons rfl, stepValue, first]
    split <;> simp_all [Opening]
  -- The step leaves the text without the blanks at its start.
  rw [← skip_skipBlank _ rest, first]
  exact skip_of_step entered

/-- An object that does not end at once is entered. -/
theorem skip_object {c : Char} {others : List Char} (first : skipBlank rest = c :: others)
    (opening : Opening c) :
    (Due.value enclosing).skip ('{' :: rest) = (Due.key enclosing).skip rest := by
  have entered : step (.value enclosing) ('{' :: rest) =
      .ok (some (.key enclosing), c :: others) := by
    rw [step, skipBlank_cons rfl, stepValue, first]
    split <;> simp_all [Opening]
  rw [← skip_skipBlank _ rest, first]
  exact skip_of_step entered

/-- A key is skipped with its colon. -/
theorem skip_key {before key after : List Char} (lead : Blank before) (name : Quoted key)
    (trail : Blank after) :
    (Due.key outer).skip (before ++ (key ++ (after ++ ':' :: rest))) =
      (Due.value (.object :: outer)).skip rest := by
  cases name with
  | @quoted text marks =>
      have named : step (.key outer) ('"' :: (text ++ '"' :: (after ++ ':' :: rest))) =
          .ok (some (.value (.object :: outer)), rest) := by
        rw [step, skipBlank_cons rfl, stepKey, skipText_marks marks]
        simp only [readColon_append trail]
      rw [skip_append lead, List.cons_append, List.append_assoc]
      exact skip_of_step named

end Steps

/-- What is due where a phrase is to be read, and what is due after it. -/
def Skips : Phrase → List Char → Prop
  | .value _, text => ∀ enclosing rest, Ended rest →
      (Due.value enclosing).skip (text ++ rest) = skipIfDue (afterValue enclosing) rest
  | .element _, text => ∀ inner outer rest, Ended rest →
      (Due.value (inner :: outer)).skip (text ++ rest) = (Due.separator inner outer).skip rest
  | .elements _, text => ∀ outer rest,
      (Due.value (.list :: outer)).skip (text ++ ']' :: rest) = skipIfDue (afterValue outer) rest
  | .member _, text => ∀ outer rest, Ended rest →
      (Due.key outer).skip (text ++ rest) = (Due.separator .object outer).skip rest
  | .members _, text => ∀ outer rest,
      (Due.key outer).skip (text ++ '}' :: rest) = skipIfDue (afterValue outer) rest

end Due

section Phrases

open Due

/-- The induction is on the phrase, and what follows it and what encloses it are arbitrary. -/
theorem skips_of_writes {phrase : Phrase} {text : List Char} (written : Writes phrase text) :
    Skips phrase text := by
  induction written with
  | null | true | false =>
      intro enclosing rest _
      exact skip_scalar ⟨rfl, by decide, by decide⟩ (by decide) (by decide)
        (readIdent_append _ rest)
  | number number =>
      intro enclosing rest ends
      have scalar := skipScalar_number number ends
      obtain ⟨c, others, rfl, first⟩ := number.first_isDigit
      have other {d : Char} := @ne_of_isDigit c d first
      exact skip_scalar (opening_of_isDigit first) (other (by decide) rfl)
        (other (by decide) rfl) scalar
  | text quoted =>
      intro enclosing rest _
      have scalar := skipScalar_quoted quoted rest
      cases quoted
      exact skip_scalar ⟨rfl, by decide, by decide⟩ (by decide) (by decide) scalar
  | emptyList blank =>
      intro enclosing rest _
      rw [List.cons_append, List.append_assoc]
      exact skip_emptyList blank
  | list elements ih =>
      intro enclosing rest _
      obtain ⟨c, others, first, opening⟩ := exists_start elements (']' :: rest)
      rw [List.cons_append, List.append_assoc, List.singleton_append, skip_list first opening]
      exact ih enclosing rest
  | emptyObject blank =>
      intro enclosing rest _
      rw [List.cons_append, List.append_assoc]
      exact skip_emptyObject blank
  | object members ih =>
      intro enclosing rest _
      obtain ⟨c, others, first, opening⟩ := exists_start members ('}' :: rest)
      rw [List.cons_append, List.append_assoc, List.singleton_append, skip_object first opening]
      exact ih enclosing rest
  | element lead _ trail ih =>
      intro inner outer rest ends
      rw [List.append_assoc, skip_append lead, List.append_assoc, ih _ _ (ends.append trail)]
      exact skip_append trail _ rest
  | lastElement _ ih =>
      intro outer rest
      rw [ih .list outer _ (ended_cons (by decide) rest)]
      exact skip_of_step rfl
  | moreElements _ _ first others =>
      intro outer rest
      rw [List.append_assoc, List.cons_append, first .list outer _ (ended_cons (by decide) _),
        skip_of_step rfl]
      exact others outer rest
  | member lead name trail _ ih =>
      intro outer rest ends
      simp only [List.append_assoc, List.cons_append]
      rw [skip_key lead name trail]
      exact ih .object outer rest ends
  | lastMember _ ih =>
      intro outer rest
      rw [ih outer _ (ended_cons (by decide) rest)]
      exact skip_of_step rfl
  | moreMembers _ _ first others =>
      intro outer rest
      rw [List.append_assoc, List.cons_append, first outer _ (ended_cons (by decide) _),
        skip_of_step rfl]
      exact others outer rest

/-- A value of no interest is skipped with the blanks before it, and those after it are left. -/
theorem skipValue_append {tree : Tree} {before text rest : List Char} (lead : Blank before)
    (written : Writes (.value tree) text) (ends : Ended rest) :
    skipValue (before ++ (text ++ rest)) = .ok rest := by
  rw [skipValue, skip_append lead]
  exact skips_of_writes written [] rest ends

end Phrases

end Lexicon.Json.Streaming
