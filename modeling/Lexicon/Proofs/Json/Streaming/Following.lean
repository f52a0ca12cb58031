import Lexicon.Proofs.Json.Streaming.Outcome

/-! A reader makes of a text what is made of the value there. -/

namespace Lexicon.Json.Streaming

variable {Value Item Result : Type}

/-- A comma leads to every item but the first. -/
def lead (first : Bool) : List Char := if first then [] else [',']

/-- White space is skipped the same way in a longer text. -/
theorem skipBlank_append_of_cons {text others : List Char} {c : Char}
    (start : skipBlank text = c :: others) (more : List Char) :
    skipBlank (text ++ more) = c :: (others ++ more) := by
  have dropped : text.dropWhile isBlank = c :: others := start
  rw [skipBlank, List.dropWhile_append, dropped]
  rfl

/-- Blanks before the value are passed over. -/
def PassesBlanks (read : List Char → Result) : Prop :=
  ∀ blank, Blank blank → ∀ rest, read (blank ++ rest) = read rest

section Blanks

variable {read : List Char → Result} (passes : PassesBlanks read)

include passes

/-- A reader that passes white space reads on from behind it. -/
theorem PassesBlanks.read_skipBlank (text : List Char) : read (skipBlank text) = read text := by
  have blanks : Blank (text.takeWhile isBlank) := fun c member =>
    (isBlank_eq_true_iff c).mp (List.mem_takeWhile_imp member)
  calc read (skipBlank text)
      = read (text.takeWhile isBlank ++ skipBlank text) := (passes _ blanks _).symm
    _ = read text := congrArg read List.takeWhile_append_dropWhile

/-- A text of blanks is read as nothing, and another one from its first character that is no blank. -/
theorem PassesBlanks.start (text : List Char) :
    read text = read [] ∨ ∃ c others, isBlank c = false ∧ read text = read (c :: others) ∧
      ∀ more, read (text ++ more) = read (c :: (others ++ more)) := by
  have same := passes.read_skipBlank text
  cases start : skipBlank text with
  | nil => exact .inl (start ▸ same).symm
  | cons c others =>
      have dropped : text.dropWhile isBlank = c :: others := start
      have seen := List.head_dropWhile_not isBlank (dropped ▸ List.cons_ne_nil c others)
      simp only [dropped, List.head_cons] at seen
      refine .inr ⟨c, others, seen, (start ▸ same).symm, fun more => ?_⟩
      rw [← passes.read_skipBlank, skipBlank_append_of_cons start]

end Blanks

/-- The reader makes of a text what is made of the value there, and only a number cares for what
follows. -/
structure Follows (read : List Char → Read Value) (visit : Tree → Except Category Value) :
    Prop where
  value : ∀ {tree text}, Writes (.value tree) text → ∀ rest, Ended rest →
    outcome (read (text ++ rest)) = (visit tree).map fun content => (content, rest)
  blank : PassesBlanks read

namespace Follows

variable {read : List Char → Read Value} {visit : Tree → Except Category Value}
  (follows : Follows read visit)

include follows

/-- The blanks behind a value are left. -/
theorem element {tree : Tree} {text : List Char} (written : Writes (.element tree) text) :
    ∃ after, Blank after ∧ ∀ rest, Ended rest →
      outcome (read (text ++ rest)) = (visit tree).map fun content => (content, after ++ rest) := by
  cases written with
  | @element _ before text after blanks value trail =>
      refine ⟨after, trail, fun rest ends => ?_⟩
      rw [List.append_assoc, follows.blank _ blanks, List.append_assoc]
      exact follows.value value _ (ends.append trail)

end Follows

section Scalars

/-- A text begins with a quote. -/
theorem readString_of_ne {c : Char} (seen : isBlank c = false) (other : c ≠ '"')
    (rest : List Char) : readString (c :: rest) = .error (mismatch "a string" (c :: rest)) := by
  rw [readString, skipBlank_cons seen]
  split
  · rename_i same
    exact absurd (List.cons.inj same).1 other
  · rfl

theorem passesBlanks_readString : PassesBlanks readString := by
  intro blank blanks rest
  rw [readString, readString, skipBlank_append blanks]

/-- A text is read as it is visited. -/
theorem follows_readString : Follows readString visitText where
  value := by
    intro tree text written rest ends
    have refused := category_mismatch_append written ends "a string"
    cases written with
    | text quoted =>
        obtain ⟨inside, rfl, settled⟩ := exists_quoted quoted
        exact settled rest
    | number number =>
        obtain ⟨c, others, rfl, first⟩ := number.first_isDigit
        rw [List.cons_append, readString_of_ne (opening_of_isDigit first).1
          (ne_of_isDigit first (by decide) rfl)]
        exact congrArg Except.error refused
    | _ => exact congrArg Except.error refused
  blank := passesBlanks_readString

theorem readOptional_n (read : List Char → Read Value) (text : List Char) :
    readOptional read ('n' :: text) =
      (readIdent ['u', 'l', 'l'] text).bind fun unread => .ok (none, unread) := by
  rw [readOptional, skipBlank_cons rfl]
  split
  · rename_i same
    cases same
    cases readIdent ['u', 'l', 'l'] text <;> rfl
  · rename_i other
    exact absurd rfl (other text)

/-- What does not begin like null is present. -/
theorem readOptional_of_ne {read : List Char → Read Value} {c : Char} (seen : isBlank c = false)
    (other : c ≠ 'n') (rest : List Char) :
    readOptional read (c :: rest) =
      (read (c :: rest)).map fun parts => (some parts.1, parts.2) := by
  rw [readOptional, skipBlank_cons seen]
  split
  · rename_i same
    exact absurd (List.cons.inj same).1 other
  · cases read (c :: rest) <;> rfl

/-- Only the word null starts with its letter. -/
theorem ne_of_ne_null {tree : Tree} {text : List Char} (written : Writes (.value tree) text)
    (other : tree ≠ .null) :
    ∃ c others, text = c :: others ∧ isBlank c = false ∧ c ≠ 'n' := by
  cases written with
  | null => exact absurd rfl other
  | number number =>
      obtain ⟨c, others, rfl, first⟩ := number.first_isDigit
      exact ⟨c, others, rfl, (opening_of_isDigit first).1, ne_of_isDigit first (by decide) rfl⟩
  | text quoted =>
      cases quoted
      exact ⟨_, _, rfl, rfl, by decide⟩
  | _ => exact ⟨_, _, rfl, rfl, by decide⟩

/-- A value other than null is present. -/
theorem visitOptional_of_ne {visit : Tree → Except Category Value} {tree : Tree}
    (other : tree ≠ .null) : visitOptional visit tree = (visit tree).map some := by
  cases tree with
  | null => exact absurd rfl other
  | _ => rfl

theorem passesBlanks_readOptional (read : List Char → Read Value) :
    PassesBlanks (readOptional read) := by
  intro blank blanks rest
  rw [readOptional, readOptional, skipBlank_append blanks]

/-- An optional value is read as it is visited. -/
theorem Follows.optional {read : List Char → Read Value} {visit : Tree → Except Category Value}
    (follows : Follows read visit) : Follows (readOptional read) (visitOptional visit) where
  value := by
    intro tree text written rest ends
    by_cases null : tree = .null
    · subst null
      cases written
      rfl
    · have inside := follows.value written rest ends
      obtain ⟨c, others, rfl, seen, other⟩ := ne_of_ne_null written null
      rw [List.cons_append] at inside ⊢
      rw [readOptional_of_ne seen other, outcome_map, inside, visitOptional_of_ne null]
      cases visit tree <;> rfl
  blank := passesBlanks_readOptional read

end Scalars

section Lists

/-- An element starts with a character that does not close the list. -/
theorem nextElement_lead (first : Bool) {text : List Char} {c : Char} {others : List Char}
    (start : skipBlank text = c :: others) (inside : c ≠ ']') :
    nextElement first (lead first ++ text) = .ok (true, c :: others) := by
  have comma : skipBlank (',' :: text) = ',' :: text := rfl
  cases first with
  | true => simp [lead, nextElement, start]
  | false => simp [lead, nextElement, start, comma, inside]

/-- White space before an element is passed. -/
theorem nextElement_append {blank : List Char} (blanks : Blank blank) (first : Bool)
    (rest : List Char) : nextElement first (blank ++ rest) = nextElement first rest := by
  rw [nextElement, nextElement, skipBlank_append blanks]

/-- What is left of a list before its bracket. -/
inductive Remains (first : Bool) : List Tree → List Char → Prop where
  | done {blank : List Char} (blanks : Blank blank) : Remains first [] blank
  | more {trees : List Tree} {blank text : List Char} (blanks : Blank blank)
      (written : Writes (.elements trees) text) : Remains first trees (blank ++ (lead first ++ text))

/-- A list without further elements ends at its bracket. -/
theorem Remains.nextElement_nil {first : Bool} {text : List Char}
    (remains : Remains first [] text) (rest : List Char) :
    nextElement first (text ++ ']' :: rest) = .ok (false, rest) := by
  cases remains with
  | done blanks =>
      rw [nextElement_append blanks]
      rfl
  | more _ written => cases written

/-- The value of the next element stands before the rest of the list. -/
theorem Remains.exists_next {first : Bool} {tree : Tree} {trees : List Tree} {text : List Char}
    (remains : Remains first (tree :: trees) text) :
    ∃ value others, Writes (.value tree) value ∧ Remains false trees others ∧ ∀ rest,
      nextElement first (text ++ ']' :: rest) = .ok (true, value ++ (others ++ ']' :: rest)) := by
  have next {blank before value : List Char} (blanks : Blank blank) (lead : Blank before)
      (written : Writes (.value tree) value) (after : List Char) :
      nextElement first (blank ++ (Streaming.lead first ++ (before ++ (value ++ after)))) =
        .ok (true, value ++ after) := by
    obtain ⟨c, others, start, opening⟩ := exists_opening written after
    have found : skipBlank (before ++ (value ++ after)) = c :: others := by
      rw [skipBlank_append lead, start, skipBlank_cons opening.1]
    rw [nextElement_append blanks, nextElement_lead first found opening.2.1, start]
  cases remains with
  | more blanks written =>
      cases written with
      | lastElement element =>
          cases element with
          | @element _ before value after lead written trail =>
              refine ⟨value, after, written, .done trail, fun rest => ?_⟩
              simpa only [List.append_assoc] using next blanks lead written (after ++ ']' :: rest)
      | @moreElements _ _ text others element more =>
          cases element with
          | @element _ before value after lead written trail =>
              refine ⟨value, after ++ (Streaming.lead false ++ others), written, .more trail more,
                fun rest => ?_⟩
              have found := next blanks lead written
                (after ++ (Streaming.lead false ++ others) ++ ']' :: rest)
              simp only [List.append_assoc] at found ⊢
              exact found

/-- What is left behind an element does not carry a number on. -/
theorem Remains.ended {trees : List Tree} {text : List Char} (remains : Remains false trees text)
    (rest : List Char) : Ended (text ++ ']' :: rest) := by
  cases remains with
  | done blanks => exact (ended_cons (by decide) rest).append blanks
  | more blanks _ =>
      rw [List.append_assoc]
      exact (ended_cons (by decide) _).append blanks

/-- Elements are read one after another until none is left. -/
theorem readItemsFrom_eq (item : Reader Item) (first : Bool) (taken : List Item)
    (text : List Char) :
    item.readItemsFrom first taken text = (nextElement first text).bind fun next =>
      if next.1 then (item.run next.2).bind fun parts =>
        item.readItemsFrom false (parts.1 :: taken) parts.2
      else .ok (taken.reverse, next.2) := by
  rw [Reader.readItemsFrom]
  split
  · rename_i failed
    rw [failed]
    rfl
  · rename_i closed
    rw [closed]
    rfl
  · rename_i more
    rw [more]
    split <;> simp_all [Except.bind]

/-- A further element is read before the others. -/
theorem readItemsFrom_of_next {item : Reader Item} {first : Bool} {text element : List Char}
    (next : nextElement first text = .ok (true, element)) (taken : List Item) :
    item.readItemsFrom first taken text = (item.run element).bind fun parts =>
      item.readItemsFrom false (parts.1 :: taken) parts.2 := by
  rw [readItemsFrom_eq, next]
  rfl

/-- The induction is on the elements left, and the items taken so far are arbitrary. -/
theorem outcome_readItemsFrom {item : Reader Item} {visit : Tree → Except Category Item}
    (follows : Follows item.run visit) {trees : List Tree} {first : Bool} {text : List Char}
    (remains : Remains first trees text) (taken : List Item) (rest : List Char) :
    outcome (item.readItemsFrom first taken (text ++ ']' :: rest)) =
      (trees.mapM visit).map fun items => (taken.reverse ++ items, rest) := by
  induction trees generalizing first text taken with
  | nil =>
      rw [readItemsFrom_eq, remains.nextElement_nil]
      exact congrArg (fun items => Except.ok (items, rest)) (List.append_nil _).symm
  | cons tree trees ih =>
      obtain ⟨value, others, written, later, found⟩ := remains.exists_next
      rw [readItemsFrom_of_next (found rest), outcome_bind,
        follows.value written _ (later.ended rest), List.mapM_cons]
      cases visit tree with
      | error category => rfl
      | ok item =>
          refine (ih later (item :: taken)).trans ?_
          cases trees.mapM visit with
          | error category => rfl
          | ok items => exact congrArg (fun items => Except.ok (items, rest)) (by simp)

/-- A list begins with a bracket. -/
theorem readItems_of_ne (item : Reader Item) {c : Char} (seen : isBlank c = false)
    (other : c ≠ '[') (rest : List Char) :
    item.readItems (c :: rest) = .error (mismatch "a sequence" (c :: rest)) := by
  rw [Reader.readItems, skipBlank_cons seen]
  split
  · rename_i same
    exact absurd (List.cons.inj same).1 other
  · rfl

theorem passesBlanks_readItems (item : Reader Item) : PassesBlanks item.readItems := by
  intro blank blanks rest
  rw [Reader.readItems, Reader.readItems, skipBlank_append blanks]

/-- A list is read as it is visited, element by element. -/
theorem Follows.list {item : Reader Item} {visit : Tree → Except Category Item}
    (follows : Follows item.run visit) : Follows item.readItems (visitList visit) where
  value := by
    intro tree text written rest ends
    have refused := category_mismatch_append written ends "a sequence"
    have opened {trees : List Tree} {text : List Char} (remains : Remains true trees text) :
        outcome (item.readItems ('[' :: (text ++ [']']) ++ rest)) =
          (trees.mapM visit).map fun items => (items, rest) := by
      rw [List.cons_append, List.append_assoc]
      exact outcome_readItemsFrom follows remains [] rest
    cases written with
    | emptyList blank => exact opened (.done blank)
    | list elements => exact opened (.more .nil elements)
    | text quoted =>
        cases quoted
        exact congrArg Except.error refused
    | number number =>
        obtain ⟨c, others, rfl, first⟩ := number.first_isDigit
        rw [List.cons_append, readItems_of_ne item (opening_of_isDigit first).1
          (ne_of_isDigit first (by decide) rfl)]
        exact congrArg Except.error refused
    | _ => exact congrArg Except.error refused
  blank := passesBlanks_readItems item

end Lists

end Lexicon.Json.Streaming
