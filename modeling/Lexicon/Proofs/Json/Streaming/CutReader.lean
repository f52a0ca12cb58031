import Lexicon.Proofs.Json.Streaming.CutOff

/-! A reader misses what is cut off a value, unless the value is refused as a whole. -/

namespace Lexicon.Json.Streaming

variable {Value Item : Type}

/-- A cut text without numbers is read like the whole one, as far as it goes. -/
structure Cuts (read : List Char → Read Value) (visit : Tree → Except Category Value) : Prop where
  value : ∀ {tree text}, Writes (.value tree) text → tree.Numberless → ∀ {others part},
    Ended others → Begins part (text ++ others) → Short others (read part) (visit tree)
  nothing : Missed (read [])

section Values

variable {part text others blank : List Char} {tree : Tree}

/-- Blanks alone are read as nothing. -/
theorem Cuts.element {read : List Char → Read Value} {visit : Tree → Except Category Value}
    (cuts : Cuts read visit) (passes : PassesBlanks read) (lead : Blank blank)
    (written : Writes (.value tree) text) (numberless : tree.Numberless) (ends : Ended others)
    (begins : Begins part (blank ++ (text ++ others))) : Short others (read part) (visit tree) := by
  rcases begins.append with early | ⟨later, rfl, late⟩
  · have alone := passes part (early.blank lead) []
    rw [List.append_nil] at alone
    exact .missed (alone ▸ cuts.nothing) _
  · rw [passes blank lead later]
    exact cuts.value written numberless ends late

/-- An empty text is not taken for null. -/
theorem readOptional_nil (reader : Reader Value) :
    reader.optional.run [] = (reader.run []).map fun parts => (some parts.1, parts.2) := by
  have same : reader.optional.run [] = readOptional reader.run [] := rfl
  have start : skipBlank [] = [] := rfl
  rw [same, readOptional, start]
  split
  · rename_i same
    cases same
  · cases reader.run [] <;> rfl

/-- A cut optional value is read as far as it goes. -/
theorem Cuts.optional {reader : Reader Value} {visit : Tree → Except Category Value}
    (cuts : Cuts reader.run visit) : Cuts reader.optional.run (visitOptional visit) := by
  have nothing : Missed (reader.optional.run []) := by
    rw [readOptional_nil, Missed, outcome_map, cuts.nothing]
    rfl
  refine ⟨fun {tree text} written numberless {others part} ends begins => ?_, nothing⟩
  by_cases null : tree = .null
  · subst null
    cases written
    rcases begins_cons_iff.mp begins with rfl | ⟨later, rfl, inside⟩
    · exact .missed nothing _
    · have opened : reader.optional.run ('n' :: later) =
          (readIdent ['u', 'l', 'l'] later).bind fun unread => .ok (none, unread) :=
        readOptional_n reader.run later
      rw [opened]
      rcases (steady_readIdent _).missed_or_begun inside (readIdent_append _ others) with
        missed | ⟨last, done, begins⟩
      · exact .missed (missed.bind _) _
      · rw [done]
        exact .begun none begins
  · obtain ⟨c, unread, rfl, seen, other⟩ := ne_of_ne_null written null
    rcases begins_cons_iff.mp begins with rfl | ⟨later, rfl, _⟩
    · exact .missed nothing _
    · have present : reader.optional.run (c :: later) =
          (reader.run (c :: later)).map fun parts => (some parts.1, parts.2) :=
        readOptional_of_ne seen other later
      rw [present, visitOptional_of_ne null]
      exact (cuts.value written numberless ends begins).map some

end Values

section Lists

variable {item : Reader Item} {visit : Tree → Except Category Item}

/-- Visiting a list is visiting its first element and then the others. -/
theorem mapM_cons_append (tree : Tree) (trees : List Tree) (taken : List Item) :
    (((tree :: trees).mapM visit).map fun items => taken.reverse ++ items) =
      (visit tree).bind fun content =>
        (trees.mapM visit).map fun items => (content :: taken).reverse ++ items := by
  rw [List.mapM_cons]
  cases visit tree with
  | error category => rfl
  | ok content =>
      change ((trees.mapM visit).bind fun items => .ok (content :: items)).map _ =
        (trees.mapM visit).map _
      cases trees.mapM visit with
      | error category => rfl
      | ok items => exact congrArg Except.ok (by simp)

/-- The induction is on the elements left, and the items taken so far are arbitrary. -/
theorem short_readItemsFrom (cuts : Cuts item.run visit) {trees : List Tree} {first : Bool}
    {text part others : List Char} (remains : Remains first trees text)
    (numberless : ∀ tree ∈ trees, tree.Numberless) (taken : List Item)
    (begins : Begins part (text ++ ']' :: others)) :
    Short others (item.readItemsFrom first taken part)
      ((trees.mapM visit).map fun items => taken.reverse ++ items) := by
  induction trees generalizing first text part taken with
  | nil =>
      have closed := (steady_nextElement first).short begins (remains.nextElement_nil others)
      rw [readItemsFrom_eq]
      generalize nextElement first part = next at closed ⊢
      cases closed with
      | missed missed => exact .missed (missed.bind _) _
      | begun _ beyond =>
          have all : ([].mapM visit).map (fun items => taken.reverse ++ items) =
              .ok taken.reverse := congrArg Except.ok (List.append_nil _)
          rw [all]
          exact .begun _ beyond
  | cons tree trees ih =>
      obtain ⟨value, rest, written, further, found⟩ := remains.exists_next
      obtain ⟨head, tail⟩ := List.forall_mem_cons.mp numberless
      have element := (steady_nextElement first).short begins (found others)
      rw [readItemsFrom_eq, mapM_cons_append]
      generalize nextElement first part = next at element ⊢
      cases element with
      | missed missed => exact .missed (missed.bind _) _
      | begun _ inside =>
          have read := cuts.value written head (further.ended others) inside
          exact read.bind fun content later beyond => ih further tail (content :: taken) beyond

/-- A cut list is read as far as it goes. -/
theorem Cuts.list (cuts : Cuts item.run visit) : Cuts item.readItems (visitList visit) where
  value := by
    intro tree text written numberless others part ends begins
    have opened {trees : List Tree} {text : List Char} (remains : Remains true trees text)
        (numberless : ∀ tree ∈ trees, tree.Numberless)
        (begins : Begins part ('[' :: (text ++ [']']) ++ others)) :
        Short others (item.readItems part) (trees.mapM visit) := by
      rcases begins_cons_iff.mp begins with rfl | ⟨later, rfl, inside⟩
      · have nothing : Missed (item.readItems []) := rfl
        exact .missed nothing _
      · rw [List.append_eq, List.append_assoc] at inside
        have read := short_readItemsFrom cuts remains numberless [] inside
        have all : ((trees.mapM visit).map fun items => [].reverse ++ items) =
            trees.mapM visit := by
          cases trees.mapM visit <;> rfl
        rwa [all] at read
    cases written with
    | emptyList blank => exact opened (.done blank) (List.forall_mem_nil _) begins
    | list elements =>
        cases numberless with
        | list numberless => exact opened (.more .nil elements) numberless begins
    | _ => exact .refused _ _
  nothing := rfl

end Lists

section Members

variable {Record Field : Type} [DecidableEq Field] {Content : Field → Type}
  {declaration : Declaration Record Field Content}
  {contents : (field : Field) → Reader (Content field)}
  {visits : (field : Field) → Tree → Except Category (Content field)}
  {inside after blank value others part : List Char} {tree : Tree}

end Members

section Places

variable {Record Field : Type} [DecidableEq Field] {Content : Field → Type}
  {declaration : Declaration Record Field Content}
  {contents : (field : Field) → Reader (Content field)}
  {visits : (field : Field) → Tree → Except Category (Content field)}

end Places

section Records

variable {Record Field : Type} [DecidableEq Field] {Content : Field → Type}
  (declaration : Declaration Record Field Content)
  {contents : (field : Field) → Reader (Content field)}
  {visits : (field : Field) → Tree → Except Category (Content field)}

end Records

end Lexicon.Json.Streaming
