import Lexicon.Proofs.Json.Laws
import Lexicon.Proofs.Json.Streaming.CutReader

/-! The library that reads from left to right keeps the laws. -/

namespace Lexicon.Json.Streaming

section Names

/-- Letters before an underscore stay. -/
theorem joinWords_append {word : List Char} (letters : ∀ c ∈ word, c ≠ '_') (rest : List Char) :
    joinWords (word ++ rest) = word ++ joinWords rest := by
  induction word with
  | nil => rfl
  | cons c word ih =>
      obtain ⟨first, others⟩ := List.forall_mem_cons.mp letters
      rw [List.cons_append, joinWords, ih others, List.cons_append]
      rintro d more rfl
      exact absurd rfl first

/-- A small word has no underscore. -/
theorem ne_underscore_of_small {word : List Char} (small : SmallWord word) :
    ∀ c ∈ word, c ≠ '_' := by
  rintro _ member rfl
  exact absurd (small.2 '_' member) (by decide)

/-- Each word behind an underscore gets its capital. -/
theorem joinWords_flatMap {words : List (List Char)} (small : ∀ word ∈ words, SmallWord word) :
    joinWords (words.flatMap ('_' :: ·)) = words.flatMap capitalized := by
  induction words with
  | nil => rfl
  | cons word words ih =>
      obtain ⟨first, others⟩ := List.forall_mem_cons.mp small
      rw [List.flatMap_cons, List.flatMap_cons, ← ih others]
      cases word with
      | nil => exact absurd rfl first.1
      | cons c word =>
          have letters : ∀ d ∈ word, d ≠ '_' := fun d member =>
            ne_underscore_of_small first d (List.mem_cons_of_mem c member)
          simp only [List.cons_append, joinWords, capitalized, joinWords_append letters]

/-- Words are joined by an underscore before each of them but the first. -/
theorem intercalate_underscore (first : List Char) (others : List (List Char)) :
    ['_'].intercalate (first :: others) = first ++ others.flatMap ('_' :: ·) := by
  induction others generalizing first with
  | nil => simp
  | cons second others ih =>
      rw [List.intercalate_cons_cons, ih, List.flatMap_cons]
      simp

/-- Identifiers are renamed by the rules of the declarations. -/
theorem renames : library.Renames where
  camelCase := by
    intro first others small smallToo
    have joined : library.rename .camelCase (String.ofList (['_'].intercalate (first :: others))) =
        String.ofList (joinWords (String.ofList (['_'].intercalate (first :: others))).toList) := rfl
    rw [joined, String.toList_ofList, intercalate_underscore,
      joinWords_append (ne_underscore_of_small small), joinWords_flatMap smallToo]
  lowercase := by
    intro identifier _
    have lowered : library.rename .lowercase (String.ofList identifier) =
        String.ofList ((String.ofList identifier).toList.map Char.toLower) := rfl
    rw [lowered, String.toList_ofList]

end Names

section Writing

theorem toList_toText {Value : Type} (shape : Shape Value) (value : Value) :
    (library.toText shape value).toList = write shape value :=
  String.toList_ofList

/-- Every shape is written as its values are. -/
theorem writesValues : library.WritesValues where
  text value := toList_toText .text value
  list item values := by
    simp only [toList_toText]
    rfl
  absent value := toList_toText (.optional value) none
  present _ _ := rfl
  choice enumeration variant := toList_toText (.choice enumeration) variant

variable {Record Field : Type} [DecidableEq Field] {Content : Field → Type}
  (declaration : Declaration Record Field Content)
  (contents : (field : Field) → Shape (Content field))

/-- A record is written as its fields in their order. -/
theorem writesRecord : library.WritesRecord declaration contents where
  object record := by
    simp only [toList_toText]
    rw [write]
    have same (field : Field) :
        (declaration.content record field).elim writeNull (write (contents field)) =
          write (.optional (contents field)) (declaration.content record field) := by
      cases declaration.content record field <;> rfl
    simp only [same]
    rfl

end Writing

section Reading

/-- Any written value is read as it is visited. -/
theorem readsValues : library.ReadsValues where
  value shape _ _ _ written rest ends := (follows_reader shape).value written rest ends
  blank shape _ blanks rest := congrArg outcome ((follows_reader shape).blank _ blanks rest)

/-- A text is read as a whole or refused. -/
theorem readsWhole : library.ReadsWhole where
  whole shape text := by
    have whole : (library.fromText shape (String.ofList text)).mapError library.category =
        (readAll (reader shape).run (String.ofList text).toList).mapError Error.category := rfl
    have start : library.read shape text = outcome ((reader shape).run text) := rfl
    rw [whole, start, String.toList_ofList, readAll]
    cases (reader shape).run text with
    | error failure => rfl
    | ok parts =>
        have read : outcome (.ok parts) = .ok parts := rfl
        rw [read, Except.bind]
        simp only [← skipBlank_eq_nil_iff]
        cases skipBlank parts.2 <;> rfl

end Reading

section Visiting

variable {Record Field : Type} [DecidableEq Field] {Content : Field → Type}
  (declaration : Declaration Record Field Content)
  (contents : (field : Field) → Shape (Content field))

/-- A quoted text is visited as the text that it spells. -/
theorem visitText_of_quotes {value : String} {written : List Char} (quotes : Quotes value written) :
    visitText (.text written) = .ok value := by
  cases quotes with
  | @quoted text spelled =>
      have visited : visitText (.text ('"' :: (text ++ ['"']))) =
          (outcome (readText (text ++ ['"']))).map Prod.fst := rfl
      rw [visited, readText_spelled spelled]
      rfl

/-- Values are visited by the rules of their shapes. -/
theorem visitsValues : library.VisitsValues where
  text quotes := visitText_of_quotes quotes
  list _ _ := rfl
  absent _ := rfl
  present _ _ other := visitOptional_of_ne other
  choice enumeration name written variant quotes named := by
    have visited : library.visit (.choice enumeration) (.text written) =
        visitName enumeration written := rfl
    have named : enumeration.variant? rename name = some variant := named
    rw [visited, visitName, visitText_of_quotes quotes]
    simp only [Except.bind, named]

/-- Members are taken one after another, and unknown names are passed. -/
theorem visitsMembers : library.VisitsMembers declaration contents where
  object _ := rfl
  unknown draft name key quotes other tree := by
    have taken : library.takeMember declaration contents draft (key, tree) =
        takeMember declaration (fun field => visit (contents field)) draft (key, tree) := rfl
    have other : declaration.field? rename name = none := other
    rw [taken, takeMember, visitText_of_quotes quotes]
    simp only [Except.bind, other]
  fresh draft name key field quotes known absent tree := by
    have taken : library.takeMember declaration contents draft (key, tree) =
        takeMember declaration (fun field => visit (contents field)) draft (key, tree) := rfl
    have known : declaration.field? rename name = some field := known
    rw [taken, takeMember, visitText_of_quotes quotes]
    simp only [Except.bind, known, absent]
    rfl
  repeated draft name key field quotes known present tree := by
    have taken : library.takeMember declaration contents draft (key, tree) =
        takeMember declaration (fun field => visit (contents field)) draft (key, tree) := rfl
    have known : declaration.field? rename name = some field := known
    have present : (draft field).isSome = true := Option.isSome_iff_ne_none.mpr present
    rw [taken, takeMember, visitText_of_quotes quotes]
    simp only [Except.bind, known, present, if_true]

/-- Fields take the elements of a list in their order. -/
theorem visitsPlaces : library.VisitsPlaces declaration contents where
  list _ := rfl
  next _ _ _ _ := rfl
  missing _ _ := rfl

end Visiting

end Lexicon.Json.Streaming
