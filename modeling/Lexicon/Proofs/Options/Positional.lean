import Lexicon.Proofs.Options.Presentation

/-! Options in a list are the options in an object with the same values. -/

namespace Lexicon

open Json

namespace Options

section Forms

/-- The values stand in a list, in the order of the fields. -/
def positional (texts : Field → List Char) : List Char :=
  '[' :: ([','].intercalate (Field.all.map texts) ++ [']'])

/-- The values stand in an object, each behind the key of its field. -/
def named (texts : Field → List Char) : List Char :=
  '{' :: ([','].intercalate
    (Field.all.map fun field => writeText field.key ++ ':' :: texts field) ++ ['}'])

variable {texts : Field → List Char} {trees : Field → Tree}
  (written : ∀ field, Writes (.element (trees field)) (texts field))

include written

/-- The values of the fields, listed in their order, are a value of the format. -/
theorem writes_positional :
    Writes (.element (.list (Field.all.map trees))) (positional texts) := by
  apply (writes_list _).bare
  rw [List.forall₂_map_left_iff, List.forall₂_map_right_iff, List.forall₂_same]
  exact fun field _ => written field

/-- The values of the fields, under their keys, are a value of the format. -/
theorem writes_named :
    Writes (.element (.object (Field.all.map fun field => (writeText field.key, trees field))))
      (named texts) := by
  apply (writes_object _).bare
  rw [List.forall₂_map_left_iff, List.forall₂_map_right_iff, List.forall₂_same]
  exact fun field _ => .member .nil (quotes_writeText _).toQuoted .nil (written field)

end Forms

variable {library : Library} (renames : library.Renames) (reads : library.ReadsValues)
  (whole : library.ReadsWhole) (visits : library.VisitsValues)
  (object : library.VisitsMembers declaration Field.shape)
  (places : library.VisitsPlaces declaration Field.shape)

section Agreement

variable {trees : Field → Tree}

include renames object places

/-- The elements of a list are taken as the members of the object would be. -/
theorem visit_positional_eq_visit_named :
    library.visit shape (.list (Field.all.map trees)) =
      library.visit shape
        (.object (Field.all.map fun field => (writeText field.key, trees field))) := by
  apply Library.visit_list_eq_visit_object object places trees Field.nodup_all
  exact fun field _ => ⟨field.key, quotes_writeText _, field?_key renames field⟩

omit renames object in
/-- No options stand in a list with too few elements. -/
theorem exists_error_of_short {elements : List Tree} (short : elements.length < 3) :
    ∃ category, library.visit shape (.list elements) = .error category := by
  have few : elements.length < Field.all.length := short
  obtain ⟨category, failed⟩ := Library.foldlM_takePlace_of_short places few Draft.empty
  refine ⟨category, ?_⟩
  rw [shape, places.list]
  exact congrArg (Except.bind · _) failed

omit places in
include visits in
/-- Well-typed values are the contents of the options. -/
theorem exists_visit_named_of_holds {contents : (field : Field) → Option field.Content}
    (holds : ∀ field, Field.Holds field (contents field) (trees field)) :
    ∃ options, library.visit shape
        (.object (Field.all.map fun field => (writeText field.key, trees field))) = .ok options ∧
      ∀ field, options.content field = contents field := by
  let members : List (Member Field.Content) :=
    Field.all.map fun field => .known field (contents field)
  have stand : List.Forall₂ (library.Stands declaration Field.shape) members
      (Field.all.map fun field => (writeText field.key, trees field)) := by
    rw [List.forall₂_map_left_iff, List.forall₂_map_right_iff, List.forall₂_same]
    intro field _
    exact (Given.known (quotes_writeText _) (holds field)).stands renames visits
  have once : (Member.fields members).Nodup := Field.nodup_all
  refine ⟨_, (Library.visit_object object stand).1 once, fun field => ?_⟩
  have listed : .known field (contents field) ∈ members :=
    List.mem_map.mpr ⟨field, field.mem_all, rfl⟩
  rw [content_complete, Draft.foldl_take_of_mem _ once listed]
  rfl

end Agreement

include renames reads whole visits object places

/-- The list form and the object form of any three values give the same options, or both are refused
alike. Well-typed values are never refused, and no list with fewer elements holds options. -/
theorem ofText_positional_eq_named {texts : Field → List Char} {trees : Field → Tree}
    (written : ∀ field, Writes (.element (trees field)) (texts field)) :
    ((∃ options, ofText library (String.ofList (positional texts)) = .ok options ∧
        ofText library (String.ofList (named texts)) = .ok options) ∨
      ∃ error other, ofText library (String.ofList (positional texts)) = .error (.text error) ∧
        ofText library (String.ofList (named texts)) = .error (.text other) ∧
        library.category error = library.category other) ∧
    (∀ contents : (field : Field) → Option field.Content,
      (∀ field, Field.Holds field (contents field) (trees field)) →
        ∃ options, ofText library (String.ofList (positional texts)) = .ok options ∧
          ∀ field, options.content field = contents field) ∧
    ∀ elements text, Writes (.element (.list elements)) text → elements.length < 3 →
      ∃ error, ofText library (String.ofList text) = .error (.text error) := by
  have list := Library.fromText_of_writes reads whole depth_shape_lt (writes_positional written)
  have members := Library.fromText_of_writes reads whole depth_shape_lt (writes_named written)
  rw [visit_positional_eq_visit_named renames object places] at list
  refine ⟨?_, ?_, ?_⟩
  · cases visited : library.visit shape
        (.object (Field.all.map fun field => (writeText field.key, trees field))) with
    | ok options =>
        rw [visited] at list members
        exact .inl ⟨options, ofText_eq_ok list, ofText_eq_ok members⟩
    | error category =>
        rw [visited] at list members
        obtain ⟨error, failed, same⟩ := exists_error_of_ofText list
        obtain ⟨other, refused, alike⟩ := exists_error_of_ofText members
        exact .inr ⟨error, other, failed, refused, same.trans alike.symm⟩
  · intro contents holds
    obtain ⟨options, visited, alike⟩ := exists_visit_named_of_holds renames visits object holds
    rw [visited] at list
    exact ⟨options, ofText_eq_ok list, alike⟩
  · intro elements text lists short
    have read := Library.fromText_of_writes reads whole depth_shape_lt lists
    obtain ⟨category, refused⟩ := exists_error_of_short places short
    rw [refused] at read
    obtain ⟨error, failed, _⟩ := exists_error_of_ofText read
    exact ⟨error, failed⟩

/-- The fields choose among three things. -/
def choose {Result : Type} (edition keywords extraKeywords : Result) : Field → Result
  | .edition => edition
  | .keywords => keywords
  | .extraKeywords => extraKeywords

omit renames reads whole visits object places in
/-- The values may be well typed, or each wrong in its own way, and no list may end too early. -/
theorem ofText_of_listed_values :
    let values := choose "\"es5\"".toList "null".toList " [\"in\" ]".toList
    let others := choose "\x7b\"es2015\":null\x7d".toList "[\"\\ud800\"]".toList "true".toList
    ((∃ trees : Field → Tree, ∀ field, Writes (.element (trees field)) (values field)) ∧
      (∃ trees : Field → Tree, ∀ field, Writes (.element (trees field)) (others field)) ∧
      String.ofList (positional values) = "[\"es5\",null, [\"in\" ]]" ∧
      String.ofList (named others) = "\x7b\"ecmaVersion\":\x7b\"es2015\":null\x7d," ++
        "\"keywords\":[\"\\ud800\"],\"extraKeywords\":true\x7d") ∧
      (∃ options, ofText Streaming.library "[\"es5\",null, [\"in\" ]]" = .ok options ∧
        options.content .edition = some .es5 ∧ options.content .keywords = none ∧
        options.content .extraKeywords = some ["in"] ∧
        ofText Streaming.library (String.ofList (named values)) = .ok options) ∧
      (∃ error other,
        ofText Streaming.library (String.ofList (positional others)) = .error (.text error) ∧
        ofText Streaming.library (String.ofList (named others)) = .error (.text other) ∧
        error.category = other.category) ∧
      ∃ error, ofText Streaming.library "[\"es5\",null]" = .error (.text error) := by
  intro values others
  have space : Blank [' '] := by decide
  have es5 : Quotes "es5" "\"es5\"".toList := .of_plain "es5" (by decide)
  have es2015 : Quoted "\"es2015\"".toList := .of_plain (show AllPlain "es2015".toList by decide)
  have word : Quotes "in" "\"in\"".toList := .of_plain "in" (by decide)
  have surrogate : Quoted "\"\\ud800\"".toList :=
    .quoted (.cons (.code (@Code.digits 'd' '8' '0' '0' 13 8 0 0 rfl rfl rfl rfl)) .nil)
  have listed : Writes (.value (.list [.text "\"in\"".toList])) "[\"in\" ]".toList :=
    .list (.lastElement (.element .nil (.text word.toQuoted) space))
  let trees : Field → Tree := choose (.text "\"es5\"".toList) .null (.list [.text "\"in\"".toList])
  let wrong : Field → Tree := choose (.object [("\"es2015\"".toList, .null)])
    (.list [.text "\"\\ud800\"".toList]) (.boolean true)
  have written (field : Field) : Writes (.element (trees field)) (values field) := by
    cases field with
    | edition => exact (Writes.text es5.toQuoted).bare
    | keywords => exact Writes.null.bare
    | extraKeywords => exact .element space listed .nil
  have writtenToo (field : Field) : Writes (.element (wrong field)) (others field) := by
    cases field with
    | edition => exact (Writes.object (.lastMember (.member .nil es2015 .nil Writes.null.bare))).bare
    | keywords => exact (Writes.list (.lastElement (Writes.text surrogate).bare)).bare
    | extraKeywords => exact Writes.true.bare
  let contents : (field : Field) → Option field.Content := fun field =>
    Field.casesOn field (some Edition.es5) none (some ["in"])
  have holds (field : Field) : Field.Holds field (contents field) (trees field) := by
    cases field with
    | edition => exact .edition es5
    | keywords => exact .null .keywords
    | extraKeywords => exact .extraKeywords (.cons word .nil)
  have short : Writes (.element (.list [trees .edition, trees .keywords])) "[\"es5\",null]".toList :=
    (Writes.list (.moreElements (written .edition) (.lastElement (written .keywords)))).bare
  have list : String.ofList (positional values) = "[\"es5\",null, [\"in\" ]]" := by decide +kernel
  have refused : (ofText Streaming.library (String.ofList (positional others))).isOk = false := by
    decide +kernel
  have forms {texts : Field → List Char} {trees : Field → Tree} :=
    @ofText_positional_eq_named Streaming.library Streaming.renames Streaming.readsValues
      Streaming.readsWhole Streaming.visitsValues
      (Streaming.visitsMembers declaration Field.shape)
      (Streaming.visitsPlaces declaration Field.shape) texts trees
  obtain ⟨agree, typed, few⟩ := forms written
  obtain ⟨agreeToo, _, _⟩ := forms writtenToo
  refine ⟨⟨⟨trees, written⟩, ⟨wrong, writtenToo⟩, list, by decide +kernel⟩, ?_, ?_, ?_⟩
  · obtain ⟨options, done, contained⟩ := typed contents holds
    rcases agree with ⟨same, first, second⟩ | ⟨error, _, failed, _⟩
    · cases done.symm.trans first
      exact ⟨options, list ▸ done, contained .edition, contained .keywords,
        contained .extraKeywords, second⟩
    · cases done.symm.trans failed
  · rcases agreeToo with ⟨options, done, _⟩ | disagreed
    · rw [done] at refused
      cases refused
    · exact disagreed
  · have lists := few _ _ short (by decide)
    rwa [String.ofList_toList] at lists

end Options

end Lexicon
