import Lexicon.Proofs.Options.RoundTrip

/-! Options in an object are what its known members say. -/

namespace Lexicon

open Json

section Grammar

/-- The values of the format that stand for a value of the field, or for its absence. -/
inductive Field.Holds : (field : Field) → Option field.Content → Tree → Prop where
  | null (field : Field) : Holds field none .null
  | edition {edition : Edition} {text : List Char} (quotes : Quotes edition.name text) :
      Holds .edition (some edition) (.text text)
  | keywords {words : List String} {texts : List (List Char)}
      (quotes : List.Forall₂ Quotes words texts) :
      Holds .keywords (some words) (.list (texts.map .text))
  | extraKeywords {words : List String} {texts : List (List Char)}
      (quotes : List.Forall₂ Quotes words texts) :
      Holds .extraKeywords (some words) (.list (texts.map .text))

/-- The members of an object. The name of an unknown one is no key, and its value is any value. -/
inductive Options.Given : Member Field.Content → List Char × Tree → Prop where
  | known {field : Field} {content : Option field.Content} {key : List Char} {tree : Tree}
      (name : Quotes field.key key) (value : field.Holds content tree) :
      Given (.known field content) (key, tree)
  | unknown {name : String} {key : List Char} {tree : Tree} (quoted : Quotes name key)
      (other : ∀ field : Field, field.key ≠ name) : Given (.unknown name) (key, tree)

/-- An object text of the members, with blanks between all tokens. -/
def Options.Presents (members : List (Member Field.Content)) (text : List Char) : Prop :=
  ∃ raws, List.Forall₂ Given members raws ∧ Writes (.element (.object raws)) text

end Grammar

variable {library : Library}

section Values

variable (renames : library.Renames) (visits : library.VisitsValues)

include visits

/-- A list of quoted words is taken as the words. -/
theorem visit_words {words : List String} {texts : List (List Char)}
    (quotes : List.Forall₂ Quotes words texts) :
    library.visit (.optional (.list .text)) (.list (texts.map .text)) = .ok (some words) := by
  have notNull : Tree.list (texts.map .text) ≠ .null := nofun
  rw [visits.present _ notNull, Library.visit_list visits]
  · rfl
  · rw [List.forall₂_map_right_iff]
    exact quotes.imp fun _ _ each => visits.text each

include renames

/-- The content of a field is what its value holds. -/
theorem Field.Holds.visit {field : Field} {content : Option field.Content} {tree : Tree}
    (holds : field.Holds content tree) :
    library.visit (.optional field.shape) tree = .ok content := by
  cases holds with
  | null => exact visits.absent field.shape
  | @edition edition text quotes =>
      have named := Edition.variant?_name renames edition
      have taken : library.visit (.choice Edition.enumeration) (.text text) = .ok edition :=
        visits.choice Edition.enumeration quotes named
      have notNull : Tree.text text ≠ .null := nofun
      have present := visits.present (.choice Edition.enumeration) notNull
      rw [taken] at present
      exact present
  | keywords quotes => exact visit_words visits quotes
  | extraKeywords quotes => exact visit_words visits quotes

/-- A given member stands for its field, or is one to skip. -/
theorem Options.Given.stands {member : Member Field.Content} {raw : List Char × Tree}
    (given : Given member raw) : library.Stands declaration Field.shape member raw := by
  cases given with
  | known name value => exact .known name (field?_key renames _) (value.visit renames visits)
  | unknown quoted other => exact .unknown quoted (field?_eq_none renames other)

end Values

namespace Options

section Objects

variable (renames : library.Renames) (reads : library.ReadsValues) (whole : library.ReadsWhole)
  (visits : library.VisitsValues) (object : library.VisitsMembers declaration Field.shape)
  {members : List (Member Field.Content)} {text : List Char}

include renames reads whole visits object

/-- Options are read from their members, and a repeated field is wrong data. -/
theorem fromText_of_presents (presents : Presents members text) :
    ((Member.fields members).Nodup →
      (library.fromText shape (String.ofList text)).mapError library.category =
        .ok (declaration.complete (members.foldl Draft.take Draft.empty))) ∧
    (¬(Member.fields members).Nodup →
      (library.fromText shape (String.ofList text)).mapError library.category = .error .data) := by
  obtain ⟨raws, given, written⟩ := presents
  rw [Library.fromText_of_writes reads whole depth_shape_lt written]
  exact Library.visit_object object (given.imp fun _ _ each => each.stands renames visits)

/-- Members in any order give each field its value, and a repeated field is refused. The blanks and the
unknown members make no difference. -/
theorem ofText_by_known_members (presents : Presents members text) :
    ((Member.fields members).Nodup →
      ∃ options, ofText library (String.ofList text) = .ok options ∧
        (∀ field content, .known field content ∈ members → options.content field = content) ∧
        (∀ field, field ∉ Member.fields members → options.content field = none) ∧
        ∀ others other, Presents others other →
          (others.filter Member.isKnown).Perm (members.filter Member.isKnown) →
            ofText library (String.ofList other) = .ok options) ∧
    (¬(Member.fields members).Nodup →
      ∃ error, ofText library (String.ofList text) = .error (.text error) ∧
        library.category error = .data) := by
  obtain ⟨done, refused⟩ := fromText_of_presents renames reads whole visits object presents
  constructor
  · intro once
    refine ⟨_, ofText_eq_ok (done once), ?_, ?_, ?_⟩
    · intro field content named
      rw [content_complete, Draft.foldl_take_of_mem _ once named]
      rfl
    · intro field absent
      rw [content_complete, Draft.foldl_take_of_not_mem _ absent]
      rfl
    · intro others other presented same
      have onceToo : (Member.fields others).Nodup :=
        (Member.fields_perm same).nodup_iff.mpr once
      rw [← Draft.foldl_take_perm once same]
      exact ofText_eq_ok ((fromText_of_presents renames reads whole visits object presented).1 onceToo)
  · exact fun repeated => exists_error_of_ofText (refused repeated)

omit renames reads whole visits object in
/-- An unknown member holds a number and a lone surrogate, and a value is spelled in two ways. -/
theorem ofText_of_moved_members :
    let words : Member Field.Content := .known .extraKeywords (some ["a\n"])
    let null : Member Field.Content := .known .keywords none
    let unknown := " \x7b\"x\" :[-0.5e+1,\x7b\"k\":\"\\ud800\"\x7d] ,".toList
    let text := unknown ++ "\"extraKeywords\":[ \"a\\n\"],\t\"keywords\":null\x7d\n".toList
    let other := "\x7b\"keywords\":null,\"extraKeywords\":[\"\\u0061\\n\"]\x7d".toList
    let twice := "\x7b\"keywords\":null,\"keywords\":null\x7d".toList
    (Presents [.unknown "x", words, null] text ∧ Presents [null, words] other ∧
      Presents [null, null] twice) ∧
      (∃ options, ofText Streaming.library (String.ofList text) = .ok options ∧
        options.content .extraKeywords = some ["a\n"] ∧ options.content .keywords = none ∧
        options.content .edition = none ∧
        ofText Streaming.library (String.ofList other) = .ok options) ∧
      ∃ error, ofText Streaming.library (String.ofList twice) = .error (.text error) ∧
        error.category = .data := by
  intro words null unknown text other twice
  have bare : Blank [] := .nil
  have space : Blank [' '] := by decide
  have tab : Blank ['\t'] := by decide
  have feed : Blank ['\n'] := by decide
  -- The parts of the skipped value, from the innermost outwards.
  have number : Writes (.value (.number _)) _ :=
    .number (@Number.parts ['-'] ['0'] ['.', '5'] ['e', '+', '1'] (.inr rfl) .zero
      (.digits (by decide) (by decide))
      (@Power.digits 'e' ['+'] ['1'] (.inl rfl) (.inr (.inl rfl)) (by decide) (by decide)))
  have surrogate : Quoted _ :=
    .quoted (.cons (.code (@Code.digits 'd' '8' '0' '0' 13 8 0 0 rfl rfl rfl rfl)) .nil)
  have key : Quoted _ := .of_plain (show AllPlain ['k'] by decide)
  have object : Writes (.value (.object [_])) _ :=
    .object (.lastMember (.member bare key bare (Writes.text surrogate).bare))
  have list : Writes (.value _) _ := .list (.moreElements number.bare (.lastElement object.bare))
  have name : Quotes "x" _ := .of_plain "x" (by decide)
  have skipped := Writes.member bare name.toQuoted space (.element bare list space)
  have fresh : ∀ field : Field, field.key ≠ "x" := by
    intro field
    cases field <;> decide
  -- The word is spelled by a letter and an escape, or by two escapes.
  have last : Spells '\n' _ := .letter (show ('n', '\n') ∈ letters by decide)
  have plain : Quotes "a\n" _ :=
    .quoted (.cons (.plain (show Plain 'a' by decide)) (.cons last .nil))
  have escaped : Quotes "a\n" _ :=
    .quoted (.cons (.code (@Code.digits '0' '0' '6' '1' 0 0 6 1 rfl rfl rfl rfl)) (.cons last .nil))
  have keywords : Quotes Field.keywords.key _ := .of_plain _ (by decide)
  have extra : Quotes Field.extraKeywords.key _ := .of_plain _ (by decide)
  have absent {blank : List Char} (lead : Blank blank) :=
    Writes.member lead keywords.toQuoted bare Writes.null.bare
  have listed {blank word : List Char} (lead : Blank blank) (quotes : Quotes "a\n" word) :=
    Writes.member bare extra.toQuoted bare
      (Writes.list (.lastElement (.element lead (.text quotes.toQuoted) bare))).bare
  have nothing : Given null _ := .known keywords (.null .keywords)
  have content {word : List Char} (quotes : Quotes "a\n" word) : Given words _ :=
    .known extra (.extraKeywords (.cons quotes .nil))
  obtain ⟨_, first, presents⟩ :
      ∃ whole, whole = text ∧ Presents [.unknown "x", words, null] whole :=
    ⟨_, by decide +kernel, _, .cons (.unknown name fresh) (.cons (content plain) (.cons nothing .nil)),
      .element space (.object (.moreMembers skipped
        (.moreMembers (listed space plain) (.lastMember (absent tab))))) feed⟩
  obtain ⟨_, second, presented⟩ : ∃ whole, whole = other ∧ Presents [null, words] whole :=
    ⟨_, by decide +kernel, _, .cons nothing (.cons (content escaped) .nil),
      (Writes.object (.moreMembers (absent bare) (.lastMember (listed bare escaped)))).bare⟩
  obtain ⟨_, third, repeats⟩ : ∃ whole, whole = twice ∧ Presents [null, null] whole :=
    ⟨_, by decide +kernel, _, .cons nothing (.cons nothing .nil),
      (Writes.object (.moreMembers (absent bare) (.lastMember (absent bare)))).bare⟩
  subst first second third
  have known {members : List (Member Field.Content)} {text : List Char} :=
    @ofText_by_known_members Streaming.library Streaming.renames Streaming.readsValues
      Streaming.readsWhole Streaming.visitsValues
      (Streaming.visitsMembers declaration Field.shape) members text
  obtain ⟨options, done, present, missing, alike⟩ := (known presents).1 (by decide)
  refine ⟨⟨presents, presented, repeats⟩, ⟨options, done, ?_, ?_, ?_, ?_⟩, ?_⟩
  · exact present .extraKeywords _ (.tail _ (.head _))
  · exact present .keywords _ (.tail _ (.tail _ (.head _)))
  · exact missing .edition (by decide)
  · exact alike _ _ presented (List.Perm.swap _ _ _)
  · exact (known repeats).2 (by decide)

end Objects

end Options

end Lexicon
