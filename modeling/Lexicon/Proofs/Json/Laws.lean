import Lexicon.Json.Library
import Lexicon.Proofs.Json.Grammar

/-! What is relied on of a library, one law for each thing that it does. -/

namespace Lexicon.Json

section Names

/-- A word of an identifier has small letters and digits. -/
def SmallWord (word : List Char) : Prop :=
  word ≠ [] ∧ ∀ c ∈ word, c.isLower = true ∨ c.isDigit = true

instance (word : List Char) : Decidable (SmallWord word) :=
  @instDecidableAnd _ _ inferInstance (List.decidableBAll _ word)

def capitalized : List Char → List Char
  | [] => []
  | c :: rest => c.toUpper :: rest

end Names

namespace Library

variable (library : Library)

/-- Words behind an underscore get a capital in its place, or all letters become small. -/
structure Renames : Prop where
  camelCase : ∀ first others, SmallWord first → (∀ word ∈ others, SmallWord word) →
    library.rename .camelCase (String.ofList (['_'].intercalate (first :: others))) =
      String.ofList (first ++ others.flatMap capitalized)
  lowercase : ∀ identifier : List Char, (∀ c ∈ identifier, c.isAlphanum = true) →
    library.rename .lowercase (String.ofList identifier) =
      String.ofList (identifier.map Char.toLower)

/-- Values are written without blanks, and what is absent is written as null. -/
structure WritesValues : Prop where
  text : ∀ value, (library.toText .text value).toList = writeText value
  list : ∀ {Item : Type} (item : Shape Item) values,
    (library.toText (.list item) values).toList =
      '[' :: [','].intercalate (values.map fun value => (library.toText item value).toList) ++ [']']
  absent : ∀ {Value : Type} (value : Shape Value),
    (library.toText (.optional value) none).toList = ['n', 'u', 'l', 'l']
  present : ∀ {Value : Type} (value : Shape Value) content,
    library.toText (.optional value) (some content) = library.toText value content
  choice : ∀ {Choice : Type} (enumeration : Enumeration Choice) variant,
    (library.toText (.choice enumeration) variant).toList =
      writeText (library.rename enumeration.rule (enumeration.identifier variant))

/-- A shape makes of a standard text what it makes of the value there. Only numbers care for what
follows, and at most 128 brackets may stand inside one another. -/
structure ReadsValues : Prop where
  value : ∀ {Value : Type} (shape : Shape Value), shape.depth < 128 →
    ∀ {tree text}, Writes (.value tree) text → ∀ rest, Ended rest →
      library.read shape (text ++ rest) =
        (library.visit shape tree).map fun content => (content, rest)
  blank : ∀ {Value : Type} (shape : Shape Value) {blank}, Blank blank → ∀ rest,
    library.read shape (blank ++ rest) = library.read shape rest

/-- A whole text is one value, and only blanks may follow it. -/
structure ReadsWhole : Prop where
  whole : ∀ {Value : Type} (shape : Shape Value) text,
    (library.fromText shape (String.ofList text)).mapError library.category =
      (library.read shape text).bind fun parts =>
        if Blank parts.2 then .ok parts.1 else .error .grammar

/-- Strings, lists, optional values and variants are taken for what they stand for. -/
structure VisitsValues : Prop where
  text : ∀ {value written}, Quotes value written → library.visit .text (.text written) = .ok value
  list : ∀ {Item : Type} (item : Shape Item) elements,
    library.visit (.list item) (.list elements) = elements.mapM (library.visit item)
  absent : ∀ {Value : Type} (value : Shape Value), library.visit (.optional value) .null = .ok none
  present : ∀ {Value : Type} (value : Shape Value) {tree}, tree ≠ .null →
    library.visit (.optional value) tree = (library.visit value tree).map some
  choice : ∀ {Choice : Type} (enumeration : Enumeration Choice) {name written variant},
    Quotes name written → enumeration.variant? library.rename name = some variant →
      library.visit (.choice enumeration) (.text written) = .ok variant

variable {Record Field : Type} [DecidableEq Field] {Content : Field → Type}
  (declaration : Declaration Record Field Content)
  (contents : (field : Field) → Shape (Content field))

/-- A record is written as an object with every field in the order of declaration. -/
structure WritesRecord : Prop where
  object : ∀ record,
    (library.toText (.record declaration contents) record).toList =
      '{' :: [','].intercalate (declaration.fields.map fun field =>
        writeText (library.rename declaration.rule (declaration.identifier field)) ++ ':' ::
          (library.toText (.optional (contents field))
            (declaration.content record field)).toList) ++ ['}']

/-- A record takes the members of an object in their order. Members of other names are passed over, a
repeated field is wrong data, and a missing one is absent. -/
structure VisitsMembers : Prop where
  object : ∀ members,
    library.visit (.record declaration contents) (.object members) =
      (members.foldlM (library.takeMember declaration contents) Draft.empty).map
        declaration.complete
  unknown : ∀ draft {name key}, Quotes name key → declaration.field? library.rename name = none →
    ∀ tree, library.takeMember declaration contents draft (key, tree) = .ok draft
  fresh : ∀ draft {name key field}, Quotes name key →
    declaration.field? library.rename name = some field → draft field = none →
      ∀ tree, library.takeMember declaration contents draft (key, tree) =
        (library.visit (.optional (contents field)) tree).map (draft.set field)
  repeated : ∀ draft {name key field}, Quotes name key →
    declaration.field? library.rename name = some field → draft field ≠ none →
      ∀ tree, library.takeMember declaration contents draft (key, tree) = .error .data

/-- A record also takes the elements of a list, each for the next field in the order of declaration. It
needs one for every field and has no use for more. -/
structure VisitsPlaces : Prop where
  list : ∀ elements,
    library.visit (.record declaration contents) (.list elements) =
      (declaration.fields.foldlM (library.takePlace declaration contents)
        (Draft.empty, elements)).bind fun taken =>
          if taken.2.isEmpty then .ok (declaration.complete taken.1) else .error .grammar
  next : ∀ draft field element others,
    library.takePlace declaration contents (draft, element :: others) field =
      (library.visit (.optional (contents field)) element).map fun content =>
        (draft.set field content, others)
  missing : ∀ draft field,
    library.takePlace declaration contents (draft, []) field = .error .data

end Library

end Lexicon.Json
