/-! Declared types that can be read from a text and written to one. -/

namespace Lexicon.Json

/-- A rule derives the names in a text from the identifiers of a declaration. -/
inductive Rename where
  | camelCase
  | lowercase
  deriving DecidableEq, Repr

/-- An enumeration has variants without data. -/
structure Enumeration (Choice : Type) where
  rule : Rename
  variants : List Choice
  identifier : Choice → String

/-- A record has optional fields, and a value of it is made of their contents. -/
structure Declaration (Record Field : Type) (Content : Field → Type) where
  title : String
  rule : Rename
  /-- The fields stand in the order of their declaration. -/
  fields : List Field
  identifier : Field → String
  make : ((field : Field) → Option (Content field)) → Record
  content : Record → (field : Field) → Option (Content field)

inductive Shape : Type → Type 1 where
  | text : Shape String
  | list {Item : Type} (item : Shape Item) : Shape (List Item)
  | optional {Value : Type} (value : Shape Value) : Shape (Option Value)
  | choice {Choice : Type} (enumeration : Enumeration Choice) : Shape Choice
  | record {Record Field : Type} [DecidableEq Field] {Content : Field → Type}
      (declaration : Declaration Record Field Content)
      (contents : (field : Field) → Shape (Content field)) : Shape Record

/-- The brackets that a well-typed value has inside one another. -/
def Shape.depth {Value : Type} : Shape Value → Nat
  | .text => 0
  | .list item => item.depth + 1
  | .optional value => value.depth
  | .choice _ => 1
  | @record _ _ _ _ declaration contents =>
      (declaration.fields.map fun field => (contents field).depth).foldr max 0 + 1

variable {Choice Record Field : Type} {Content : Field → Type}

/-- The variant that a name stands for. -/
def Enumeration.variant? (enumeration : Enumeration Choice) (rename : Rename → String → String)
    (name : String) : Option Choice :=
  enumeration.variants.find? fun variant =>
    rename enumeration.rule (enumeration.identifier variant) == name

/-- The field that a key stands for. -/
def Declaration.field? (declaration : Declaration Record Field Content)
    (rename : Rename → String → String) (key : String) : Option Field :=
  declaration.fields.find? fun field =>
    rename declaration.rule (declaration.identifier field) == key

/-- What has been taken of each field so far, null included. -/
abbrev Draft (Content : Field → Type) := (field : Field) → Option (Option (Content field))

namespace Draft

def empty : Draft Content := fun _ => none

variable [DecidableEq Field]

def set (draft : Draft Content) (field : Field) (content : Option (Content field)) :
    Draft Content :=
  fun other => if same : field = other then some (same ▸ content) else draft other

/-- A field holds what was set last. -/
@[simp] theorem set_self (draft : Draft Content) (field : Field)
    (content : Option (Content field)) : draft.set field content field = some content := by
  rw [set, dif_pos rfl]

/-- Setting a field leaves the others. -/
@[simp] theorem set_of_ne (draft : Draft Content) {field other : Field}
    (differs : field ≠ other) (content : Option (Content field)) :
    draft.set field content other = draft other :=
  dif_neg differs

end Draft

/-- A field that was not taken is absent. -/
def Declaration.complete (declaration : Declaration Record Field Content)
    (draft : Draft Content) : Record :=
  declaration.make fun field => (draft field).join

end Lexicon.Json
