import Lexicon.Options.Shape
import Lexicon.Proofs.Json.Laws

/-! The names of editions and fields in a text. -/

namespace Lexicon

open Json

variable {library : Library}

namespace Edition

def name : Edition → String
  | .es5 => "es5"
  | .es2015 => "es2015"

theorem rename_identifier (renames : library.Renames) (edition : Edition) :
    library.rename .lowercase edition.identifier = edition.name := by
  cases edition with
  | es5 => exact renames.lowercase "Es5".toList (List.all_eq_true.mp rfl)
  | es2015 => exact renames.lowercase "Es2015".toList (List.all_eq_true.mp rfl)

/-- Every edition is known by its name. -/
theorem variant?_name (renames : library.Renames) (edition : Edition) :
    enumeration.variant? library.rename edition.name = some edition := by
  have named (other : Edition) :
      (library.rename enumeration.rule (enumeration.identifier other) == edition.name) =
        (other.name == edition.name) :=
    congrArg (· == edition.name) (rename_identifier renames other)
  simp only [Enumeration.variant?, named]
  cases edition <;> rfl

end Edition

namespace Field

def key : Field → String
  | .edition => "ecmaVersion"
  | .keywords => "keywords"
  | .extraKeywords => "extraKeywords"

theorem rename_identifier (renames : library.Renames) (field : Field) :
    library.rename .camelCase field.identifier = field.key := by
  cases field with
  | edition => exact renames.camelCase "ecma".toList ["version".toList] (by decide) (by decide)
  | keywords => exact renames.camelCase "keywords".toList [] (by decide) (by decide)
  | extraKeywords =>
      exact renames.camelCase "extra".toList ["keywords".toList] (by decide) (by decide)

theorem nodup_all : all.Nodup := by decide

theorem mem_all (field : Field) : field ∈ all := by cases field <;> decide

end Field

namespace Options

/-- A field is found by its key. -/
theorem field?_eq_find? (renames : library.Renames) (name : String) :
    declaration.field? library.rename name = Field.all.find? fun field => field.key == name := by
  have keyed (field : Field) :
      (library.rename declaration.rule (declaration.identifier field) == name) =
        (field.key == name) :=
    congrArg (· == name) (Field.rename_identifier renames field)
  simp only [Declaration.field?, keyed]
  rfl

/-- Every field is known by its key. -/
theorem field?_key (renames : library.Renames) (field : Field) :
    declaration.field? library.rename field.key = some field := by
  rw [field?_eq_find? renames]
  cases field <;> rfl

/-- Another name is that of no field. -/
theorem field?_eq_none (renames : library.Renames) {name : String}
    (other : ∀ field : Field, field.key ≠ name) :
    declaration.field? library.rename name = none := by
  rw [field?_eq_find? renames, List.find?_eq_none]
  intro field _
  rw [beq_iff_eq]
  exact other field

/-- A field that was not given has no content. -/
theorem content_complete (draft : Draft Field.Content) (field : Field) :
    (declaration.complete draft).content field = (draft field).join := by
  cases field <;> rfl

/-- Options are an object of lists. -/
theorem depth_shape_lt : shape.depth < 128 := by decide

end Options

end Lexicon
