import Lexicon.Options.Load
import Lexicon.Proofs.Json.RoundTrip
import Lexicon.Proofs.Json.Streaming.Laws
import Lexicon.Proofs.Options.Names

/-! Written options are read back, and a part of them is never taken for options. -/

namespace Lexicon

open Json

variable {library : Library}

section Trees

variable (renames : library.Renames) (writes : library.WritesValues)
  (visits : library.VisitsValues)

include writes visits

/-- Every list of words is written as a value other than null. -/
theorem exists_writesAs_words (words : List String) :
    ∃ tree, tree ≠ .null ∧ library.WritesAs (.list .text) words tree := by
  refine ⟨.list (words.map fun word => .text (writeText word)), nofun, ?_⟩
  apply Library.writesAs_list writes visits
  rw [List.forall₂_map_right_iff, List.forall₂_same]
  exact fun word _ => Library.writesAs_text writes visits word

include renames

/-- Every edition is written as a value other than null. -/
theorem exists_writesAs_edition (edition : Edition) :
    ∃ tree, tree ≠ .null ∧ library.WritesAs (.choice Edition.enumeration) edition tree := by
  have named : Edition.enumeration.variant? library.rename
      (library.rename Edition.enumeration.rule (Edition.enumeration.identifier edition)) =
        some edition :=
    (congrArg _ (Edition.rename_identifier renames edition)).trans
      (Edition.variant?_name renames edition)
  refine ⟨_, ?_, Library.writesAs_choice writes visits named⟩
  nofun

/-- The content of every field is written as some value. -/
theorem Field.exists_writesAs (field : Field) (content : Option field.Content) :
    ∃ tree, library.WritesAs (.optional field.shape) content tree := by
  cases content with
  | none => exact ⟨.null, Library.writesAs_absent writes visits field.shape⟩
  | some content =>
      obtain ⟨tree, notNull, inside⟩ :
          ∃ tree, tree ≠ .null ∧ library.WritesAs field.shape content tree := by
        cases field with
        | edition => exact exists_writesAs_edition renames writes visits content
        | keywords => exact exists_writesAs_words writes visits content
        | extraKeywords => exact exists_writesAs_words writes visits content
      exact ⟨tree, Library.writesAs_present writes visits notNull inside⟩

/-- Options are written as a value without numbers and taken for themselves again. -/
theorem Options.exists_writesAs (record : library.WritesRecord declaration Field.shape)
    (members : library.VisitsMembers declaration Field.shape) (options : Options) :
    ∃ tree, library.WritesAs shape options tree := by
  choose trees fields using fun field : Field =>
    field.exists_writesAs renames writes visits (options.content field)
  have named (field : Field) : declaration.field? library.rename
      (library.rename declaration.rule (declaration.identifier field)) = some field :=
    (congrArg _ (Field.rename_identifier renames field)).trans (field?_key renames field)
  exact ⟨_, Library.writesAs_record record members Field.mem_all Field.nodup_all named rfl fields⟩

end Trees

namespace Options

section Texts

variable {text : List Char}

/-- What the library reads is what is loaded. -/
theorem ofText_eq_ok {options : Options} {text : String}
    (read : (library.fromText shape text).mapError library.category = .ok options) :
    ofText library text = .ok options := by
  rw [ofText, Library.fromText_eq_ok read]
  rfl

/-- A text that the library refuses is refused for an error of the same category. -/
theorem exists_error_of_ofText {category : Category} {text : String}
    (refused : (library.fromText shape text).mapError library.category = .error category) :
    ∃ error, ofText library text = .error (.text error) ∧ library.category error = category := by
  obtain ⟨error, failed, same⟩ := Library.exists_error_of_fromText refused
  exact ⟨error, by rw [ofText, failed]; rfl, same⟩

end Texts

section RoundTrips

variable (renames : library.Renames) (writes : library.WritesValues)
  (record : library.WritesRecord declaration Field.shape) (reads : library.ReadsValues)
  (whole : library.ReadsWhole) (visits : library.VisitsValues)
  (members : library.VisitsMembers declaration Field.shape)

include renames writes record reads whole visits members

/-- Options survive being written and read again, so an empty list stays apart from an absent one. -/
theorem ofText_write (options : Options) : ofText library (write library options) = .ok options := by
  obtain ⟨tree, written, _, visited⟩ :=
    exists_writesAs renames writes visits record members options
  have read := Library.fromText_of_writes reads whole depth_shape_lt written.bare
  rw [String.ofList_toList, visited] at read
  exact ofText_eq_ok read

omit renames writes record reads whole visits members in
/-- The empty list is not taken for an absent one, nor the escapes for what they are written with. -/
theorem ofText_of_written_escapes :
    let options : Options := ⟨some .es2015, some [], some ["a\n\"", "é\x00"]⟩
    write Streaming.library options = "\x7b\"ecmaVersion\":\"es2015\",\"keywords\":[]," ++
        "\"extraKeywords\":[\"a\\n\\\"\",\"é\\u0000\"]\x7d" ∧
      ofText Streaming.library (write Streaming.library options) = .ok options := by
  intro options
  refine ⟨by decide +kernel, ?_⟩
  exact ofText_write Streaming.renames Streaming.writesValues
    (Streaming.writesRecord declaration Field.shape) Streaming.readsValues Streaming.readsWhole
    Streaming.visitsValues (Streaming.visitsMembers declaration Field.shape) options

end RoundTrips

end Options

end Lexicon
