import Mathlib.Data.List.Forall2
import Lexicon.Proofs.Json.Laws

/-! Whole texts are read for the values that they write. -/

namespace Lexicon.Json.Library

variable {library : Library} {Value : Type} {shape : Shape Value} {tree : Tree} {text : List Char}

/-- Reading a standard text comes out as visiting its value. -/
theorem fromText_of_writes (reads : library.ReadsValues) (whole : library.ReadsWhole)
    (shallow : shape.depth < 128) (written : Writes (.element tree) text) :
    (library.fromText shape (String.ofList text)).mapError library.category =
      library.visit shape tree := by
  cases written with
  | @element _ before text after lead value trail =>
      rw [whole.whole, reads.blank shape lead, reads.value shape shallow value after trail.ended]
      cases library.visit shape tree with
      | error category => rfl
      | ok content => exact if_pos trail

/-- A list is taken element by element. -/
theorem visit_list {Item : Type} (visits : library.VisitsValues) {item : Shape Item}
    {values : List Item} {trees : List Tree}
    (items : List.Forall₂ (fun value tree => library.visit item tree = .ok value) values trees) :
    library.visit (.list item) (.list trees) = .ok values := by
  rw [visits.list]
  induction items with
  | nil => rfl
  | cons first _ ih =>
      rw [List.mapM_cons, first, ih]
      rfl

/-- A result is not changed by the categories of the errors. -/
theorem fromText_eq_ok {value : Value} {text : String}
    (read : (library.fromText shape text).mapError library.category = .ok value) :
    library.fromText shape text = .ok value := by
  cases found : library.fromText shape text with
  | error failure =>
      rw [found] at read
      cases read
  | ok other =>
      rw [found] at read
      cases read
      rfl

/-- A refusal has an error of the category. -/
theorem exists_error_of_fromText {category : Category} {text : String}
    (refused : (library.fromText shape text).mapError library.category = .error category) :
    ∃ error, library.fromText shape text = .error error ∧ library.category error = category := by
  cases found : library.fromText shape text with
  | error failure =>
      rw [found] at refused
      cases refused
      exact ⟨failure, rfl, rfl⟩
  | ok other =>
      rw [found] at refused
      cases refused

end Lexicon.Json.Library
