import Lexicon.Proofs.Json.Members
import Lexicon.Proofs.Json.Reading

/-! What a library writes is a standard text of the value. -/

namespace Lexicon.Json

section Texts

/-- Elements are joined by commas. -/
theorem writes_elements {texts : List (List Char)} {trees : List Tree}
    (written : List.Forall₂ (fun text tree => Writes (.element tree) text) texts trees)
    (nonempty : texts ≠ []) : Writes (.elements trees) ([','].intercalate texts) := by
  induction written with
  | nil => exact absurd rfl nonempty
  | @cons text tree texts trees first rest ih =>
      cases rest with
      | nil =>
          rw [List.intercalate_singleton]
          exact .lastElement first
      | cons =>
          rw [List.intercalate_cons_cons, List.append_assoc]
          exact .moreElements first (ih (List.cons_ne_nil _ _))

/-- Written elements between brackets are a written list. -/
theorem writes_list {texts : List (List Char)} {trees : List Tree}
    (written : List.Forall₂ (fun text tree => Writes (.element tree) text) texts trees) :
    Writes (.value (.list trees)) ('[' :: ([','].intercalate texts ++ [']'])) := by
  cases written with
  | nil => exact .emptyList .nil
  | cons first rest => exact .list (writes_elements (.cons first rest) (List.cons_ne_nil _ _))

/-- Members are joined by commas. -/
theorem writes_members {texts : List (List Char)} {members : List (List Char × Tree)}
    (written : List.Forall₂ (fun text member => Writes (.member member) text) texts members)
    (nonempty : texts ≠ []) : Writes (.members members) ([','].intercalate texts) := by
  induction written with
  | nil => exact absurd rfl nonempty
  | @cons text member texts members first rest ih =>
      cases rest with
      | nil =>
          rw [List.intercalate_singleton]
          exact .lastMember first
      | cons =>
          rw [List.intercalate_cons_cons, List.append_assoc]
          exact .moreMembers first (ih (List.cons_ne_nil _ _))

/-- Written members between braces are a written object. -/
theorem writes_object {texts : List (List Char)} {members : List (List Char × Tree)}
    (written : List.Forall₂ (fun text member => Writes (.member member) text) texts members) :
    Writes (.value (.object members)) ('{' :: ([','].intercalate texts ++ ['}'])) := by
  cases written with
  | nil => exact .emptyObject .nil
  | cons first rest => exact .object (writes_members (.cons first rest) (List.cons_ne_nil _ _))

/-- A value is an element without white space around it. -/
theorem Writes.bare {tree : Tree} {text : List Char} (written : Writes (.value tree) text) :
    Writes (.element tree) text := by
  have padded := Writes.element .nil written .nil
  rwa [List.append_nil, List.nil_append] at padded

end Texts

namespace Library

variable {library : Library} {Value Item Choice : Type}

/-- The value is written as the tree, without numbers, and taken for itself again. -/
structure WritesAs (library : Library) (shape : Shape Value) (value : Value) (tree : Tree) :
    Prop where
  written : Writes (.value tree) (library.toText shape value).toList
  numberless : tree.Numberless
  visited : library.visit shape tree = .ok value

/-- A text is written as a quoted text. -/
theorem writesAs_text (writes : library.WritesValues) (visits : library.VisitsValues)
    (value : String) : library.WritesAs .text value (.text (writeText value)) where
  written := by
    rw [writes.text]
    exact .text (quotes_writeText value).toQuoted
  numberless := .text _
  visited := visits.text (quotes_writeText value)

/-- A list is written as the list of its written elements. -/
theorem writesAs_list (writes : library.WritesValues) (visits : library.VisitsValues)
    {item : Shape Item} {values : List Item} {trees : List Tree}
    (items : List.Forall₂ (library.WritesAs item) values trees) :
    library.WritesAs (.list item) values (.list trees) where
  written := by
    rw [writes.list]
    apply writes_list
    rw [List.forall₂_map_left_iff]
    exact items.imp fun _ _ each => each.written.bare
  numberless := by
    refine .list ?_
    induction items with
    | nil => exact List.forall_mem_nil _
    | cons first _ ih => exact List.forall_mem_cons.mpr ⟨first.numberless, ih⟩
  visited := visit_list visits (items.imp fun _ _ each => each.visited)

/-- An absent value is written as null. -/
theorem writesAs_absent (writes : library.WritesValues) (visits : library.VisitsValues)
    (value : Shape Value) : library.WritesAs (.optional value) none .null where
  written := by
    rw [writes.absent]
    exact .null
  numberless := .null
  visited := visits.absent value

/-- A present value is written as itself. -/
theorem writesAs_present (writes : library.WritesValues) (visits : library.VisitsValues)
    {value : Shape Value} {content : Value} {tree : Tree} (notNull : tree ≠ .null)
    (inside : library.WritesAs value content tree) :
    library.WritesAs (.optional value) (some content) tree where
  written := by
    rw [writes.present]
    exact inside.written
  numberless := inside.numberless
  visited := by
    rw [visits.present value notNull, inside.visited]
    rfl

/-- A variant is written by its name. -/
theorem writesAs_choice (writes : library.WritesValues) (visits : library.VisitsValues)
    {enumeration : Enumeration Choice} {variant : Choice}
    (named : enumeration.variant? library.rename
      (library.rename enumeration.rule (enumeration.identifier variant)) = some variant) :
    library.WritesAs (.choice enumeration) variant
      (.text (writeText (library.rename enumeration.rule (enumeration.identifier variant)))) where
  written := by
    rw [writes.choice]
    exact .text (quotes_writeText _).toQuoted
  numberless := .text _
  visited := visits.choice enumeration (quotes_writeText _) named

variable {Record Field : Type} [DecidableEq Field] {Content : Field → Type}
  {declaration : Declaration Record Field Content}
  {contents : (field : Field) → Shape (Content field)}

/-- The members of a written record, under the names of their fields. -/
def written (library : Library) (declaration : Declaration Record Field Content)
    (trees : Field → Tree) : List (List Char × Tree) :=
  declaration.fields.map fun field =>
    (writeText (library.rename declaration.rule (declaration.identifier field)), trees field)

/-- A record whose fields have names of their own is written as it is read. -/
theorem writesAs_record (writes : library.WritesRecord declaration contents)
    (visits : library.VisitsMembers declaration contents) {record : Record} {trees : Field → Tree}
    (whole : ∀ field, field ∈ declaration.fields) (once : declaration.fields.Nodup)
    (named : ∀ field, declaration.field? library.rename
      (library.rename declaration.rule (declaration.identifier field)) = some field)
    (made : declaration.make (declaration.content record) = record)
    (fields : ∀ field, library.WritesAs (.optional (contents field))
      (declaration.content record field) (trees field)) :
    library.WritesAs (.record declaration contents) record
      (.object (library.written declaration trees)) where
  written := by
    rw [writes.object]
    apply writes_object
    rw [written, List.forall₂_map_left_iff, List.forall₂_map_right_iff, List.forall₂_same]
    intro field _
    exact .member .nil (quotes_writeText _).toQuoted .nil (fields field).written.bare
  numberless := by
    refine .object fun member listed => ?_
    obtain ⟨field, _, rfl⟩ := List.mem_map.mp listed
    exact (fields field).numberless
  visited := by
    let members : List (Member Content) :=
      declaration.fields.map fun field => .known field (declaration.content record field)
    have stand : List.Forall₂ (library.Stands declaration contents) members
        (library.written declaration trees) := by
      rw [written, List.forall₂_map_left_iff, List.forall₂_map_right_iff, List.forall₂_same]
      intro field _
      exact .known (quotes_writeText _) (named field) (fields field).visited
    have listed : Member.fields members = declaration.fields := by
      rw [Member.fields, List.filterMap_map]
      exact List.filterMap_some
    have onceToo : (Member.fields members).Nodup := listed ▸ once
    rw [(visit_object visits stand).1 onceToo, Declaration.complete]
    have same : (fun field => (members.foldl Draft.take Draft.empty field).join) =
        declaration.content record := by
      funext field
      have member : .known field (declaration.content record field) ∈ members :=
        List.mem_map.mpr ⟨field, whole field, rfl⟩
      rw [Draft.foldl_take_of_mem _ onceToo member]
      rfl
    rw [same, made]

end Library

end Lexicon.Json
