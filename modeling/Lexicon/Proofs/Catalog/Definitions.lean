import Lexicon.Proofs.Catalog.Entries
import Lexicon.Proofs.Keyword.Grammar
import Lexicon.Registry

/-! A catalog holds the definitions that it took, and those that it refused leave it as it was. -/

namespace Lexicon

variable {Hook : Type}

/-- A plain token type brings its own name and label, and a keyword has those of its spelling. -/
inductive Definition where
  | plain (name label : String) (attributes : Attributes)
  | keyword (spelling : String) (attributes : Attributes)
  deriving DecidableEq, Repr

namespace Definition

def name : Definition → String
  | .plain name _ _ => name
  | .keyword spelling _ => Keyword.name spelling

def label : Definition → String
  | .plain _ label _ => label
  | .keyword spelling _ => spelling

def spelling? : Definition → Option String
  | .plain .. => none
  | .keyword spelling _ => some spelling

def attributes : Definition → Attributes
  | .plain _ _ attributes => attributes
  | .keyword _ attributes => attributes

/-- The descriptor that the definition gets with its handle. -/
def descriptor (definition : Definition) (handle : Handle) : Descriptor Hook :=
  ⟨handle, definition.label, definition.spelling?, definition.attributes, none⟩

def entry (definition : Definition) (position : Nat) : Entry Hook :=
  (definition.name, definition.descriptor (.ofPosition position))

def ofKind (kind : Kind) : Definition := .plain kind.name kind.label kind.attributes

/-- Every catalog defines the kinds first. -/
def afterKinds (definitions : List Definition) : List Definition :=
  Kind.all.map ofKind ++ definitions

/-- A definition with a spelling is the keyword of this spelling. -/
theorem eq_keyword_of_spelling? {definition : Definition} {spelling : String}
    (own : definition.spelling? = some spelling) :
    definition = .keyword spelling definition.attributes := by
  cases definition with
  | plain name label attributes => cases own
  | keyword word attributes =>
      cases own
      rfl

/-- The place of a definition is its handle. -/
def entries (definitions : List Definition) : List (Entry Hook) :=
  (afterKinds definitions).mapIdx fun position definition => definition.entry position

/-- A catalog takes only such definitions after the kinds, beside which stands the right-associative
operator. -/
structure Acceptable (definition : Definition) : Prop where
  consistent : definition.attributes.Consistent definition.spelling?.isSome true
  spelled : ∀ spelling, definition.spelling? = some spelling → Keyword.isSpelling spelling = true

/-- Each definition of a catalog is sound at its place. Exponentiation alone is right-associative. -/
structure SoundAt (definition : Definition) (position : Nat) : Prop where
  consistent : definition.attributes.Consistent definition.spelling?.isSome false
  right : definition.attributes.has .rightAssociative = true ↔ position = Kind.exponent.position
  spelled : ∀ spelling, definition.spelling? = some spelling → Keyword.isSpelling spelling = true

/-- The kinds come to forty entries. -/
theorem length_entries (definitions : List Definition) :
    (entries definitions : List (Entry Hook)).length = 40 + definitions.length := by
  rw [entries, List.length_mapIdx, afterKinds, List.length_append, List.length_map]
  rfl

/-- Without a definition there are the kinds alone. -/
theorem entries_nil : (entries [] : List (Entry Hook)) = Kind.all.map Kind.entry := by
  have placed : Kind.all.zipIdx = Kind.all.map fun kind => (kind, kind.position) := by
    decide +kernel
  rw [entries, afterKinds, List.append_nil, List.mapIdx_eq_zipIdx_map, List.zipIdx_map, placed,
    List.map_map, List.map_map]
  rfl

/-- A further definition has its entry at the end. -/
theorem entries_concat (definitions : List Definition) (definition : Definition) :
    (entries (definitions ++ [definition]) : List (Entry Hook)) =
      entries definitions ++ [definition.entry (40 + definitions.length)] := by
  have length : (afterKinds definitions).length = 40 + definitions.length := by
    rw [← @length_entries Hook, entries, List.length_mapIdx]
  rw [entries, afterKinds, ← List.append_assoc, List.mapIdx_concat]
  rw [afterKinds] at length
  rw [length]
  rfl

/-- The first forty entries are those of the kinds. -/
theorem take_entries (definitions : List Definition) :
    (entries definitions : List (Entry Hook)).take 40 = Kind.all.map Kind.entry := by
  have kinds := @entries_nil Hook
  rw [entries, afterKinds, List.append_nil] at kinds
  rw [entries, afterKinds, List.mapIdx_append, kinds]
  exact List.take_left' rfl

/-- The entry at a position is that of the definition there. -/
theorem getElem?_entries (definitions : List Definition) (position : Nat) :
    (entries definitions : List (Entry Hook))[position]? =
      (afterKinds definitions)[position]?.map fun definition => definition.entry position :=
  List.getElem?_mapIdx

/-- Below forty stand the kinds, and from forty on the definitions in their order. -/
theorem getElem?_afterKinds_eq_some_iff {definitions : List Definition} {position : Nat}
    {definition : Definition} :
    (afterKinds definitions)[position]? = some definition ↔
      (∃ kind : Kind, position = kind.position ∧ ofKind kind = definition) ∨
        ∃ index, position = 40 + index ∧ definitions[index]? = some definition :=
  Kind.getElem?_map_all_append_eq_some_iff

/-- The kinds are sound at their positions. -/
theorem ofKind_soundAt (kind : Kind) : (ofKind kind).SoundAt kind.position where
  consistent := by
    apply (Attributes.fault?_eq_none_iff _ _ _).mp
    cases kind <;> rfl
  right := by
    cases kind <;> decide
  spelled := nofun

/-- No definition after the kinds is right-associative. -/
theorem Acceptable.soundAt {definition : Definition} (acceptable : definition.Acceptable)
    {position : Nat} (after : 40 ≤ position) : definition.SoundAt position where
  consistent := { acceptable.consistent with alone := fun _ => rfl }
  right := by
    constructor
    · intro right
      cases acceptable.consistent.alone right
    · intro place
      have before := Kind.exponent.position_lt
      omega
  spelled := acceptable.spelled

end Definition

namespace Catalog

/-- The catalog knows exponentiation as its right-associative operator. -/
structure Holds (catalog : Catalog Hook) (definitions : List Definition) : Prop where
  represents : catalog.Represents (Definition.entries definitions)
  rightAssociative : catalog.rightAssociative = some Kind.exponent.handle
  acceptable : ∀ definition ∈ definitions, definition.Acceptable

/-- A new catalog holds no definition. -/
theorem new_holds : (new Hook).Holds [] where
  represents := Definition.entries_nil ▸ new_represents
  rightAssociative := rightAssociative_new
  acceptable := nofun

/-- A definition fails and changes nothing, or nothing is objected to it and it is appended. -/
theorem define_cases (catalog : Catalog Hook) (name label : String) (keyword : Option String)
    (attributes : Attributes) :
    (∃ error events, catalog.define name label keyword attributes =
      (catalog, ⟨.error error, events⟩)) ∨
    (catalog.objection? name keyword attributes = none ∧ catalog.size < capacity ∧
      catalog.define name label keyword attributes =
        (catalog.append name label keyword attributes,
          .success (.ofPosition catalog.size) (.defined name label (.ofPosition catalog.size)))) := by
  cases objection : catalog.objection? name keyword attributes with
  | some error => exact .inl ⟨error, _, define_of_objection objection label⟩
  | none =>
      rcases Nat.lt_or_ge catalog.size capacity with room | full
      · exact .inr ⟨rfl, room, define_of_room objection room label⟩
      · exact .inl ⟨_, _, define_of_full objection full label⟩

namespace Holds

variable {catalog : Catalog Hook} {definitions : List Definition}

/-- The size counts the kinds and the definitions. -/
theorem size_eq (holds : catalog.Holds definitions) : catalog.size = 40 + definitions.length := by
  rw [holds.represents.size_eq, Definition.length_entries]

/-- The descriptors are those of the definitions under their handles. -/
theorem descriptor?_eq (holds : catalog.Holds definitions) (handle : Handle) :
    catalog.descriptor? handle =
      (Definition.afterKinds definitions)[handle.position]?.map (·.descriptor handle) := by
  rw [holds.represents.descriptor?_eq, Definition.getElem?_entries, Option.map_map]
  simp only [Function.comp_def, Definition.entry, Handle.ofPosition_position]

/-- A descriptor carries the handle that finds it. -/
theorem handle_of_descriptor? (holds : catalog.Holds definitions) {handle : Handle}
    {descriptor : Descriptor Hook} (found : catalog.descriptor? handle = some descriptor) :
    descriptor.handle = handle := by
  rw [holds.descriptor?_eq, Option.map_eq_some_iff] at found
  obtain ⟨definition, _, rfl⟩ := found
  rfl

/-- The name of a handle is that of the definition at its position. -/
theorem name?_eq (holds : catalog.Holds definitions) (handle : Handle) :
    catalog.name? handle =
      (Definition.afterKinds definitions)[handle.position]?.map Definition.name := by
  rw [holds.represents.name?_eq, Definition.getElem?_entries, Option.map_map]
  rfl

/-- Every definition that a catalog holds is sound at its position. -/
theorem soundAt (holds : catalog.Holds definitions) {position : Nat} {definition : Definition}
    (stands : (Definition.afterKinds definitions)[position]? = some definition) :
    definition.SoundAt position := by
  rcases Definition.getElem?_afterKinds_eq_some_iff.mp stands with
    ⟨kind, rfl, rfl⟩ | ⟨index, rfl, member⟩
  · exact Definition.ofKind_soundAt kind
  · exact (holds.acceptable definition (List.mem_of_getElem? member)).soundAt
      (Nat.le_add_right 40 index)

/-- A definition without objection goes to the end of the list while there is room. -/
theorem append (holds : catalog.Holds definitions) (definition : Definition)
    (accepted : catalog.objection? definition.name definition.spelling? definition.attributes = none)
    (room : catalog.size < capacity)
    (spelled : ∀ spelling, definition.spelling? = some spelling →
      Keyword.isSpelling spelling = true) :
    (catalog.append definition.name definition.label definition.spelling?
      definition.attributes).Holds (definitions ++ [definition]) := by
  have taken : catalog.rightAssociative.isSome = true := by
    rw [holds.rightAssociative, Option.isSome_some]
  have consistent := (objection?_eq_none_iff.mp accepted).2
  rw [taken] at consistent
  refine ⟨?_, ?_, ?_⟩
  · have appended := holds.represents.append_of_accepted accepted room definition.label
    rw [holds.size_eq] at appended
    rw [Definition.entries_concat]
    exact appended
  · rw [rightAssociative_append (left_of_accepted accepted taken)]
    exact holds.rightAssociative
  · exact List.forall_mem_append.mpr
      ⟨holds.acceptable, List.forall_mem_singleton.mpr ⟨consistent, spelled⟩⟩

end Holds

end Catalog

namespace Registry

/-- A registration fails and changes nothing, or the word is fit and fresh, nothing is objected to its
definition, and both tables take it under one handle. -/
theorem register_cases (registry : Registry Hook) (spelling : String) (attributes : Attributes) :
    (∃ error events, registry.register spelling attributes =
      (registry, ⟨.error error, events⟩)) ∨
    (Keyword.isSpelling spelling = true ∧
      ∃ fresh : registry.keywords.contains spelling = false,
      registry.catalog.objection? (Keyword.name spelling) (some spelling) attributes = none ∧
      registry.catalog.size < Catalog.capacity ∧ ∃ events,
      registry.register spelling attributes =
        (⟨registry.catalog.append (Keyword.name spelling) spelling (some spelling) attributes,
          registry.keywords.insert spelling (.ofPosition registry.catalog.size) fresh⟩,
          ⟨.ok (.ofPosition registry.catalog.size), events⟩)) := by
  cases valid : Keyword.isSpelling spelling with
  | false => exact .inl ⟨_, _, register_of_not_isSpelling valid registry attributes⟩
  | true =>
      rcases Bool.eq_false_or_eq_true (registry.keywords.contains spelling) with taken | fresh
      · exact .inl ⟨_, _, register_of_contains valid taken attributes⟩
      · rcases registry.catalog.define_cases (Keyword.name spelling) spelling (some spelling)
          attributes with ⟨error, events, refused⟩ | ⟨accepted, room, defined⟩
        · exact .inl ⟨error, events, register_of_define_error valid fresh refused⟩
        · exact .inr ⟨rfl, fresh, accepted, room, _, register_of_define_ok valid fresh defined⟩

end Registry

end Lexicon
