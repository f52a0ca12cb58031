import Lexicon.Proofs.Catalog.Definitions

/-! A call is refused for the first thing that speaks against its definition. -/

namespace Lexicon

variable {Hook : Type}

/-- A call defines a token type, a binary operator or a keyword. -/
inductive Call where
  | defineToken (name label : String) (attributes : Attributes)
  | defineBinary (name label : String) (level : UInt8)
  | register (spelling : String) (attributes : Attributes)
  deriving DecidableEq, Repr

/-- What the call asks for. -/
def Call.definition : Call → Definition
  | .defineToken name label attributes => .plain name label attributes
  | .defineBinary name label level => .plain name label (.binary level)
  | .register spelling attributes => .keyword spelling attributes

/-- The events that go with an error. Nothing tells of a bad spelling or a full catalog. -/
def TableError.warnings : TableError → Array Event
  | .duplicateName name => #[.rejected name (.duplicateName name)]
  | .invalidLevel name level => #[.rejected name (.invalidLevel name level)]
  | .inconsistentFlags name reason => #[.rejected name (.inconsistentFlags name reason)]
  | .duplicateKeyword spelling => #[.repeated spelling]
  | .invalidKeyword _ | .tooManyTokens _ | .hookAttached _ => #[]

/-- The events of an accepted definition, which is a keyword if it has a spelling. -/
def Definition.events (handle : Handle) : Definition → Array Event
  | .plain name label _ => #[.defined name label handle]
  | .keyword spelling _ =>
      #[.defined (Keyword.name spelling) spelling handle, .registered spelling handle]

/-- A spelling has to be one word that is new to the index. -/
def KeywordIndex.refusal? (index : KeywordIndex) (spelling : String) : Option TableError :=
  if Keyword.isSpelling spelling = false then some (.invalidKeyword spelling)
  else if index.contains spelling = true then some (.duplicateKeyword spelling)
  else none

namespace KeywordIndex

/-- An index takes a fresh and valid spelling. -/
theorem refusal?_eq_none_iff (index : KeywordIndex) (spelling : String) :
    index.refusal? spelling = none ↔
      Keyword.isSpelling spelling = true ∧ index.contains spelling = false := by
  rw [refusal?]
  cases Keyword.isSpelling spelling <;> cases index.contains spelling <;> simp

end KeywordIndex

namespace Catalog

/-- After its objections a catalog refuses for want of room. -/
def refusal? (catalog : Catalog Hook) (definition : Definition) : Option TableError :=
  (catalog.objection? definition.name definition.spelling? definition.attributes).or
    (if capacity ≤ catalog.size then some (.tooManyTokens definition.name) else none)

theorem refusal?_eq_none_iff (catalog : Catalog Hook) (definition : Definition) :
    catalog.refusal? definition = none ↔
      catalog.objection? definition.name definition.spelling? definition.attributes = none ∧
        catalog.size < capacity := by
  rw [refusal?, Option.or_eq_none_iff]
  refine and_congr_right fun _ => ?_
  rw [← Nat.not_le]
  split <;> simp_all

/-- An objection is warned of under the name of the definition. -/
theorem warnings_of_objection {catalog : Catalog Hook} {name : String} {keyword : Option String}
    {attributes : Attributes} {error : TableError}
    (rejected : catalog.objection? name keyword attributes = some error) :
    error.warnings = #[.rejected name error] := by
  rw [objection?] at rejected
  split at rejected
  · cases rejected
    rfl
  · obtain ⟨fault, _, rfl⟩ := Option.map_eq_some_iff.mp rejected
    cases fault <;> rfl

/-- A refused definition is warned of. -/
theorem define_of_refusal {catalog : Catalog Hook} {definition : Definition} {error : TableError}
    (refused : catalog.refusal? definition = some error) :
    catalog.define definition.name definition.label definition.spelling? definition.attributes =
      (catalog, ⟨.error error, error.warnings⟩) := by
  rw [refusal?] at refused
  cases objection : catalog.objection? definition.name definition.spelling?
      definition.attributes with
  | some own =>
      rw [objection, Option.some_or] at refused
      cases refused
      rw [define_of_objection objection, warnings_of_objection objection]
      rfl
  | none =>
      rw [objection, Option.none_or] at refused
      split at refused
      · rename_i full
        cases refused
        exact define_of_full objection full definition.label
      · cases refused

/-- A definition that is not refused goes to the end of the catalog. -/
theorem define_of_no_refusal {catalog : Catalog Hook} {definition : Definition}
    (accepted : catalog.refusal? definition = none) :
    catalog.define definition.name definition.label definition.spelling? definition.attributes =
      (catalog.append definition.name definition.label definition.spelling? definition.attributes,
        .success (.ofPosition catalog.size)
          (.defined definition.name definition.label (.ofPosition catalog.size))) := by
  obtain ⟨unobjected, room⟩ := (catalog.refusal?_eq_none_iff definition).mp accepted
  exact define_of_room unobjected room definition.label

end Catalog

namespace Registry

/-- The index speaks before the catalog. -/
def refusal? (registry : Registry Hook) (definition : Definition) : Option TableError :=
  (definition.spelling?.bind registry.keywords.refusal?).or (registry.catalog.refusal? definition)

/-- The catalog takes the definition, and the index takes the spelling of a keyword. -/
def accept (registry : Registry Hook) (definition : Definition) : Registry Hook where
  catalog := registry.catalog.append definition.name definition.label definition.spelling?
    definition.attributes
  keywords :=
    match definition.spelling? with
    | none => registry.keywords
    | some spelling =>
        if fresh : registry.keywords.contains spelling = false then
          registry.keywords.insert spelling (.ofPosition registry.catalog.size) fresh
        else registry.keywords

/-- An accepted keyword goes to the end of both tables. -/
theorem accept_keyword {registry : Registry Hook} {spelling : String}
    (fresh : registry.keywords.contains spelling = false) (attributes : Attributes) :
    registry.accept (.keyword spelling attributes) =
      ⟨registry.catalog.append (Keyword.name spelling) spelling (some spelling) attributes,
        registry.keywords.insert spelling (.ofPosition registry.catalog.size) fresh⟩ :=
  congrArg (Registry.mk _) (dif_pos fresh)

/-- The tables and the report that a definition leads to. -/
def outcome (registry : Registry Hook) (definition : Definition) : Registry Hook × Report Handle :=
  match registry.refusal? definition with
  | some error => (registry, ⟨.error error, error.warnings⟩)
  | none =>
      let handle := Handle.ofPosition registry.catalog.size
      (registry.accept definition, ⟨.ok handle, definition.events handle⟩)

/-- A definition goes to the catalog alone and a registration to both tables. -/
def call (registry : Registry Hook) : Call → Registry Hook × Report Handle
  | .defineToken name label attributes =>
      let (catalog, report) := registry.catalog.defineToken name label attributes
      (⟨catalog, registry.keywords⟩, report)
  | .defineBinary name label level =>
      let (catalog, report) := registry.catalog.defineBinary name label level
      (⟨catalog, registry.keywords⟩, report)
  | .register spelling attributes => registry.register spelling attributes

/-- A refused call changes nothing and warns of its error. -/
theorem outcome_of_refusal {registry : Registry Hook} {definition : Definition} {error : TableError}
    (refused : registry.refusal? definition = some error) :
    registry.outcome definition = (registry, ⟨.error error, error.warnings⟩) := by
  rw [outcome, refused]

/-- A call that is not refused is accepted under the next handle. -/
theorem outcome_of_no_refusal {registry : Registry Hook} {definition : Definition}
    (accepted : registry.refusal? definition = none) :
    registry.outcome definition = (registry.accept definition,
      ⟨.ok (.ofPosition registry.catalog.size),
        definition.events (.ofPosition registry.catalog.size)⟩) := by
  rw [outcome, accepted]

theorem refusal?_eq_none_iff (registry : Registry Hook) (definition : Definition) :
    registry.refusal? definition = none ↔
      (∀ spelling, definition.spelling? = some spelling →
        Keyword.isSpelling spelling = true ∧ registry.keywords.contains spelling = false) ∧
      registry.catalog.objection? definition.name definition.spelling? definition.attributes =
        none ∧ registry.catalog.size < Catalog.capacity := by
  rw [refusal?, Option.or_eq_none_iff, Option.bind_eq_none_iff, Catalog.refusal?_eq_none_iff]
  simp only [KeywordIndex.refusal?_eq_none_iff]

section Accept

variable {registry : Registry Hook} {definition : Definition}

/-- An accepted name was new, so it goes to the end. -/
theorem names_accept (accepted : registry.refusal? definition = none) :
    (registry.accept definition).catalog.names.toList = registry.catalog.names.toList ++
      [(definition.name, .ofPosition registry.catalog.size)] := by
  obtain ⟨_, unobjected, _⟩ := (registry.refusal?_eq_none_iff definition).mp accepted
  have fresh := (Catalog.objection?_eq_none_iff.mp unobjected).1
  exact (OrderedMap.tryInsert_of_not_contains fresh _).2

/-- An accepted definition adds one descriptor. -/
theorem descriptors_accept (registry : Registry Hook) (definition : Definition) :
    (registry.accept definition).catalog.descriptors.toList =
      registry.catalog.descriptors.toList ++
        [definition.descriptor (.ofPosition registry.catalog.size)] :=
  Array.toList_push

/-- The spelling of a keyword goes to the end of the index. -/
theorem keywords_accept (accepted : registry.refusal? definition = none) :
    (registry.accept definition).keywords.toList = registry.keywords.toList ++
      (definition.spelling?.map fun spelling =>
        (spelling, Handle.ofPosition registry.catalog.size)).toList := by
  obtain ⟨spelled, _, _⟩ := (registry.refusal?_eq_none_iff definition).mp accepted
  cases definition with
  | plain name label attributes => exact (List.append_nil _).symm
  | keyword spelling attributes =>
      have fresh := (spelled spelling rfl).2
      rw [accept_keyword fresh attributes]
      exact KeywordIndex.toList_insert fresh _

end Accept

theorem refusal?_plain (registry : Registry Hook) (name label : String) (attributes : Attributes) :
    registry.refusal? (.plain name label attributes) =
      registry.catalog.refusal? (.plain name label attributes) := rfl

theorem refusal?_keyword (registry : Registry Hook) (spelling : String) (attributes : Attributes) :
    registry.refusal? (.keyword spelling attributes) =
      (registry.keywords.refusal? spelling).or
        (registry.catalog.refusal? (.keyword spelling attributes)) := rfl

/-- A plain definition leaves the index as it is. -/
theorem defineToken_eq_outcome (registry : Registry Hook) (name label : String)
    (attributes : Attributes) :
    (⟨(registry.catalog.defineToken name label attributes).1, registry.keywords⟩,
      (registry.catalog.defineToken name label attributes).2) =
        registry.outcome (.plain name label attributes) := by
  have judged := registry.refusal?_plain name label attributes
  cases refused : registry.catalog.refusal? (.plain name label attributes) with
  | some error =>
      have defined : registry.catalog.defineToken name label attributes = _ :=
        Catalog.define_of_refusal refused
      rw [defined, outcome_of_refusal (judged.trans refused)]
  | none =>
      have defined : registry.catalog.defineToken name label attributes = _ :=
        Catalog.define_of_no_refusal refused
      rw [defined, outcome_of_no_refusal (judged.trans refused)]
      rfl

/-- A registration is the call for its keyword. -/
theorem register_eq_outcome (registry : Registry Hook) (spelling : String) (attributes : Attributes)
    :
    registry.register spelling attributes = registry.outcome (.keyword spelling attributes) := by
  cases misspelled : registry.keywords.refusal? spelling with
  | some error =>
      have refused : registry.refusal? (.keyword spelling attributes) = some error := by
        rw [refusal?_keyword, misspelled, Option.some_or]
      rw [outcome_of_refusal refused]
      rw [KeywordIndex.refusal?] at misspelled
      split at misspelled
      · rename_i invalid
        cases misspelled
        exact register_of_not_isSpelling invalid registry attributes
      rename_i valid
      rw [Bool.not_eq_false] at valid
      split at misspelled
      · rename_i taken
        cases misspelled
        exact register_of_contains valid taken attributes
      · cases misspelled
  | none =>
      obtain ⟨valid, fresh⟩ := (registry.keywords.refusal?_eq_none_iff spelling).mp misspelled
      have judged : registry.refusal? (.keyword spelling attributes) =
          registry.catalog.refusal? (.keyword spelling attributes) := by
        rw [refusal?_keyword, misspelled, Option.none_or]
      cases refused : registry.catalog.refusal? (.keyword spelling attributes) with
      | some error =>
          rw [outcome_of_refusal (judged.trans refused)]
          exact register_of_define_error valid fresh (Catalog.define_of_refusal refused)
      | none =>
          rw [outcome_of_no_refusal (judged.trans refused)]
          rw [accept_keyword fresh attributes]
          exact register_of_define_ok valid fresh (Catalog.define_of_no_refusal refused)

/-- A call comes out as its definition does. -/
theorem call_eq_outcome (registry : Registry Hook) (call : Call) :
    registry.call call = registry.outcome call.definition := by
  cases call with
  | defineToken name label attributes => exact registry.defineToken_eq_outcome name label attributes
  | defineBinary name label level =>
      exact registry.defineToken_eq_outcome name label (.binary level)
  | register spelling attributes => exact registry.register_eq_outcome spelling attributes

/-- A call that fails leaves nothing but its error and the warnings of it. -/
theorem call_of_error {registry : Registry Hook} {call : Call} {error : TableError}
    (failed : (registry.call call).2.result = .error error) :
    registry.refusal? call.definition = some error ∧
      registry.call call = (registry, ⟨.error error, error.warnings⟩) := by
  rw [call_eq_outcome] at failed ⊢
  cases refused : registry.refusal? call.definition with
  | some own =>
      rw [outcome_of_refusal refused] at failed
      cases failed
      exact ⟨rfl, outcome_of_refusal refused⟩
  | none =>
      rw [outcome_of_no_refusal refused] at failed
      cases failed

/-- A call that succeeds has its definition accepted under the next handle. -/
theorem call_of_ok {registry : Registry Hook} {call : Call} {handle : Handle}
    (succeeded : (registry.call call).2.result = .ok handle) :
    registry.refusal? call.definition = none ∧ handle = .ofPosition registry.catalog.size ∧
      registry.call call =
        (registry.accept call.definition, ⟨.ok handle, call.definition.events handle⟩) := by
  rw [call_eq_outcome] at succeeded ⊢
  cases refused : registry.refusal? call.definition with
  | some own =>
      rw [outcome_of_refusal refused] at succeeded
      cases succeeded
  | none =>
      rw [outcome_of_no_refusal refused] at succeeded
      cases succeeded
      exact ⟨rfl, rfl, outcome_of_no_refusal refused⟩

/-- A registration that fails changes nothing. -/
theorem register_of_error {registry : Registry Hook} {spelling : String} {attributes : Attributes}
    {error : TableError} (failed : (registry.register spelling attributes).2.result = .error error) :
    registry.register spelling attributes = (registry, ⟨.error error, error.warnings⟩) :=
  (@call_of_error Hook registry (.register spelling attributes) error failed).2

/-- A registration that succeeds accepts its keyword. -/
theorem register_of_ok {registry : Registry Hook} {spelling : String} {attributes : Attributes}
    {handle : Handle} (succeeded : (registry.register spelling attributes).2.result = .ok handle) :
    registry.register spelling attributes =
      (registry.accept (.keyword spelling attributes),
        ⟨.ok handle, (Definition.keyword spelling attributes).events handle⟩) :=
  (@call_of_ok Hook registry (.register spelling attributes) handle succeeded).2.2

end Registry

end Lexicon
