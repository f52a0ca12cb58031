import Lexicon.Catalog.Basic
import Lexicon.Keyword.Grammar
import Lexicon.Keyword.Index
import Lexicon.Options.Basic

/-! A registry pairs a catalog with the index of its reserved words. -/

namespace Lexicon

/-- The two tables that the scanner and the parser look things up in. -/
structure Registry (Hook : Type) where
  catalog : Catalog Hook
  keywords : KeywordIndex
  deriving Inhabited

namespace Registry

variable {Hook : Type}

/-- A new registry holds the kinds and no keyword. -/
def new (Hook : Type) : Registry Hook := ⟨.new Hook, .empty⟩

/-- The spelling is checked first, then the index and then the catalog. -/
def register (registry : Registry Hook) (spelling : String) (attributes : Attributes) :
    Registry Hook × Report Handle :=
  if !Keyword.isSpelling spelling then (registry, .silent (.invalidKeyword spelling))
  else
    let ⟨catalog, keywords⟩ := registry
    if taken : keywords.contains spelling then
      (⟨catalog, keywords⟩, .failure (.duplicateKeyword spelling) (.repeated spelling))
    else
      match catalog.define (Keyword.name spelling) spelling (some spelling) attributes with
      | (catalog, ⟨.ok handle, events⟩) =>
          (⟨catalog, keywords.insert spelling handle (Bool.eq_false_iff.mpr taken)⟩,
            ⟨.ok handle, events.push (.registered spelling handle)⟩)
      | (catalog, ⟨.error error, events⟩) => (⟨catalog, keywords⟩, ⟨.error error, events⟩)

/-- A bad spelling is refused without an event. -/
theorem register_of_not_isSpelling {spelling : String}
    (invalid : Keyword.isSpelling spelling = false) (registry : Registry Hook)
    (attributes : Attributes) :
    registry.register spelling attributes = (registry, .silent (.invalidKeyword spelling)) := by
  simp [register, invalid]

/-- A known spelling is refused as repeated. -/
theorem register_of_contains {registry : Registry Hook} {spelling : String}
    (valid : Keyword.isSpelling spelling = true)
    (taken : registry.keywords.contains spelling = true) (attributes : Attributes) :
    registry.register spelling attributes =
      (registry, .failure (.duplicateKeyword spelling) (.repeated spelling)) := by
  simp [register, valid, taken]

/-- A rejected definition leaves the index as it was too. -/
theorem register_of_define_error {registry : Registry Hook} {spelling : String}
    {attributes : Attributes} {catalog : Catalog Hook} {error : TableError} {events : Array Event}
    (valid : Keyword.isSpelling spelling = true)
    (fresh : registry.keywords.contains spelling = false)
    (rejected : registry.catalog.define (Keyword.name spelling) spelling (some spelling) attributes =
      (catalog, ⟨.error error, events⟩)) :
    registry.register spelling attributes =
      (⟨catalog, registry.keywords⟩, ⟨.error error, events⟩) := by
  simp [register, valid, fresh, rejected]

/-- A definition that succeeds is indexed under its handle. -/
theorem register_of_define_ok {registry : Registry Hook} {spelling : String}
    {attributes : Attributes} {catalog : Catalog Hook} {handle : Handle} {events : Array Event}
    (valid : Keyword.isSpelling spelling = true)
    (fresh : registry.keywords.contains spelling = false)
    (defined : registry.catalog.define (Keyword.name spelling) spelling (some spelling) attributes =
      (catalog, ⟨.ok handle, events⟩)) :
    registry.register spelling attributes =
      (⟨catalog, registry.keywords.insert spelling handle fresh⟩,
        ⟨.ok handle, events.push (.registered spelling handle)⟩) := by
  simp [register, valid, fresh, defined]

/-- The words are registered in order with the attributes of the grammar, and the first fault ends
the build. -/
def registerAll (registry : Registry Hook) (events : Array Event) :
    List String → Report (Registry Hook)
  | [] =>
      ⟨.ok registry, events.push (.finished registry.catalog.size registry.keywords.size)⟩
  | word :: words =>
      match registry.register word (Keyword.attributes word) with
      | (next, ⟨.ok _, more⟩) => next.registerAll (events ++ more) words
      | (_, ⟨.error error, more⟩) => ⟨.error error, events ++ more⟩

/-- Building starts from a new registry, so the definitions of the kinds come first. -/
def ofWords (Hook : Type) (words : List String) : Report (Registry Hook) :=
  (new Hook).registerAll (Catalog.newEvents Hook) words

def ofOptions (Hook : Type) (options : Options) : Report (Registry Hook) :=
  ofWords Hook options.wordList

/-- The registry of the default options, whose words have no fault. -/
def standard (Hook : Type) : Registry Hook :=
  (ofOptions Hook .default).result.toOption.getD (new Hook)

/-- A word has a handle when it is reserved. -/
def keyword? (registry : Registry Hook) (word : String) : Option Handle :=
  registry.keywords.get? word

def isKeyword (registry : Registry Hook) (word : String) : Bool := registry.keywords.contains word

def handle? (registry : Registry Hook) (name : String) : Option Handle :=
  registry.catalog.handle? name

def descriptor? (registry : Registry Hook) (handle : Handle) : Option (Descriptor Hook) :=
  registry.catalog.descriptor? handle

/-- A punctuator stands before a keyword of the same spelling. -/
def wordHandle? (registry : Registry Hook) (word : String) : Option Handle :=
  match Kind.ofPunctuator? word with
  | some kind => some kind.handle
  | none => registry.keyword? word

/-- A slash starts a regular expression at the start of input and after a token that an expression
may follow. -/
def slashStartsRegex (registry : Registry Hook) : Option Handle → Bool
  | none => true
  | some previous =>
      match registry.descriptor? previous with
      | some descriptor => descriptor.has .beforeExpr
      | none => false

end Registry

end Lexicon
