import Lexicon.Catalog.Report
import Lexicon.OrderedMap
import Lexicon.Token.Kind

/-! A catalog holds a descriptor for each token type under a symbolic name. -/

namespace Lexicon

/-- The names and the descriptors stand in the same order, and a handle is a place in both. -/
structure Catalog (Hook : Type) where
  names : OrderedMap String Handle
  descriptors : Array (Descriptor Hook)
  /-- The right-associative operator, of which a catalog holds at most one. -/
  rightAssociative : Option Handle

/-- An index is out of bounds when it is not below the size. -/
structure OutOfBounds where
  size : Nat
  index : Nat
  deriving DecidableEq, Repr

def OutOfBounds.message (bounds : OutOfBounds) : String :=
  "index out of bounds: the len is " ++ toString bounds.size ++ " but the index is " ++
    toString bounds.index

namespace Catalog

variable {Hook : Type}

/-- A handle has sixteen bits, so a catalog holds no more token types than this. -/
def capacity : Nat := 65536

def empty : Catalog Hook := ⟨.empty, #[], none⟩

def size (catalog : Catalog Hook) : Nat := catalog.descriptors.size

def isEmpty (catalog : Catalog Hook) : Bool := catalog.descriptors.isEmpty

/-- A taken name is rejected first and inconsistent attributes next. -/
def objection? (catalog : Catalog Hook) (name : String) (keyword : Option String)
    (attributes : Attributes) : Option TableError :=
  if catalog.names.contains name then some (.duplicateName name)
  else
    (attributes.fault? keyword.isSome catalog.rightAssociative.isSome).map (TableError.ofFault name)

/-- The new entry follows the others, and its hook slot is empty. -/
def append (catalog : Catalog Hook) (name label : String) (keyword : Option String)
    (attributes : Attributes) : Catalog Hook :=
  let handle := Handle.ofPosition catalog.size
  { names := (catalog.names.tryInsert name handle).2
    descriptors := catalog.descriptors.push ⟨handle, label, keyword, attributes, none⟩
    rightAssociative :=
      if attributes.has .rightAssociative then some handle else catalog.rightAssociative }

/-- What is checked is stored unless the catalog is full. The table of names has the last word on a
name, with no event. -/
def define (catalog : Catalog Hook) (name label : String) (keyword : Option String)
    (attributes : Attributes) : Catalog Hook × Report Handle :=
  match catalog.objection? name keyword attributes with
  | some error => (catalog, .failure error (.rejected name error))
  | none =>
      if catalog.size < capacity then
        let handle := Handle.ofPosition catalog.size
        let ⟨names, descriptors, rightAssociative⟩ := catalog
        match names.tryInsert name handle with
        | (.error _, names) =>
            (⟨names, descriptors, rightAssociative⟩, .silent (.duplicateName name))
        | (.ok _, names) =>
            (⟨names, descriptors.push ⟨handle, label, keyword, attributes, none⟩,
              if attributes.has .rightAssociative then some handle else rightAssociative⟩,
              .success handle (.defined name label handle))
      else (catalog, .silent (.tooManyTokens name))

/-- A name that nothing speaks against is fresh. -/
theorem not_contains_of_objection?_eq_none {catalog : Catalog Hook} {name : String}
    {keyword : Option String} {attributes : Attributes}
    (accepted : catalog.objection? name keyword attributes = none) :
    catalog.names.contains name = false := by
  rw [objection?] at accepted
  split at accepted
  · cases accepted
  · simp_all

/-- A rejected definition leaves the catalog as it was and emits one event. -/
theorem define_of_objection {catalog : Catalog Hook} {name : String} {keyword : Option String}
    {attributes : Attributes} {error : TableError}
    (rejected : catalog.objection? name keyword attributes = some error) (label : String) :
    catalog.define name label keyword attributes =
      (catalog, .failure error (.rejected name error)) := by
  simp [define, rejected]

/-- The table of names takes every name that was found to be new. -/
theorem define_of_room {catalog : Catalog Hook} {name : String} {keyword : Option String}
    {attributes : Attributes} (accepted : catalog.objection? name keyword attributes = none)
    (room : catalog.size < capacity) (label : String) :
    catalog.define name label keyword attributes =
      (catalog.append name label keyword attributes,
        .success (.ofPosition catalog.size) (.defined name label (.ofPosition catalog.size))) := by
  have fresh := not_contains_of_objection?_eq_none accepted
  obtain ⟨taken, _⟩ := OrderedMap.tryInsert_of_not_contains fresh (Handle.ofPosition catalog.size)
  simp only [define, accepted, if_pos room]
  split
  · rename_i refused
    rw [refused] at taken
    cases taken
  · rename_i inserted
    rw [append, inserted]

/-- A sound definition that finds the catalog full emits no event. -/
theorem define_of_full {catalog : Catalog Hook} {name : String} {keyword : Option String}
    {attributes : Attributes} (accepted : catalog.objection? name keyword attributes = none)
    (full : capacity ≤ catalog.size) (label : String) :
    catalog.define name label keyword attributes = (catalog, .silent (.tooManyTokens name)) := by
  simp [define, accepted, Nat.not_lt.mpr full]

/-- A name is never found to be taken after the checks. -/
theorem define_ne_silent_duplicate (catalog : Catalog Hook) (name label : String)
    (keyword : Option String) (attributes : Attributes) :
    (catalog.define name label keyword attributes).2 ≠ .silent (.duplicateName name) := by
  cases objection : catalog.objection? name keyword attributes with
  | some error =>
      rw [define_of_objection objection]
      simp [Report.failure, Report.silent]
  | none =>
      by_cases room : catalog.size < capacity
      · rw [define_of_room objection room]
        simp [Report.success, Report.silent]
      · rw [define_of_full objection (Nat.not_lt.mp room)]
        simp [Report.silent]

/-- A token type that is no keyword. -/
def defineToken (catalog : Catalog Hook) (name label : String) (attributes : Attributes) :
    Catalog Hook × Report Handle :=
  catalog.define name label none attributes

def defineBinary (catalog : Catalog Hook) (name label : String) (level : UInt8) :
    Catalog Hook × Report Handle :=
  catalog.defineToken name label (.binary level)

/-- Events follow those of the definitions before. -/
def defineKind (built : Catalog Hook × Array Event) (kind : Kind) : Catalog Hook × Array Event :=
  let (next, report) := built.1.defineToken kind.name kind.label kind.attributes
  (next, built.2 ++ report.events)

/-- The kinds are defined in their order, with the events of their definitions. -/
@[irreducible] def builtIn (Hook : Type) : Catalog Hook × Array Event :=
  Kind.all.foldl defineKind (empty, #[])

/-- A new catalog holds every kind. -/
def new (Hook : Type) : Catalog Hook := (builtIn Hook).1

/-- Making a catalog emits these events. -/
def newEvents (Hook : Type) : Array Event := (builtIn Hook).2

instance : Inhabited (Catalog Hook) := ⟨new Hook⟩

/-- The handle defined under a symbolic name. -/
def handle? (catalog : Catalog Hook) (name : String) : Option Handle := catalog.names.get? name

/-- A catalog has no descriptor for a handle of a larger one. -/
def descriptor? (catalog : Catalog Hook) (handle : Handle) : Option (Descriptor Hook) :=
  catalog.descriptors[handle.position]?

/-- The descriptor under a symbolic name. -/
def get? (catalog : Catalog Hook) (name : String) : Option (Descriptor Hook) :=
  (catalog.handle? name).bind catalog.descriptor?

def name? (catalog : Catalog Hook) (handle : Handle) : Option String :=
  (catalog.names.pairAt? handle.position).map Prod.fst

/-- Indexing takes handles that the catalog holds and refuses the others. -/
def index (catalog : Catalog Hook) (handle : Handle) : Except OutOfBounds (Descriptor Hook) :=
  match catalog.descriptor? handle with
  | some descriptor => .ok descriptor
  | none => .error ⟨catalog.size, handle.position⟩

/-- Indexing gives the descriptor of the handle or a fault. -/
theorem index_eq_ok_iff (catalog : Catalog Hook) (handle : Handle) (descriptor : Descriptor Hook) :
    catalog.index handle = .ok descriptor ↔ catalog.descriptor? handle = some descriptor := by
  unfold index
  split <;> simp_all

/-- One entry is added. -/
theorem size_append (catalog : Catalog Hook) (name label : String) (keyword : Option String)
    (attributes : Attributes) :
    (catalog.append name label keyword attributes).size = catalog.size + 1 := by
  simp [append, size]

/-- The descriptors of a catalog keep their places when another follows. -/
theorem descriptor?_append_of_lt {catalog : Catalog Hook} {handle : Handle}
    (within : handle.position < catalog.size) (name label : String) (keyword : Option String)
    (attributes : Attributes) :
    (catalog.append name label keyword attributes).descriptor? handle =
      catalog.descriptor? handle := by
  simp only [append, descriptor?, size] at within ⊢
  rw [Array.getElem?_push, if_neg (Nat.ne_of_lt within)]

/-- Each name stands with the descriptor of its handle, in definition order. -/
def entries (catalog : Catalog Hook) : List (String × Descriptor Hook) :=
  catalog.names.toList.filterMap fun (name, handle) =>
    (catalog.descriptor? handle).map fun descriptor => (name, descriptor)

end Catalog

end Lexicon
