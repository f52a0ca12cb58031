import Lexicon.Catalog.Basic

/-! Definitions do not look into hooks, so they are the same over hooks of any type. -/

namespace Lexicon

variable {Hook Other : Type} (change : Hook → Other)

/-- The hook is replaced in its slot. -/
def Descriptor.mapHook (descriptor : Descriptor Hook) : Descriptor Other :=
  { descriptor with hook := descriptor.hook.map change }

namespace Catalog

def mapHooks (catalog : Catalog Hook) : Catalog Other :=
  { catalog with descriptors := catalog.descriptors.map (Descriptor.mapHook change) }

@[simp] theorem names_mapHooks (catalog : Catalog Hook) :
    (catalog.mapHooks change).names = catalog.names := rfl

@[simp] theorem rightAssociative_mapHooks (catalog : Catalog Hook) :
    (catalog.mapHooks change).rightAssociative = catalog.rightAssociative := rfl

@[simp] theorem toList_descriptors_mapHooks (catalog : Catalog Hook) :
    (catalog.mapHooks change).descriptors.toList =
      catalog.descriptors.toList.map (Descriptor.mapHook change) :=
  Array.toList_map

@[simp] theorem size_mapHooks (catalog : Catalog Hook) :
    (catalog.mapHooks change).size = catalog.size :=
  Array.size_map

/-- No objection looks into a hook. -/
theorem objection?_mapHooks (catalog : Catalog Hook) (name : String) (keyword : Option String)
    (attributes : Attributes) :
    (catalog.mapHooks change).objection? name keyword attributes =
      catalog.objection? name keyword attributes := rfl

/-- An added entry has no hook to change. -/
theorem append_mapHooks (catalog : Catalog Hook) (name label : String) (keyword : Option String)
    (attributes : Attributes) :
    (catalog.mapHooks change).append name label keyword attributes =
      (catalog.append name label keyword attributes).mapHooks change := by
  simp only [append, size_mapHooks]
  simp only [mapHooks, Array.map_push]
  rfl

/-- A definition is accepted alike, and it leaves the hooks alone. -/
theorem define_mapHooks (catalog : Catalog Hook) (name label : String) (keyword : Option String)
    (attributes : Attributes) :
    (catalog.mapHooks change).define name label keyword attributes =
      ((catalog.define name label keyword attributes).1.mapHooks change,
        (catalog.define name label keyword attributes).2) := by
  have same := objection?_mapHooks change catalog name keyword attributes
  cases objection : catalog.objection? name keyword attributes with
  | some error =>
      rw [define_of_objection objection, define_of_objection (same.trans objection)]
  | none =>
      by_cases room : catalog.size < capacity
      · have roomToo := (size_mapHooks change catalog).symm ▸ room
        rw [define_of_room objection room, define_of_room (same.trans objection) roomToo,
          append_mapHooks, size_mapHooks]
      · have full := Nat.not_lt.mp room
        have fullToo := (size_mapHooks change catalog).symm ▸ full
        rw [define_of_full objection full, define_of_full (same.trans objection) fullToo]

/-- The kinds are defined alike whatever the hooks are. -/
theorem foldl_defineKind_mapHooks (kinds : List Kind) (catalog : Catalog Hook)
    (events : Array Event) :
    kinds.foldl defineKind (catalog.mapHooks change, events) =
      ((kinds.foldl defineKind (catalog, events)).1.mapHooks change,
        (kinds.foldl defineKind (catalog, events)).2) := by
  induction kinds generalizing catalog events with
  | nil => rfl
  | cons kind kinds ih =>
      have defined : defineKind (catalog.mapHooks change, events) kind =
          ((defineKind (catalog, events) kind).1.mapHooks change,
            (defineKind (catalog, events) kind).2) := by
        simp only [defineKind, defineToken, define_mapHooks]
      rw [List.foldl_cons, List.foldl_cons, defined]
      exact ih _ _

theorem builtIn_eq_mapHooks :
    builtIn Other = ((builtIn Hook).1.mapHooks change, (builtIn Hook).2) := by
  have same := foldl_defineKind_mapHooks change Kind.all empty #[]
  have nothing : mapHooks change empty = empty := by simp [mapHooks, empty]
  rw [nothing] at same
  unfold builtIn
  exact same

/-- The kinds come without hooks, whatever hooks are. -/
theorem new_eq_mapHooks (Hook : Type) : new Hook = (new Empty).mapHooks Empty.elim := by
  rw [new, builtIn_eq_mapHooks Empty.elim, new]

/-- The events of a new catalog do not depend on the type of the hooks. -/
theorem newEvents_eq_empty (Hook : Type) : newEvents Hook = newEvents Empty := by
  rw [newEvents, builtIn_eq_mapHooks Empty.elim, newEvents]

end Catalog

end Lexicon
