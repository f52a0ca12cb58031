import Lexicon.Proofs.Catalog.Hooks
import Lexicon.Proofs.Token.Consistency
import Mathlib.Data.List.Basic

/-! A catalog represents a list of entries, and every lookup in it is a lookup in the list. -/

namespace Lexicon

variable {Hook : Type}

/-- An entry is a symbolic name with its descriptor. -/
abbrev Entry (Hook : Type) := String × Descriptor Hook

/-- A new catalog holds this entry for the kind. -/
def Kind.entry (kind : Kind) : Entry Hook :=
  (kind.name, ⟨kind.handle, kind.label, none, kind.attributes, none⟩)

namespace Catalog

/-- The handle stored under each name is the place of its entry. -/
structure Represents (catalog : Catalog Hook) (entries : List (Entry Hook)) : Prop where
  names : catalog.names.toList =
    entries.zipIdx.map fun placed => (placed.1.1, Handle.ofPosition placed.2)
  descriptors : catalog.descriptors.toList = entries.map Prod.snd
  within : entries.length ≤ capacity

/-- A new catalog represents the kinds. -/
theorem new_represents : (new Hook).Represents (Kind.all.map Kind.entry) where
  names := by
    have placed : (new Empty).names.toList =
        Kind.all.zipIdx.map fun placed => (placed.1.name, Handle.ofPosition placed.2) := by
      decide +kernel
    rw [new_eq_mapHooks, names_mapHooks, placed, List.zipIdx_map, List.map_map]
    rfl
  descriptors := by
    have described : (new Empty).descriptors.toList = Kind.all.map fun kind => kind.entry.2 := by
      decide +kernel
    rw [new_eq_mapHooks, toList_descriptors_mapHooks, described, List.map_map, List.map_map]
    rfl
  within := by
    rw [List.length_map]
    decide

/-- The right-associative operator is exponentiation. -/
theorem rightAssociative_new : (new Hook).rightAssociative = some Kind.exponent.handle := by
  have closed : (new Empty).rightAssociative = some Kind.exponent.handle := by decide +kernel
  rw [new_eq_mapHooks, rightAssociative_mapHooks, closed]

namespace Represents

variable {catalog : Catalog Hook} {entries : List (Entry Hook)}

/-- The size of the catalog is the number of entries. -/
theorem size_eq (represents : catalog.Represents entries) : catalog.size = entries.length := by
  rw [size, ← Array.length_toList, represents.descriptors, List.length_map]

/-- No catalog grows above the capacity. -/
theorem size_le (represents : catalog.Represents entries) : catalog.size ≤ capacity := by
  rw [represents.size_eq]
  exact represents.within

/-- The handle of a place of an entry has this position, since the places fit in a handle. -/
theorem position_ofPosition (represents : catalog.Represents entries) {position : Nat}
    {entry : Entry Hook} (stands : entries[position]? = some entry) :
    (Handle.ofPosition position).position = position := by
  have inside := (List.getElem?_eq_some_iff.mp stands).1
  exact Handle.position_ofPosition (Nat.lt_of_lt_of_le inside represents.within)

/-- The names stand in the order of the entries. -/
theorem keys_eq (represents : catalog.Represents entries) :
    catalog.names.keys = entries.map Prod.fst := by
  rw [OrderedMap.keys, represents.names, List.map_map]
  change entries.zipIdx.map (Prod.fst ∘ Prod.fst) = _
  rw [← List.map_map, List.zipIdx_map_fst]

/-- A name is taken when an entry has it. -/
theorem contains_iff (represents : catalog.Represents entries) (name : String) :
    catalog.names.contains name = true ↔ name ∈ entries.map Prod.fst := by
  rw [OrderedMap.contains_iff_mem_keys, represents.keys_eq]

/-- A descriptor is looked up in the list of entries. -/
theorem descriptor?_eq (represents : catalog.Represents entries) (handle : Handle) :
    catalog.descriptor? handle = entries[handle.position]?.map Prod.snd := by
  rw [descriptor?, ← Array.getElem?_toList, represents.descriptors, List.getElem?_map]

/-- A name is looked up in the list of entries. -/
theorem name?_eq (represents : catalog.Represents entries) (handle : Handle) :
    catalog.name? handle = entries[handle.position]?.map Prod.fst := by
  rw [name?, OrderedMap.pairAt?_eq_getElem?, represents.names, List.getElem?_map, Option.map_map,
    List.getElem?_zipIdx, Option.map_map]
  rfl

/-- The handle under a name is the place of the entry with this name. -/
theorem handle?_eq_some_iff (represents : catalog.Represents entries) (name : String)
    (handle : Handle) :
    catalog.handle? name = some handle ↔
      entries[handle.position]?.map Prod.fst = some name := by
  rw [handle?, OrderedMap.get?_eq_some_iff, represents.names, List.mem_map, Option.map_eq_some_iff]
  constructor
  · intro found
    obtain ⟨⟨entry, position⟩, member, same⟩ := found
    obtain ⟨rfl, rfl⟩ := Prod.mk.inj same
    have stands := List.mem_zipIdx_iff_getElem?.mp member
    exact ⟨entry, by rw [represents.position_ofPosition stands, stands], rfl⟩
  · intro found
    obtain ⟨entry, stands, rfl⟩ := found
    refine ⟨(entry, handle.position), List.mem_zipIdx_iff_getElem?.mpr stands, ?_⟩
    rw [Handle.ofPosition_position]

/-- The entries of a catalog in definition order are those that it represents. -/
theorem entries_eq (represents : catalog.Represents entries) : catalog.entries = entries := by
  have each : ∀ placed ∈ entries.zipIdx,
      (catalog.descriptor? (.ofPosition placed.2)).map
        (fun descriptor => (placed.1.1, descriptor)) = some placed.1 := by
    intro placed member
    obtain ⟨entry, position⟩ := placed
    have stands := List.mem_zipIdx_iff_getElem?.mp member
    rw [represents.descriptor?_eq, represents.position_ofPosition stands, stands]
    rfl
  rw [Catalog.entries, represents.names, List.filterMap_map]
  exact (List.filterMap_eq_map_iff_forall_eq_some.mpr each).trans (List.zipIdx_map_fst 0 entries)

/-- A fresh name goes to the end of the names and its descriptor to the end of the descriptors. -/
theorem append (represents : catalog.Represents entries) {name : String}
    (fresh : name ∉ entries.map Prod.fst) (room : entries.length < capacity) (label : String)
    (keyword : Option String) (attributes : Attributes) :
    (catalog.append name label keyword attributes).Represents
      (entries ++ [(name, ⟨.ofPosition entries.length, label, keyword, attributes, none⟩)]) where
  names := by
    have absent : catalog.names.contains name = false := by
      rw [Bool.eq_false_iff, ne_eq, represents.contains_iff]
      exact fresh
    rw [List.zipIdx_append, List.map_append, ← represents.names, Catalog.append,
      (OrderedMap.tryInsert_of_not_contains absent _).2, represents.size_eq]
    simp
  descriptors := by
    simp [Catalog.append, represents.descriptors, represents.size_eq]
  within := by
    rw [List.length_append]
    exact room

end Represents

/-- Nothing is objected to exactly a fresh name with consistent attributes. -/
theorem objection?_eq_none_iff {catalog : Catalog Hook} {name : String} {keyword : Option String}
    {attributes : Attributes} :
    catalog.objection? name keyword attributes = none ↔ catalog.names.contains name = false ∧
      attributes.Consistent keyword.isSome catalog.rightAssociative.isSome := by
  rw [objection?]
  cases catalog.names.contains name with
  | true => simp
  | false => simp [Attributes.fault?_eq_none_iff]

/-- Beside a right-associative operator no other is accepted. -/
theorem left_of_accepted {catalog : Catalog Hook} {name : String} {keyword : Option String}
    {attributes : Attributes} (accepted : catalog.objection? name keyword attributes = none)
    (taken : catalog.rightAssociative.isSome = true) :
    attributes.has .rightAssociative = false := by
  have consistent := (objection?_eq_none_iff.mp accepted).2
  rw [taken] at consistent
  exact consistent.left

/-- An entry that is not right-associative leaves the one that is. -/
theorem rightAssociative_append {attributes : Attributes}
    (left : attributes.has .rightAssociative = false) (catalog : Catalog Hook) (name label : String)
    (keyword : Option String) :
    (catalog.append name label keyword attributes).rightAssociative =
      catalog.rightAssociative := by
  rw [append, left]
  rfl

/-- An accepted definition goes to the end of the entries while there is room. -/
theorem Represents.append_of_accepted {catalog : Catalog Hook} {entries : List (Entry Hook)}
    (represents : catalog.Represents entries) {name : String} {keyword : Option String}
    {attributes : Attributes} (accepted : catalog.objection? name keyword attributes = none)
    (room : catalog.size < capacity) (label : String) :
    (catalog.append name label keyword attributes).Represents
      (entries ++ [(name, ⟨.ofPosition catalog.size, label, keyword, attributes, none⟩)]) := by
  have unnamed : name ∉ entries.map Prod.fst := by
    rw [← represents.contains_iff, (objection?_eq_none_iff.mp accepted).1]
    exact Bool.false_ne_true
  rw [represents.size_eq] at room ⊢
  exact represents.append unnamed room label keyword attributes

end Catalog

end Lexicon
