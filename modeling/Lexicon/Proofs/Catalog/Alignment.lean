import Lexicon.Proofs.Catalog.Reachable

/-! The names and the descriptors of a reachable catalog stand in step. -/

namespace Lexicon

variable {Hook : Type}

namespace Catalog

/-- The handles of a catalog are the places below its size, and every lookup agrees with them. -/
structure Aligned (catalog : Catalog Hook) : Prop where
  names : catalog.names.size = catalog.size
  least : 40 ≤ catalog.size
  most : catalog.size ≤ 65536
  inside : ∀ position < catalog.size, ∃ handle descriptor name, handle.position = position ∧
    catalog.descriptor? handle = some descriptor ∧ descriptor.handle = handle ∧
    catalog.name? handle = some name ∧ catalog.handle? name = some handle
  distinct : catalog.names.keys.Nodup
  named : ∀ name handle, catalog.handle? name = some handle →
    handle.position < catalog.size ∧ catalog.name? handle = some name ∧
      ∃ descriptor, catalog.get? name = some descriptor ∧
        catalog.descriptor? handle = some descriptor
  outside : ∀ handle,
    (catalog.descriptor? handle = none ↔ catalog.size ≤ handle.position) ∧
      (catalog.name? handle = none ↔ catalog.size ≤ handle.position) ∧
        ∀ bounds, catalog.index handle = .error bounds ↔
          catalog.size ≤ handle.position ∧ bounds = ⟨catalog.size, handle.position⟩
  listed : catalog.entries.length = catalog.size ∧ ∀ handle,
    catalog.entries[handle.position]? = (catalog.name? handle).bind fun name =>
      (catalog.descriptor? handle).map fun descriptor => (name, descriptor)
  kinds : catalog.entries.take 40 = Kind.all.map Kind.entry

/-- A handle is out of bounds exactly when there is no descriptor for it. -/
theorem index_eq_error_iff (catalog : Catalog Hook) (handle : Handle) (bounds : OutOfBounds) :
    catalog.index handle = .error bounds ↔
      catalog.descriptor? handle = none ∧ bounds = ⟨catalog.size, handle.position⟩ := by
  rw [index]
  cases catalog.descriptor? handle with
  | none => simp [eq_comm]
  | some descriptor => simp

namespace Represents

variable {catalog : Catalog Hook} {entries : List (Entry Hook)}

/-- There are as many names as descriptors. -/
theorem size_names (represents : catalog.Represents entries) :
    catalog.names.size = catalog.size := by
  rw [OrderedMap.size_eq_length, represents.names, List.length_map, List.length_zipIdx,
    represents.size_eq]

/-- A handle has no descriptor exactly when it is past the end. -/
theorem descriptor?_eq_none_iff (represents : catalog.Represents entries) (handle : Handle) :
    catalog.descriptor? handle = none ↔ catalog.size ≤ handle.position := by
  rw [represents.descriptor?_eq, Option.map_eq_none_iff, List.getElem?_eq_none_iff,
    represents.size_eq]

/-- A handle has no name exactly when it is past the end. -/
theorem name?_eq_none_iff (represents : catalog.Represents entries) (handle : Handle) :
    catalog.name? handle = none ↔ catalog.size ≤ handle.position := by
  rw [represents.name?_eq, Option.map_eq_none_iff, List.getElem?_eq_none_iff, represents.size_eq]

/-- Every handle within the catalog has a descriptor. -/
theorem exists_descriptor (represents : catalog.Represents entries) {handle : Handle}
    (within : handle.position < catalog.size) :
    ∃ descriptor, catalog.descriptor? handle = some descriptor := by
  apply Option.ne_none_iff_exists'.mp
  rw [ne_eq, represents.descriptor?_eq_none_iff]
  exact Nat.not_le.mpr within

/-- Every handle within the catalog has a name. -/
theorem exists_name (represents : catalog.Represents entries) {handle : Handle}
    (within : handle.position < catalog.size) : ∃ name, catalog.name? handle = some name := by
  apply Option.ne_none_iff_exists'.mp
  rw [ne_eq, represents.name?_eq_none_iff]
  exact Nat.not_le.mpr within

/-- A name has a handle exactly when it is the name of this handle. -/
theorem handle?_eq_some_iff_name? (represents : catalog.Represents entries) (name : String)
    (handle : Handle) :
    catalog.handle? name = some handle ↔ catalog.name? handle = some name := by
  rw [represents.handle?_eq_some_iff, represents.name?_eq]

/-- The entry at the place of a handle is its name with its descriptor. -/
theorem getElem?_entries (represents : catalog.Represents entries) (handle : Handle) :
    catalog.entries[handle.position]? = (catalog.name? handle).bind fun name =>
      (catalog.descriptor? handle).map fun descriptor => (name, descriptor) := by
  rw [represents.entries_eq, represents.name?_eq, represents.descriptor?_eq]
  cases entries[handle.position]? with
  | none => rfl
  | some entry => rfl

end Represents

/-- In a reachable catalog all tables number the token types alike, from the kinds on. -/
theorem Reachable.aligned {catalog : Catalog Hook} (reachable : catalog.Reachable) :
    catalog.Aligned := by
  obtain ⟨definitions, holds⟩ := reachable.holds
  have represents := holds.represents
  have least : 40 ≤ catalog.size := by
    rw [holds.size_eq]
    exact Nat.le_add_right 40 _
  have most : catalog.size ≤ 65536 := represents.size_le
  refine ⟨represents.size_names, least, most, ?_, catalog.names.nodup_keys, ?_, ?_, ?_, ?_⟩
  · intro position inside
    have place := Handle.position_ofPosition (Nat.lt_of_lt_of_le inside most)
    obtain ⟨descriptor, found⟩ := represents.exists_descriptor (place.symm ▸ inside)
    obtain ⟨name, named⟩ := represents.exists_name (place.symm ▸ inside)
    exact ⟨.ofPosition position, descriptor, name, place, found, holds.handle_of_descriptor? found,
      named, (represents.handle?_eq_some_iff_name? name _).mpr named⟩
  · intro name handle found
    have named := (represents.handle?_eq_some_iff_name? name handle).mp found
    have within : handle.position < catalog.size := by
      by_contra beyond
      rw [(represents.name?_eq_none_iff handle).mpr (Nat.le_of_not_lt beyond)] at named
      cases named
    obtain ⟨descriptor, stands⟩ := represents.exists_descriptor within
    refine ⟨within, named, descriptor, ?_, stands⟩
    rw [get?, found]
    exact stands
  · intro handle
    refine ⟨represents.descriptor?_eq_none_iff handle, represents.name?_eq_none_iff handle, ?_⟩
    intro bounds
    rw [index_eq_error_iff, represents.descriptor?_eq_none_iff]
  · refine ⟨?_, represents.getElem?_entries⟩
    rw [represents.entries_eq, represents.size_eq]
  · rw [represents.entries_eq]
    exact Definition.take_entries definitions

/-- A plain definition takes the name of a keyword, and two steps are refused before another keyword
is registered. -/
theorem aligned_after_refused_steps :
    let squatted := ((new String).defineToken "_if" "?" .plain).1
    let refused := (Registry.register ⟨squatted, .empty⟩ "if" .plain).1.catalog
    let catalog := (Registry.register ⟨(refused.defineBinary "pipe" "|>" 0).1, .empty⟩ "while"
      (.ofFlags [.isLoop])).1.catalog
    catalog.Reachable ∧ catalog.Aligned ∧ catalog.size = 42 ∧
      catalog.handle? "_while" = some (.ofPosition 41) := by
  intro squatted refused catalog
  have first : squatted.Reachable := .defineToken .new _ _ _
  have second : refused.Reachable := .register first .empty "if" .plain
  have reachable : catalog.Reachable :=
    .register (.defineBinary second "pipe" "|>" 0) .empty "while" (.ofFlags [.isLoop])
  exact ⟨reachable, reachable.aligned, by decide +kernel, by decide +kernel⟩

end Catalog

end Lexicon
