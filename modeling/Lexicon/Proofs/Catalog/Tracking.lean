import Lexicon.Catalog.Hook
import Lexicon.Proofs.Catalog.Reachable

/-! A catalog still represents a list of entries when hooks were attached between its definitions. -/

namespace Lexicon

variable {Hook : Type}

namespace Catalog

/-- Attachments come between definitions and registrations in any order, with or without success. -/
inductive Tracked : Catalog Hook → Prop where
  | new : Tracked (new Hook)
  | defineToken {catalog : Catalog Hook} (tracked : Tracked catalog) (name label : String)
      (attributes : Attributes) : Tracked (catalog.defineToken name label attributes).1
  | defineBinary {catalog : Catalog Hook} (tracked : Tracked catalog) (name label : String)
      (level : UInt8) : Tracked (catalog.defineBinary name label level).1
  | register {catalog : Catalog Hook} (tracked : Tracked catalog) (keywords : KeywordIndex)
      (spelling : String) (attributes : Attributes) :
      Tracked (Registry.register ⟨catalog, keywords⟩ spelling attributes).1.catalog
  | attach {catalog : Catalog Hook} (tracked : Tracked catalog) (handle : Handle) (hook : Hook) :
      Tracked (catalog.attach handle hook).1

/-- A catalog without hooks is tracked too. -/
theorem Reachable.tracked {catalog : Catalog Hook} (reachable : catalog.Reachable) :
    catalog.Tracked := by
  induction reachable with
  | new => exact .new
  | defineToken _ name label attributes ih => exact ih.defineToken name label attributes
  | defineBinary _ name label level ih => exact ih.defineBinary name label level
  | register _ keywords spelling attributes ih => exact ih.register keywords spelling attributes

/-- An attachment renames nothing. -/
theorem names_attach (catalog : Catalog Hook) (handle : Handle) (hook : Hook) :
    (catalog.attach handle hook).1.names = catalog.names := by
  rw [attach]
  cases catalog.descriptor? handle <;> rfl

/-- An attachment leaves the right-associative operator as it is. -/
theorem rightAssociative_attach (catalog : Catalog Hook) (handle : Handle) (hook : Hook) :
    (catalog.attach handle hook).1.rightAssociative = catalog.rightAssociative := by
  rw [attach]
  cases catalog.descriptor? handle <;> rfl

/-- Attaching writes the descriptor at the place of the handle, if there is one. -/
theorem descriptors_attach (catalog : Catalog Hook) (handle : Handle) (hook : Hook) :
    (catalog.attach handle hook).1.descriptors =
      catalog.descriptors.modify handle.position fun descriptor =>
        (descriptor.attach hook).1 := by
  apply Array.ext_getElem?
  intro position
  rw [Array.getElem?_modify, attach]
  cases found : catalog.descriptor? handle with
  | none =>
      by_cases here : handle.position = position
      · rw [descriptor?, here] at found
        simp [here, found]
      · simp [here]
  | some descriptor =>
      have within := (Array.getElem?_eq_some_iff.mp found).1
      by_cases here : handle.position = position
      · subst here
        rw [descriptor?] at found
        rw [if_pos rfl, found, Option.map_some]
        exact Array.getElem?_setIfInBounds_self_of_lt within
      · simp [here]

/-- The entry at the place of the handle gets the hook if its slot is empty. -/
theorem Represents.attach {catalog : Catalog Hook} {entries : List (Entry Hook)}
    (represents : catalog.Represents entries) (handle : Handle) (hook : Hook) :
    (catalog.attach handle hook).1.Represents (entries.modify handle.position fun entry =>
      (entry.1, (entry.2.attach hook).1)) where
  names := by
    rw [names_attach, represents.names]
    apply List.ext_getElem?
    intro position
    simp only [List.getElem?_map, List.getElem?_zipIdx, List.getElem?_modify]
    cases entries[position]? <;> simp [apply_ite Prod.fst]
  descriptors := by
    rw [descriptors_attach, Array.toList_modify, represents.descriptors]
    apply List.ext_getElem?
    intro position
    simp only [List.getElem?_map, List.getElem?_modify]
    cases entries[position]? <;> simp [apply_ite Prod.snd]
  within := by
    rw [List.length_modify]
    exact represents.within

/-- The invariant of the steps between which hooks are attached. -/
structure Numbered (catalog : Catalog Hook) : Prop where
  represents : ∃ entries, catalog.Represents entries
  rightAssociative : catalog.rightAssociative = some Kind.exponent.handle

/-- A new catalog meets the invariant. -/
theorem new_numbered : (new Hook).Numbered where
  represents := ⟨_, new_represents⟩
  rightAssociative := rightAssociative_new

namespace Numbered

variable {catalog : Catalog Hook}

/-- Exponentiation has been defined. -/
theorem isSome_rightAssociative (numbered : catalog.Numbered) :
    catalog.rightAssociative.isSome = true := by
  rw [numbered.rightAssociative, Option.isSome_some]

/-- An accepted definition adds an entry and leaves exponentiation the only one of its kind. -/
theorem append (numbered : catalog.Numbered) {name : String} {keyword : Option String}
    {attributes : Attributes} (accepted : catalog.objection? name keyword attributes = none)
    (room : catalog.size < capacity) (label : String) :
    (catalog.append name label keyword attributes).Numbered where
  represents := by
    obtain ⟨entries, represents⟩ := numbered.represents
    exact ⟨_, represents.append_of_accepted accepted room label⟩
  rightAssociative := by
    rw [rightAssociative_append (left_of_accepted accepted numbered.isSome_rightAssociative)]
    exact numbered.rightAssociative

/-- A definition keeps the invariant. -/
theorem define (numbered : catalog.Numbered) (name label : String) (keyword : Option String)
    (attributes : Attributes) : (catalog.define name label keyword attributes).1.Numbered := by
  rcases catalog.define_cases name label keyword attributes with
    ⟨error, events, refused⟩ | ⟨accepted, room, defined⟩
  · rw [refused]
    exact numbered
  · rw [defined]
    exact numbered.append accepted room label

/-- A registration keeps the invariant. -/
theorem register (numbered : catalog.Numbered) (keywords : KeywordIndex) (spelling : String)
    (attributes : Attributes) :
    (Registry.register ⟨catalog, keywords⟩ spelling attributes).1.catalog.Numbered := by
  rcases Registry.register_cases ⟨catalog, keywords⟩ spelling attributes with
    ⟨error, events, refused⟩ | ⟨_, _, accepted, room, _, registered⟩
  · rw [refused]
    exact numbered
  · rw [registered]
    exact numbered.append accepted room spelling

/-- An attachment keeps the invariant. -/
theorem attach (numbered : catalog.Numbered) (handle : Handle) (hook : Hook) :
    (catalog.attach handle hook).1.Numbered where
  represents := by
    obtain ⟨entries, represents⟩ := numbered.represents
    exact ⟨_, represents.attach handle hook⟩
  rightAssociative := by
    rw [rightAssociative_attach]
    exact numbered.rightAssociative

/-- A descriptor is looked up in the entries of the catalog. -/
theorem descriptor?_eq (numbered : catalog.Numbered) (handle : Handle) :
    catalog.descriptor? handle = catalog.entries[handle.position]?.map Prod.snd := by
  obtain ⟨entries, represents⟩ := numbered.represents
  rw [represents.descriptor?_eq, represents.entries_eq]

/-- A name is looked up in the entries of the catalog. -/
theorem name?_eq (numbered : catalog.Numbered) (handle : Handle) :
    catalog.name? handle = catalog.entries[handle.position]?.map Prod.fst := by
  obtain ⟨entries, represents⟩ := numbered.represents
  rw [represents.name?_eq, represents.entries_eq]

/-- The handle under a name is the place of the entry with this name. -/
theorem handle?_eq_some_iff (numbered : catalog.Numbered) (name : String) (handle : Handle) :
    catalog.handle? name = some handle ↔
      catalog.entries[handle.position]?.map Prod.fst = some name := by
  obtain ⟨entries, represents⟩ := numbered.represents
  rw [represents.handle?_eq_some_iff, represents.entries_eq]

/-- There is one entry for each descriptor. -/
theorem length_entries (numbered : catalog.Numbered) :
    catalog.entries.length = catalog.size := by
  obtain ⟨entries, represents⟩ := numbered.represents
  rw [represents.entries_eq, represents.size_eq]

end Numbered

/-- A tracked catalog numbers its entries through. -/
theorem Tracked.numbered {catalog : Catalog Hook} (tracked : catalog.Tracked) :
    catalog.Numbered := by
  induction tracked with
  | new => exact new_numbered
  | defineToken _ name label attributes ih => exact ih.define name label none attributes
  | defineBinary _ name label level ih => exact ih.define name label none (.binary level)
  | register _ keywords spelling attributes ih => exact ih.register keywords spelling attributes
  | attach _ handle hook ih => exact ih.attach handle hook

end Catalog

end Lexicon
