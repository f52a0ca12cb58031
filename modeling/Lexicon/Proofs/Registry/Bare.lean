import Lexicon.Proofs.Registry.Growth

/-! A registry without its hooks goes through the same registrations. -/

namespace Lexicon

variable {Hook : Type}

/-- The slot is empty. -/
def Descriptor.bare (descriptor : Descriptor Hook) : Descriptor Hook :=
  { descriptor with hook := none }

/-- An attachment shows in the hook alone. -/
theorem Descriptor.bare_attach (descriptor : Descriptor Hook) (hook : Hook) :
    (descriptor.attach hook).1.bare = descriptor.bare := by
  rw [attach]
  cases descriptor.hook <;> rfl

namespace Catalog

/-- All slots are empty. -/
def bare (catalog : Catalog Hook) : Catalog Hook :=
  { catalog with descriptors := catalog.descriptors.map Descriptor.bare }

theorem size_bare (catalog : Catalog Hook) : catalog.bare.size = catalog.size :=
  Array.size_map

/-- A lookup gives the descriptor without its hook. -/
theorem descriptor?_bare (catalog : Catalog Hook) (handle : Handle) :
    catalog.bare.descriptor? handle = (catalog.descriptor? handle).map Descriptor.bare :=
  Array.getElem?_map

/-- Nothing is left of an attachment but the hook. -/
theorem bare_attach (catalog : Catalog Hook) (handle : Handle) (hook : Hook) :
    (catalog.attach handle hook).1.bare = catalog.bare := by
  have descriptors : (catalog.attach handle hook).1.descriptors.map Descriptor.bare =
      catalog.descriptors.map Descriptor.bare := by
    apply Array.ext_getElem?
    intro position
    rw [descriptors_attach, Array.getElem?_map, Array.getElem?_map, Array.getElem?_modify]
    by_cases here : handle.position = position
    · rw [if_pos here, Option.map_map]
      congr 1
      funext descriptor
      exact descriptor.bare_attach hook
    · rw [if_neg here]
  rw [bare, bare, names_attach, rightAssociative_attach, descriptors]

/-- An added entry has no hook to lose. -/
theorem bare_append (catalog : Catalog Hook) (name label : String) (keyword : Option String)
    (attributes : Attributes) :
    (catalog.append name label keyword attributes).bare =
      catalog.bare.append name label keyword attributes := by
  simp only [append, bare, size, Array.map_push, Array.size_map]
  rfl

end Catalog

namespace Registry

def bare (registry : Registry Hook) : Registry Hook := ⟨registry.catalog.bare, registry.keywords⟩

theorem descriptor?_bare (registry : Registry Hook) (handle : Handle) :
    registry.bare.descriptor? handle = (registry.descriptor? handle).map Descriptor.bare :=
  registry.catalog.descriptor?_bare handle

/-- Hooks speak neither for nor against a definition. -/
theorem refusal?_bare (registry : Registry Hook) (definition : Definition) :
    registry.bare.refusal? definition = registry.refusal? definition := by
  have size : registry.bare.catalog.size = registry.catalog.size := registry.catalog.size_bare
  rw [refusal?, refusal?, Catalog.refusal?, Catalog.refusal?, size]
  rfl

/-- A definition is accepted alike without the hooks. -/
theorem accept_bare (registry : Registry Hook) (definition : Definition) :
    registry.bare.accept definition = (registry.accept definition).bare := by
  simp only [accept, bare, Catalog.bare_append, Catalog.size_bare]

/-- A registration succeeds or fails without regard to hooks. -/
theorem register_bare (registry : Registry Hook) (spelling : String) (attributes : Attributes) :
    registry.bare.register spelling attributes =
      ((registry.register spelling attributes).1.bare,
        (registry.register spelling attributes).2) := by
  have judged := registry.refusal?_bare (.keyword spelling attributes)
  have size : registry.bare.catalog.size = registry.catalog.size := registry.catalog.size_bare
  rw [register_eq_outcome, register_eq_outcome]
  cases refused : registry.refusal? (.keyword spelling attributes) with
  | some error => rw [outcome_of_refusal refused, outcome_of_refusal (judged.trans refused)]
  | none =>
      rw [outcome_of_no_refusal refused, outcome_of_no_refusal (judged.trans refused), accept_bare,
        size]

/-- A registry whose descriptors are those of a list of words has no hooks. -/
theorem Represents.bare_eq {registry : Registry Hook} {words : List Reserved}
    (represents : registry.Represents words) : registry.bare = registry := by
  have descriptors : registry.catalog.descriptors.map Descriptor.bare =
      registry.catalog.descriptors := by
    apply Array.toList_inj.mp
    rw [Array.toList_map, represents.catalog.descriptors, List.map_map]
    apply List.map_congr_left
    intro entry member
    obtain ⟨position, stands⟩ := List.getElem?_of_mem member
    rw [Reserved.getElem?_entries_eq_some_iff] at stands
    rcases stands with ⟨kind, _, rfl⟩ | ⟨_, word, _, _, rfl⟩ <;> rfl
  rw [bare, Catalog.bare, descriptors]

/-- Without its hooks a tracked registry represents the words that it accepted. -/
theorem Tracked.represents_bare {registry : Registry Hook} (tracked : registry.Tracked) :
    ∃ words, registry.bare.Represents words := by
  induction tracked with
  | reachable reachable =>
      obtain ⟨words, represents⟩ := reachable.represents
      rw [represents.bare_eq]
      exact ⟨words, represents⟩
  | @register registry _ spelling attributes ih =>
      obtain ⟨words, represents⟩ := ih
      have next := represents.register spelling attributes
      rw [register_bare] at next
      exact next
  | @attach registry _ handle hook ih =>
      rw [bare, Catalog.bare_attach]
      exact ih

end Registry

end Lexicon
