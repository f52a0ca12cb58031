import Lexicon.Proofs.Catalog.Alignment

/-! The keywords of a catalog are its descriptors with a spelling. -/

namespace Lexicon

variable {Hook : Type}

namespace Catalog

/-- The keywords of a catalog stand with their handles in definition order. -/
def keywords (catalog : Catalog Hook) : List (String × Handle) :=
  catalog.descriptors.toList.filterMap fun descriptor =>
    descriptor.keyword.map fun spelling => (spelling, descriptor.handle)

/-- The kinds are no keywords. -/
theorem keywords_new : (new Hook).keywords = [] := by
  rw [keywords, new_represents.descriptors]
  rfl

/-- A plain definition leaves the keywords as they were. -/
theorem keywords_append_none (catalog : Catalog Hook) (name label : String)
    (attributes : Attributes) :
    (catalog.append name label none attributes).keywords = catalog.keywords := by
  simp [keywords, append]

/-- An added keyword is the last one. -/
theorem keywords_append_some (catalog : Catalog Hook) (name label spelling : String)
    (attributes : Attributes) :
    (catalog.append name label (some spelling) attributes).keywords =
      catalog.keywords ++ [(spelling, .ofPosition catalog.size)] := by
  simp [keywords, append]

namespace Holds

variable {catalog : Catalog Hook} {definitions : List Definition}

/-- The descriptor at a place is that of the handle it carries. -/
theorem descriptor?_of_getElem? (holds : catalog.Holds definitions) {position : Nat}
    {descriptor : Descriptor Hook}
    (stands : catalog.descriptors.toList[position]? = some descriptor) :
    descriptor.handle.position = position ∧
      catalog.descriptor? descriptor.handle = some descriptor := by
  have inside : position < catalog.size := by
    simpa [size] using (List.getElem?_eq_some_iff.mp stands).1
  have place := Handle.position_ofPosition (Nat.lt_of_lt_of_le inside holds.represents.size_le)
  have found : catalog.descriptor? (.ofPosition position) = some descriptor := by
    rw [descriptor?, place, ← Array.getElem?_toList]
    exact stands
  have carried := holds.handle_of_descriptor? found
  rw [carried]
  exact ⟨place, found⟩

/-- A keyword stands with a handle exactly when the descriptor of the handle has its spelling. -/
theorem mem_keywords_iff (holds : catalog.Holds definitions) (spelling : String) (handle : Handle) :
    (spelling, handle) ∈ catalog.keywords ↔ ∃ descriptor,
      catalog.descriptor? handle = some descriptor ∧ descriptor.keyword = some spelling := by
  rw [keywords, List.mem_filterMap]
  constructor
  · intro listed
    obtain ⟨descriptor, member, paired⟩ := listed
    obtain ⟨own, has, same⟩ := Option.map_eq_some_iff.mp paired
    cases same
    obtain ⟨position, stands⟩ := List.mem_iff_getElem?.mp member
    exact ⟨descriptor, (holds.descriptor?_of_getElem? stands).2, has⟩
  · intro found
    obtain ⟨descriptor, found, has⟩ := found
    have member : descriptor ∈ catalog.descriptors.toList := by
      rw [descriptor?, ← Array.getElem?_toList] at found
      exact List.mem_of_getElem? found
    exact ⟨descriptor, member, by rw [has, holds.handle_of_descriptor? found, Option.map_some]⟩

/-- Later keywords have greater handles. -/
theorem pairwise_keywords (holds : catalog.Holds definitions) :
    catalog.keywords.Pairwise fun earlier later => earlier.2.position < later.2.position := by
  have descriptors : catalog.descriptors.toList.Pairwise fun earlier later =>
      earlier.handle.position < later.handle.position := by
    rw [List.pairwise_iff_getElem]
    intro first second firstWithin secondWithin before
    rw [(holds.descriptor?_of_getElem? (List.getElem?_eq_getElem firstWithin)).1,
      (holds.descriptor?_of_getElem? (List.getElem?_eq_getElem secondWithin)).1]
    exact before
  refine List.Pairwise.filterMap _ ?_ descriptors
  intro earlier later before first firstPaired second secondPaired
  obtain ⟨_, _, rfl⟩ := Option.map_eq_some_iff.mp firstPaired
  obtain ⟨_, _, rfl⟩ := Option.map_eq_some_iff.mp secondPaired
  exact before

/-- The handle of a keyword lies in the catalog. -/
theorem position_lt_of_mem_keywords (holds : catalog.Holds definitions) {spelling : String}
    {handle : Handle} (member : (spelling, handle) ∈ catalog.keywords) :
    handle.position < catalog.size := by
  obtain ⟨descriptor, found, _⟩ := (holds.mem_keywords_iff spelling handle).mp member
  by_contra beyond
  rw [(holds.represents.descriptor?_eq_none_iff handle).mpr (Nat.le_of_not_lt beyond)] at found
  cases found

/-- The descriptor and the name of a keyword are those of its spelling. -/
theorem keyword_of_mem_keywords (holds : catalog.Holds definitions) {spelling : String}
    {handle : Handle} (member : (spelling, handle) ∈ catalog.keywords) :
    catalog.name? handle = some (Keyword.name spelling) ∧ ∃ descriptor,
      catalog.descriptor? handle = some descriptor ∧ descriptor.keyword = some spelling ∧
        descriptor.label = spelling := by
  obtain ⟨descriptor, found, has⟩ := (holds.mem_keywords_iff spelling handle).mp member
  have stands := found
  rw [holds.descriptor?_eq, Option.map_eq_some_iff] at stands
  obtain ⟨definition, stands, rfl⟩ := stands
  have same := Definition.eq_keyword_of_spelling? has
  refine ⟨?_, _, found, has, ?_⟩
  · rw [holds.name?_eq, stands, same]
    rfl
  · rw [same]
    rfl

/-- A spelling is a keyword under one handle only. -/
theorem handle_unique (holds : catalog.Holds definitions) {spelling : String} {one other : Handle}
    (first : (spelling, one) ∈ catalog.keywords) (second : (spelling, other) ∈ catalog.keywords) :
    one = other := by
  have firstNamed := (holds.keyword_of_mem_keywords first).1
  have secondNamed := (holds.keyword_of_mem_keywords second).1
  rw [← holds.represents.handle?_eq_some_iff_name?] at firstNamed secondNamed
  exact Option.some.inj (firstNamed.symm.trans secondNamed)

/-- A handle is that of one spelling only. -/
theorem spelling_unique (holds : catalog.Holds definitions) {one other : String} {handle : Handle}
    (first : (one, handle) ∈ catalog.keywords) (second : (other, handle) ∈ catalog.keywords) :
    one = other := by
  have firstNamed := (holds.keyword_of_mem_keywords first).1
  have secondNamed := (holds.keyword_of_mem_keywords second).1
  exact Keyword.name_injective (Option.some.inj (firstNamed.symm.trans secondNamed))

end Holds

end Catalog

end Lexicon
