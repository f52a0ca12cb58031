import Lexicon.Proofs.Registry.Reachable

/-! The index of a reachable registry and its catalog answer alike. -/

namespace Lexicon

variable {Hook : Type}

namespace Registry

namespace Represents

variable {registry : Registry Hook} {words : List Reserved}

/-- A word is a keyword when it has a handle. -/
theorem isKeyword_eq_isSome (represents : registry.Represents words) (word : String) :
    registry.isKeyword word = (registry.keyword? word).isSome := by
  rw [Bool.eq_iff_iff, isKeyword, represents.contains_iff, Option.isSome_iff_exists]
  simp only [represents.keyword?_eq_some_iff]
  rw [List.mem_map]
  constructor
  · intro present
    obtain ⟨reserved, member, same⟩ := present
    obtain ⟨index, stands⟩ := List.getElem?_of_mem member
    have inside := (List.getElem?_eq_some_iff.mp stands).1
    have within := represents.length_le
    change words.length ≤ 65496 at within
    exact ⟨.ofPosition (40 + index), index, reserved, Handle.position_ofPosition (by omega), stands,
      same⟩
  · intro present
    obtain ⟨_, _, reserved, _, stands, same⟩ := present
    exact ⟨reserved, List.mem_of_getElem? stands, same⟩

/-- A name without a leading underscore can only be the name of a kind. -/
theorem handle?_eq_ofName? (represents : registry.Represents words) {name : String}
    (plain : name.toList.head? ≠ some '_') :
    registry.handle? name = (Kind.ofName? name).map Kind.handle := by
  apply Option.ext
  intro handle
  rw [handle?, represents.catalog.handle?_eq_some_iff, Option.map_eq_some_iff,
    Option.map_eq_some_iff]
  simp only [Reserved.getElem?_entries_eq_some_iff, Kind.ofName?_eq_some_iff]
  constructor
  · intro found
    obtain ⟨_, ⟨kind, place, rfl⟩ | ⟨_, word, _, _, rfl⟩, same⟩ := found
    · refine ⟨kind, same, ?_⟩
      rw [Kind.handle, ← place, Handle.ofPosition_position]
    · apply absurd _ plain
      rw [← same]
      exact congrArg List.head? (Keyword.toList_name word.spelling)
  · intro found
    obtain ⟨kind, same, rfl⟩ := found
    exact ⟨kind.entry, .inl ⟨kind, kind.position_handle, rfl⟩, same⟩

/-- A kind has its own handle in every registry. -/
theorem handle?_kind (represents : registry.Represents words) (kind : Kind) :
    registry.handle? kind.name = some kind.handle := by
  rw [represents.handle?_eq_ofName? kind.head?_name, kind.ofName?_name]
  rfl

/-- Every kind has its name. -/
theorem name?_kind (represents : registry.Represents words) (kind : Kind) :
    registry.catalog.name? kind.handle = some kind.name := by
  rw [represents.name?_eq, ← represents.catalog.handle?_eq_some_iff]
  exact represents.handle?_kind kind

/-- A keyword has the name made of its spelling. -/
theorem name?_of_keyword? (represents : registry.Represents words) {word : String}
    {handle : Handle} (found : registry.keyword? word = some handle) :
    registry.catalog.name? handle = some (Keyword.name word) := by
  rw [represents.name?_eq, Reserved.name_eq_some_iff_stands]
  exact (represents.keyword?_eq_some_iff word handle).mp found

/-- A handle is foreign when it lies behind all kinds and words. -/
theorem descriptor?_eq_none_iff (represents : registry.Represents words) (handle : Handle) :
    registry.descriptor? handle = none ↔ 40 + words.length ≤ handle.position := by
  rw [represents.descriptor?_eq, Option.map_eq_none_iff, List.getElem?_eq_none_iff,
    Reserved.length_entries]

/-- The index counts the registered words. -/
theorem size_keywords (represents : registry.Represents words) :
    registry.keywords.size = words.length := by
  rw [KeywordIndex.size_eq_length, represents.keywords, List.length_map, List.length_zipIdx]

end Represents

/-- A spelling is a keyword exactly when its name is defined and when a descriptor has it as keyword,
each time with the same handle. All other names are those of the kinds, and the keywords have the
handles after those of the kinds. -/
theorem Reachable.lookups_agree {registry : Registry Hook} (reachable : registry.Reachable) :
    (∀ word handle, registry.keyword? word = some handle ↔
      registry.handle? (Keyword.name word) = some handle) ∧
    (∀ word handle, registry.keyword? word = some handle ↔
      ∃ descriptor, registry.descriptor? handle = some descriptor ∧
        descriptor.keyword = some word) ∧
    (∀ word, registry.isKeyword word = true ↔ ∃ handle, registry.keyword? word = some handle) ∧
    (∀ name : String, name.toList.head? ≠ some '_' →
      registry.handle? name = (Kind.ofName? name).map Kind.handle) ∧
    registry.keywords.handles.map Handle.position =
      List.range' 40 (registry.catalog.size - 40) ∧
    registry.keywords.size + 40 = registry.catalog.size := by
  obtain ⟨words, represents⟩ := reachable.represents
  refine ⟨?_, ?_, ?_, ?_, ?_, ?_⟩
  · intro word handle
    rw [represents.keyword?_eq_some_iff, represents.handle?_keywordName_eq_some_iff]
  · intro word handle
    rw [represents.keyword?_eq_some_iff, represents.descriptor?_eq,
      Reserved.keyword_eq_some_iff_stands]
  · intro word
    rw [represents.isKeyword_eq_isSome, Option.isSome_iff_exists]
  · intro name plain
    exact represents.handle?_eq_ofName? plain
  · rw [represents.handles_eq, represents.size_eq, Nat.add_sub_cancel_left]
  · rw [represents.size_keywords, represents.size_eq, Nat.add_comm]

/-- A word that begins with an underscore itself gets a name with two of them, and a refused word
changes nothing. -/
theorem handle?_of_underscored_word :
    let registry := (((new String).register "_if" .plain).1.register "" .plain).1
    registry.Reachable ∧ registry.keyword? "_if" = some (.ofPosition 40) ∧
      registry.handle? "__if" = some (.ofPosition 40) := by
  intro registry
  have reachable : registry.Reachable := .register (.register .new "_if" .plain) "" .plain
  have found : registry.keyword? "_if" = some (.ofPosition 40) := by decide +kernel
  exact ⟨reachable, found, (reachable.lookups_agree.1 "_if" (.ofPosition 40)).mp found⟩

end Registry

end Lexicon
