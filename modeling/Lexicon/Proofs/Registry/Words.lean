import Lexicon.Proofs.Registry.Calls

/-! A registry represents the list of the words that were registered in it. -/

namespace Lexicon

variable {Hook : Type}

/-- A reserved word has a spelling and the attributes that it was registered with. -/
structure Reserved where
  spelling : String
  attributes : Attributes
  deriving DecidableEq, Repr

namespace Reserved

/-- The grammar gives the word its attributes. -/
def ofGrammar (spelling : String) : Reserved := ⟨spelling, Keyword.attributes spelling⟩

def entry (word : Reserved) (position : Nat) : Entry Hook :=
  (Keyword.name word.spelling,
    ⟨.ofPosition position, word.spelling, some word.spelling, word.attributes, none⟩)

/-- The words follow the forty kinds. -/
def entries (words : List Reserved) : List (Entry Hook) :=
  Kind.all.map Kind.entry ++ (words.zipIdx 40).map fun placed => placed.1.entry placed.2

/-- Forty of the handles are those of the kinds. -/
def capacity : Nat := Catalog.capacity - Kind.all.length

/-- The spelling is judged first, then whether it is taken, then the attributes and then the room. -/
def objection? (words : List Reserved) (word : Reserved) : Option TableError :=
  if Keyword.isSpelling word.spelling = false then some (.invalidKeyword word.spelling)
  else if word.spelling ∈ words.map spelling then some (.duplicateKeyword word.spelling)
  else
    match word.attributes.fault? true true with
    | some fault => some (.ofFault (Keyword.name word.spelling) fault)
    | none =>
        if words.length < capacity then none
        else some (.tooManyTokens (Keyword.name word.spelling))

/-- A word without objection meets all four conditions. -/
theorem objection?_eq_none_iff {words : List Reserved} {word : Reserved} :
    objection? words word = none ↔
      Keyword.isSpelling word.spelling = true ∧ word.spelling ∉ words.map spelling ∧
        word.attributes.fault? true true = none ∧ words.length < capacity := by
  unfold objection?
  split
  · simp_all
  · split
    · simp_all
    · split <;> simp_all

/-- The kinds come to forty entries. -/
theorem length_entries (words : List Reserved) :
    (entries words : List (Entry Hook)).length = 40 + words.length := by
  rw [entries, List.length_append, List.length_map, List.length_map, List.length_zipIdx]
  rfl

/-- A further word has its entry at the end. -/
theorem entries_concat (words : List Reserved) (word : Reserved) :
    (entries (words ++ [word]) : List (Entry Hook)) =
      entries words ++ [word.entry (40 + words.length)] := by
  rw [entries, List.zipIdx_append, List.map_append, ← List.append_assoc]
  rfl

/-- Below forty stand the kinds, and from forty on the words stand in their order. -/
theorem getElem?_entries_eq_some_iff {words : List Reserved} {position : Nat} {entry : Entry Hook} :
    (entries words)[position]? = some entry ↔
      (∃ kind : Kind, position = kind.position ∧ kind.entry = entry) ∨
        ∃ index word, position = 40 + index ∧ words[index]? = some word ∧
          word.entry position = entry := by
  rw [entries, Kind.getElem?_map_all_append_eq_some_iff]
  apply or_congr_right
  simp only [List.getElem?_map, List.getElem?_zipIdx, Option.map_map, Option.map_eq_some_iff]
  constructor
  · intro found
    obtain ⟨index, rfl, word, stands, same⟩ := found
    exact ⟨index, word, rfl, stands, same⟩
  · intro found
    obtain ⟨index, word, rfl, stands, same⟩ := found
    exact ⟨index, rfl, word, stands, same⟩

/-- The names are those of the kinds and then those of the words. -/
theorem names_entries (words : List Reserved) :
    (entries words : List (Entry Hook)).map Prod.fst =
      Kind.all.map Kind.name ++ words.map fun word => Keyword.name word.spelling := by
  rw [entries, List.map_append, List.map_map, List.map_map]
  congr 1
  change (words.zipIdx 40).map ((fun word => Keyword.name word.spelling) ∘ Prod.fst) = _
  rw [← List.map_map, List.zipIdx_map_fst]

/-- The name of a keyword is taken exactly when its spelling is, since no kind has such a name. -/
theorem keywordName_mem_names_iff (words : List Reserved) (spelling : String) :
    Keyword.name spelling ∈ (entries words : List (Entry Hook)).map Prod.fst ↔
      spelling ∈ words.map Reserved.spelling := by
  rw [names_entries, List.mem_append, List.mem_map, List.mem_map, List.mem_map]
  constructor
  · intro found
    rcases found with ⟨kind, _, same⟩ | ⟨word, member, same⟩
    · exact absurd same (kind.name_ne_keywordName spelling)
    · exact ⟨word, member, Keyword.name_injective same⟩
  · intro found
    obtain ⟨word, member, rfl⟩ := found
    exact .inr ⟨word, member, rfl⟩

/-- The handle of a word counts the kinds and the words before it. -/
def Stands (words : List Reserved) (spelling : String) (handle : Handle) : Prop :=
  ∃ index word, handle.position = 40 + index ∧ words[index]? = some word ∧ word.spelling = spelling

/-- A word stands at a handle exactly when the entry there has its name. -/
theorem name_eq_some_iff_stands (words : List Reserved) (spelling : String) (handle : Handle) :
    (entries words : List (Entry Hook))[handle.position]?.map Prod.fst =
      some (Keyword.name spelling) ↔ Stands words spelling handle := by
  simp only [Option.map_eq_some_iff, getElem?_entries_eq_some_iff]
  constructor
  · intro found
    obtain ⟨_, ⟨kind, _, rfl⟩ | ⟨index, word, place, stands, rfl⟩, same⟩ := found
    · exact absurd same (kind.name_ne_keywordName spelling)
    · exact ⟨index, word, place, stands, Keyword.name_injective same⟩
  · intro found
    obtain ⟨index, word, place, stands, rfl⟩ := found
    exact ⟨_, .inr ⟨index, word, place, stands, rfl⟩, rfl⟩

/-- A word stands at a handle exactly when the descriptor there has its spelling. -/
theorem keyword_eq_some_iff_stands (words : List Reserved) (spelling : String) (handle : Handle) :
    (∃ descriptor : Descriptor Hook,
      (entries words)[handle.position]?.map Prod.snd = some descriptor ∧
        descriptor.keyword = some spelling) ↔ Stands words spelling handle := by
  simp only [Option.map_eq_some_iff, getElem?_entries_eq_some_iff]
  constructor
  · intro found
    obtain ⟨_, ⟨_, ⟨kind, _, rfl⟩ | ⟨index, word, place, stands, rfl⟩, rfl⟩, same⟩ := found
    · cases same
    · exact ⟨index, word, place, stands, Option.some.inj same⟩
  · intro found
    obtain ⟨index, word, place, stands, rfl⟩ := found
    exact ⟨_, ⟨_, .inr ⟨index, word, place, stands, rfl⟩, rfl⟩, rfl⟩

end Reserved

namespace Registry

/-- Catalog and index hold the words under the same handles, and every word was fit to be registered. -/
structure Represents (registry : Registry Hook) (words : List Reserved) : Prop where
  catalog : registry.catalog.Represents (Reserved.entries words)
  keywords : registry.keywords.toList =
    (words.zipIdx 40).map fun placed => (placed.1.spelling, Handle.ofPosition placed.2)
  rightAssociative : registry.catalog.rightAssociative = some Kind.exponent.handle
  spelled : ∀ word ∈ words, Keyword.isSpelling word.spelling = true
  consistent : ∀ word ∈ words, word.attributes.Consistent true true

/-- A new registry represents no words. -/
theorem new_represents : (new Hook).Represents [] where
  catalog := Catalog.new_represents
  keywords := rfl
  rightAssociative := Catalog.rightAssociative_new
  spelled := nofun
  consistent := nofun

namespace Represents

variable {registry : Registry Hook} {words : List Reserved}

/-- There are no more words than handles for them. -/
theorem length_le (represents : registry.Represents words) :
    words.length ≤ Reserved.capacity := by
  have within := represents.catalog.within
  rw [Reserved.length_entries] at within
  exact Nat.le_sub_of_add_le' within

/-- The spellings stand in the order of the words. -/
theorem keys_eq (represents : registry.Represents words) :
    registry.keywords.bySpelling.keys = words.map Reserved.spelling := by
  have pairs : registry.keywords.bySpelling.toList = _ := represents.keywords
  rw [OrderedMap.keys, pairs, List.map_map]
  change (words.zipIdx 40).map (Reserved.spelling ∘ Prod.fst) = _
  rw [← List.map_map, List.zipIdx_map_fst]

/-- No word is registered twice. -/
theorem nodup_spellings (represents : registry.Represents words) :
    (words.map Reserved.spelling).Nodup := by
  rw [← represents.keys_eq]
  exact registry.keywords.bySpelling.nodup_keys

/-- The index contains the spellings of the words. -/
theorem contains_iff (represents : registry.Represents words) (spelling : String) :
    registry.keywords.contains spelling = true ↔ spelling ∈ words.map Reserved.spelling := by
  rw [KeywordIndex.contains, OrderedMap.contains_iff_mem_keys, represents.keys_eq]

/-- The catalog objects to a fresh word only for its attributes. -/
theorem objection?_eq (represents : registry.Represents words) {word : Reserved}
    (fresh : word.spelling ∉ words.map Reserved.spelling) :
    registry.catalog.objection? (Keyword.name word.spelling) (some word.spelling) word.attributes =
      (word.attributes.fault? true true).map (TableError.ofFault (Keyword.name word.spelling)) := by
  have untaken : registry.catalog.names.contains (Keyword.name word.spelling) = false := by
    rw [Bool.eq_false_iff, ne_eq, represents.catalog.contains_iff,
      Reserved.keywordName_mem_names_iff]
    exact fresh
  rw [Catalog.objection?, untaken, represents.rightAssociative]
  rfl

/-- The size counts the kinds and the words. -/
theorem size_eq (represents : registry.Represents words) :
    registry.catalog.size = 40 + words.length := by
  rw [represents.catalog.size_eq, Reserved.length_entries]

/-- What speaks against a word can be read off the list of words. -/
theorem refusal?_eq (represents : registry.Represents words) (word : Reserved) :
    registry.refusal? (.keyword word.spelling word.attributes) = Reserved.objection? words word := by
  rw [refusal?_keyword, KeywordIndex.refusal?, Reserved.objection?]
  cases Keyword.isSpelling word.spelling with
  | false => rfl
  | true =>
      by_cases taken : word.spelling ∈ words.map Reserved.spelling
      · rw [if_pos ((represents.contains_iff _).mpr taken), if_pos taken]
        rfl
      · have full : Catalog.capacity ≤ registry.catalog.size ↔
            ¬words.length < Reserved.capacity := by
          rw [represents.size_eq, Nat.not_lt, Reserved.capacity, Nat.sub_le_iff_le_add']
          rfl
        have unindexed : ¬registry.keywords.contains word.spelling = true :=
          mt (represents.contains_iff _).mp taken
        have unspoken : registry.catalog.refusal? (.keyword word.spelling word.attributes) = _ :=
          congrArg (Option.or · _) (represents.objection?_eq taken)
        rw [if_neg unindexed, if_neg taken, unspoken]
        cases word.attributes.fault? true true with
        | some fault => rfl
        | none =>
            change (if Catalog.capacity ≤ registry.catalog.size then _ else none) =
              if words.length < Reserved.capacity then none else _
            simp only [full, ite_not]
            rfl

/-- A word with an objection is refused for it, and the registry stays as it was. -/
theorem register_of_objection (represents : registry.Represents words) {word : Reserved}
    {error : TableError} (objection : Reserved.objection? words word = some error) :
    (registry.register word.spelling word.attributes).1 = registry ∧
      (registry.register word.spelling word.attributes).2.result = .error error := by
  rw [register_eq_outcome, outcome_of_refusal ((represents.refusal?_eq word).trans objection)]
  exact ⟨rfl, rfl⟩

/-- A word without objection gets the next handle and goes to the end of the list. -/
theorem register_of_no_objection (represents : registry.Represents words) {word : Reserved}
    (accepted : Reserved.objection? words word = none) :
    (registry.register word.spelling word.attributes).1.Represents (words ++ [word]) ∧
      (registry.register word.spelling word.attributes).2.result =
        .ok (.ofPosition (40 + words.length)) := by
  have unrefused := (represents.refusal?_eq word).trans accepted
  obtain ⟨_, unobjected, room⟩ := (registry.refusal?_eq_none_iff _).mp unrefused
  obtain ⟨valid, _, sound, _⟩ := Reserved.objection?_eq_none_iff.mp accepted
  have consistent := (Attributes.fault?_eq_none_iff _ _ _).mp sound
  have size := represents.size_eq
  rw [register_eq_outcome, outcome_of_no_refusal unrefused, size]
  refine ⟨⟨?_, ?_, ?_, ?_, ?_⟩, rfl⟩
  · rw [Reserved.entries_concat, ← size]
    exact represents.catalog.append_of_accepted unobjected room word.spelling
  · rw [keywords_accept unrefused, size, represents.keywords, List.zipIdx_append, List.map_append]
    rfl
  · exact (Catalog.rightAssociative_append consistent.left _ _ _ _).trans
      represents.rightAssociative
  · exact List.forall_mem_append.mpr ⟨represents.spelled, List.forall_mem_singleton.mpr valid⟩
  · exact List.forall_mem_append.mpr
      ⟨represents.consistent, List.forall_mem_singleton.mpr consistent⟩

/-- A spelling is found at the handle where its word stands. -/
theorem keyword?_eq_some_iff (represents : registry.Represents words) (spelling : String)
    (handle : Handle) :
    registry.keyword? spelling = some handle ↔ Reserved.Stands words spelling handle := by
  rw [keyword?, KeywordIndex.get?_eq_some_iff, represents.keywords, List.mem_map]
  constructor
  · intro found
    obtain ⟨⟨word, position⟩, member, same⟩ := found
    obtain ⟨rfl, rfl⟩ := Prod.mk.inj same
    obtain ⟨least, stands⟩ := List.mem_zipIdx_iff_le_and_getElem?_sub.mp member
    have inside := (List.getElem?_eq_some_iff.mp stands).1
    have within := represents.catalog.within
    rw [Reserved.length_entries, Catalog.capacity] at within
    refine ⟨position - 40, word, ?_, stands, rfl⟩
    rw [Handle.position_ofPosition (by omega)]
    omega
  · intro found
    obtain ⟨index, word, place, stands, rfl⟩ := found
    refine ⟨(word, handle.position), List.mem_zipIdx_iff_le_and_getElem?_sub.mpr ⟨?_, ?_⟩, ?_⟩
    · simp only [place]
      omega
    · simpa only [place, Nat.add_sub_cancel_left] using stands
    · rw [Handle.ofPosition_position]

/-- Under the name of a keyword the catalog has the handle of the index. -/
theorem handle?_keywordName_eq_some_iff (represents : registry.Represents words)
    (spelling : String) (handle : Handle) :
    registry.handle? (Keyword.name spelling) = some handle ↔
      Reserved.Stands words spelling handle := by
  rw [handle?, represents.catalog.handle?_eq_some_iff, Reserved.name_eq_some_iff_stands]

/-- A descriptor is looked up in the entries of the words. -/
theorem descriptor?_eq (represents : registry.Represents words) (handle : Handle) :
    registry.descriptor? handle = (Reserved.entries words)[handle.position]?.map Prod.snd :=
  represents.catalog.descriptor?_eq handle

/-- A name is looked up in the entries of the words. -/
theorem name?_eq (represents : registry.Represents words) (handle : Handle) :
    registry.catalog.name? handle =
      (Reserved.entries words : List (Entry Hook))[handle.position]?.map Prod.fst :=
  represents.catalog.name?_eq handle

/-- The descriptor of a word has its spelling and its attributes. -/
theorem descriptor?_of_stands (represents : registry.Represents words) {index : Nat}
    {word : Reserved} {handle : Handle} (place : handle.position = 40 + index)
    (stands : words[index]? = some word) :
    registry.descriptor? handle =
      some ⟨handle, word.spelling, some word.spelling, word.attributes, none⟩ := by
  have entry : (Reserved.entries words : List (Entry Hook))[handle.position]? =
      some (word.entry handle.position) :=
    Reserved.getElem?_entries_eq_some_iff.mpr (.inr ⟨index, word, place, stands, rfl⟩)
  rw [represents.descriptor?_eq, entry, Option.map_some, Reserved.entry,
    Handle.ofPosition_position]

/-- The descriptor of a keyword has the attributes that the word was registered with. -/
theorem exists_reserved (represents : registry.Represents words) {word : String} {handle : Handle}
    (found : registry.keyword? word = some handle) :
    ∃ reserved ∈ words, reserved.spelling = word ∧ registry.descriptor? handle =
      some ⟨handle, word, some word, reserved.attributes, none⟩ := by
  obtain ⟨index, reserved, place, stands, rfl⟩ := (represents.keyword?_eq_some_iff _ _).mp found
  exact ⟨reserved, List.mem_of_getElem? stands, rfl, represents.descriptor?_of_stands place stands⟩

/-- The handles of the index count on from forty. -/
theorem handles_eq (represents : registry.Represents words) :
    registry.keywords.handles.map Handle.position = List.range' 40 words.length := by
  rw [KeywordIndex.handles_eq_map, represents.keywords, List.map_map, List.map_map,
    ← List.zipIdx_map_snd 40 words]
  apply List.map_congr_left
  intro placed member
  have upper := List.snd_lt_add_of_mem_zipIdx member
  have within := represents.catalog.within
  rw [Reserved.length_entries, Catalog.capacity] at within
  exact Handle.position_ofPosition (by omega)

end Represents

end Registry

end Lexicon
