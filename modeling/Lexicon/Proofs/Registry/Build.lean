import Lexicon.Proofs.Registry.Words
import Mathlib.Order.Bounds.Basic

/-! Building a registry from a list of words ends at the first word at fault. -/

namespace Lexicon

variable {Hook : Type}

namespace Registry

/-- The fault of the word at an index, which depends on the words before it. The forty kinds leave
65496 of the handles. -/
def faultAt? (words : List String) (index : Nat) : Option TableError :=
  words[index]?.bind fun word =>
    if word = "" ∨ word.toList.any Text.isWhiteSpace = true then some (.invalidKeyword word)
    else if word ∈ words.take index then some (.duplicateKeyword word)
    else if index = 65496 then some (.tooManyTokens (Keyword.name word))
    else none

/-- The registry holds the kinds and then the words in their order, and nothing else. -/
structure HoldsWords (registry : Registry Hook) (words : List String) : Prop where
  entries : registry.catalog.entries = Reserved.entries (words.map .ofGrammar)
  word : ∀ index word, words[index]? = some word → ∃ handle : Handle,
    handle.position = 40 + index ∧
    registry.keyword? word = some handle ∧
    registry.handle? (Keyword.name word) = some handle ∧
    registry.descriptor? handle =
      some ⟨handle, word, some word, Keyword.attributes word, none⟩
  handles : registry.keywords.handles.map Handle.position = List.range' 40 words.length
  other : ∀ word, word ∉ words → registry.keyword? word = none

section Fault

variable {done todo : List String} {word : String}

/-- The grammar keeps the spellings. -/
theorem spelling_ofGrammar (words : List String) :
    (words.map Reserved.ofGrammar).map Reserved.spelling = words := by
  rw [List.map_map]
  exact List.map_id words

/-- The words before an index alone decide whether the word there is at fault. -/
theorem faultAt?_eq_objection? (within : done.length ≤ Reserved.capacity) (word : String)
    (todo : List String) :
    faultAt? (done ++ word :: todo) done.length =
      Reserved.objection? (done.map .ofGrammar) (.ofGrammar word) := by
  have here : (done ++ word :: todo)[done.length]? = some word := by
    rw [List.getElem?_append_right (Nat.le_refl _), Nat.sub_self]
    rfl
  have sound : (Reserved.ofGrammar word).attributes.fault? true true = none :=
    Keyword.fault?_attributes word
  have full : done.length = 65496 ↔ ¬done.length < Reserved.capacity := by
    change done.length ≤ 65496 at within
    change _ ↔ ¬done.length < 65496
    omega
  rw [faultAt?, here, Reserved.objection?, sound, spelling_ofGrammar, List.length_map,
    List.take_left]
  simp only [Option.bind_some, ← Keyword.isSpelling_eq_false_iff, full, ite_not]
  rfl

/-- Past the last word there is no fault. -/
theorem faultAt?_of_length_le {words : List String} {index : Nat} (outside : words.length ≤ index) :
    faultAt? words index = none := by
  rw [faultAt?, List.getElem?_eq_none outside]
  rfl

end Fault

/-- A word that is refused ends the build with its error. -/
theorem registerAll_of_register_error {registry : Registry Hook} {word : String}
    {error : TableError}
    (refused : (registry.register word (Keyword.attributes word)).2.result = .error error)
    (events : Array Event) (words : List String) :
    (registry.registerAll events (word :: words)).result = .error error := by
  rw [registerAll]
  generalize registry.register word (Keyword.attributes word) = registered at refused ⊢
  obtain ⟨next, result, more⟩ := registered
  cases refused
  rfl

/-- After a word that is accepted the build goes on with the remaining words. -/
theorem registerAll_of_register_ok {registry : Registry Hook} (word : String) {handle : Handle}
    (accepted : (registry.register word (Keyword.attributes word)).2.result = .ok handle)
    (events : Array Event) (words : List String) :
    ∃ more, registry.registerAll events (word :: words) =
      (registry.register word (Keyword.attributes word)).1.registerAll more words := by
  rw [registerAll]
  generalize registry.register word (Keyword.attributes word) = registered at accepted ⊢
  obtain ⟨next, result, more⟩ := registered
  cases accepted
  exact ⟨events ++ more, rfl⟩

/-- Each word is defined and then registered, and the handles count on from the position. -/
def announcements (position : Nat) (words : List String) : List Event :=
  (words.zipIdx position).flatMap fun placed =>
    [.defined (Keyword.name placed.1) placed.1 (.ofPosition placed.2),
      .registered placed.1 (.ofPosition placed.2)]

section Step

variable {registry : Registry Hook} {done : List String} {word : String}

/-- A word with an objection ends the build with its error and the warning of it. -/
theorem Represents.registerAll_of_objection (represents : registry.Represents (done.map .ofGrammar))
    {error : TableError}
    (objection : Reserved.objection? (done.map .ofGrammar) (.ofGrammar word) = some error)
    (events : Array Event) (todo : List String) :
    registry.registerAll events (word :: todo) = ⟨.error error, events ++ error.warnings⟩ := by
  obtain ⟨_, refused⟩ := represents.register_of_objection objection
  change (registry.register word (Keyword.attributes word)).2.result = _ at refused
  rw [registerAll, register_of_error refused]

/-- A word without objection is announced, and the build goes on with the remaining words. -/
theorem Represents.registerAll_of_no_objection
    (represents : registry.Represents (done.map .ofGrammar))
    (accepted : Reserved.objection? (done.map .ofGrammar) (.ofGrammar word) = none)
    (events : Array Event) (todo : List String) :
    ∃ (next : Registry Hook) (more : Array Event),
      next.Represents ((done ++ [word]).map .ofGrammar) ∧
      more.toList = announcements (40 + done.length) [word] ∧
      registry.registerAll events (word :: todo) = next.registerAll (events ++ more) todo := by
  obtain ⟨represented, succeeded⟩ := represents.register_of_no_objection accepted
  have acceptance := register_of_ok succeeded
  change registry.register word (Keyword.attributes word) = _ at acceptance
  refine ⟨(registry.register word (Keyword.attributes word)).1,
    (registry.register word (Keyword.attributes word)).2.events, ?_, ?_, ?_⟩
  · rw [List.map_append]
    exact represented
  · rw [acceptance, List.length_map]
    rfl
  · rw [registerAll, acceptance]

end Step

/-- The remaining words are announced up to the first fault, whose error ends the build. Without a
fault all of them are announced, and the registry holds all the words. -/
theorem registerAll_announces {registry : Registry Hook} (done : List String)
    (represents : registry.Represents (done.map .ofGrammar)) (events : Array Event)
    (todo : List String) (sound : ∀ index < done.length, faultAt? (done ++ todo) index = none) :
    (∃ offset error,
      IsLeast {index | faultAt? (done ++ todo) index ≠ none} (done.length + offset) ∧
      faultAt? (done ++ todo) (done.length + offset) = some error ∧
      done.length + offset ≤ Reserved.capacity ∧
      (registry.registerAll events todo).result = .error error ∧
      (registry.registerAll events todo).events.toList = events.toList ++
        announcements (40 + done.length) (todo.take offset) ++ error.warnings.toList) ∨
    ((∀ index, faultAt? (done ++ todo) index = none) ∧
      ∃ built, (registry.registerAll events todo).result = .ok built ∧
        built.Represents ((done ++ todo).map .ofGrammar) ∧
        (registry.registerAll events todo).events.toList = events.toList ++
          announcements (40 + done.length) todo ++
            [.finished built.catalog.size built.keywords.size]) := by
  -- The words done so far carry the invariant, and each step moves one word over to them.
  induction todo generalizing registry done events with
  | nil =>
      right
      rw [List.append_nil] at sound ⊢
      refine ⟨fun index => ?_, registry, rfl, represents, ?_⟩
      · by_cases inside : index < done.length
        · exact sound index inside
        · exact faultAt?_of_length_le (Nat.le_of_not_lt inside)
      · rw [registerAll, Array.toList_push]
        exact congrArg (· ++ _) (List.append_nil _).symm
  | cons word todo ih =>
      have length := represents.length_le
      rw [List.length_map] at length
      have fault := faultAt?_eq_objection? length word todo
      cases objection : Reserved.objection? (done.map .ofGrammar) (.ofGrammar word) with
      | some error =>
          left
          rw [objection] at fault
          rw [represents.registerAll_of_objection objection]
          refine ⟨0, error, ⟨?_, ?_⟩, fault, length, rfl, ?_⟩
          · exact Option.ne_none_iff_exists'.mpr ⟨error, fault⟩
          · intro index found
            by_contra earlier
            exact found (sound index (Nat.lt_of_not_le earlier))
          · rw [Array.toList_append, List.take_zero]
            exact congrArg (· ++ _) (List.append_nil _).symm
      | none =>
          rw [objection] at fault
          obtain ⟨next, more, represented, told, continued⟩ :=
            represents.registerAll_of_no_objection objection events todo
          rw [continued]
          rw [List.append_cons] at fault sound ⊢
          have after : ∀ index < (done ++ [word]).length,
              faultAt? (done ++ [word] ++ todo) index = none := by
            intro index inside
            rw [List.length_append, List.length_singleton] at inside
            rcases Nat.lt_succ_iff_lt_or_eq.mp inside with before | rfl
            · exact sound index before
            · exact fault
          have announced : ∀ words, (events ++ more).toList ++
              announcements (40 + (done ++ [word]).length) words =
                events.toList ++ announcements (40 + done.length) (word :: words) := by
            intro words
            rw [Array.toList_append, told, List.append_assoc, List.length_append]
            rfl
          have outcome := ih (done ++ [word]) represented (events ++ more) after
          simp only [announced] at outcome
          rw [List.length_append, List.length_singleton] at outcome
          rcases outcome with ⟨offset, error, least, first, room, ended, told⟩ | built
          · left
            rw [Nat.add_right_comm] at least first room
            exact ⟨offset + 1, error, least, first, room, ended, told⟩
          · exact .inr built

/-- The build of the remaining words ends at the first fault or holds all the words. -/
theorem registerAll_outcome {registry : Registry Hook} (done : List String)
    (represents : registry.Represents (done.map .ofGrammar)) (events : Array Event)
    (todo : List String) (sound : ∀ index < done.length, faultAt? (done ++ todo) index = none) :
    (∃ index error, IsLeast {index | faultAt? (done ++ todo) index ≠ none} index ∧
      faultAt? (done ++ todo) index = some error ∧
      (registry.registerAll events todo).result = .error error) ∨
    ((∀ index, faultAt? (done ++ todo) index = none) ∧
      ∃ built, (registry.registerAll events todo).result = .ok built ∧
        built.Represents ((done ++ todo).map .ofGrammar)) := by
  rcases registerAll_announces done represents events todo sound with
    ⟨offset, error, least, fault, _, ended, _⟩ | ⟨none, built, done, holds, _⟩
  · exact .inl ⟨_, error, least, fault, ended⟩
  · exact .inr ⟨none, built, done, holds⟩

/-- In a registry of grammar words a keyword is one of the words, with its attributes of the
grammar. -/
theorem Represents.descriptor?_of_keyword? {registry : Registry Hook} {words : List String}
    (represents : registry.Represents (words.map .ofGrammar)) {word : String} {handle : Handle}
    (found : registry.keyword? word = some handle) :
    word ∈ words ∧ registry.descriptor? handle =
      some ⟨handle, word, some word, Keyword.attributes word, none⟩ := by
  obtain ⟨_, listed, rfl, descriptor⟩ := represents.exists_reserved found
  obtain ⟨own, member, rfl⟩ := List.mem_map.mp listed
  exact ⟨member, descriptor⟩

/-- A registry that represents words of the grammar holds them. -/
theorem Represents.holdsWords {registry : Registry Hook} {words : List String}
    (represents : registry.Represents (words.map .ofGrammar)) : registry.HoldsWords words where
  entries := represents.catalog.entries_eq
  word := by
    intro index word stands
    have inside := (List.getElem?_eq_some_iff.mp stands).1
    have within := represents.length_le
    have known : (words.map Reserved.ofGrammar)[index]? = some (.ofGrammar word) := by
      rw [List.getElem?_map, stands]
      rfl
    have place : (Handle.ofPosition (40 + index)).position = 40 + index := by
      rw [List.length_map] at within
      change words.length ≤ 65496 at within
      exact Handle.position_ofPosition (by omega)
    have placed : Reserved.Stands (words.map .ofGrammar) word (.ofPosition (40 + index)) :=
      ⟨index, .ofGrammar word, place, known, rfl⟩
    exact ⟨.ofPosition (40 + index), place, (represents.keyword?_eq_some_iff _ _).mpr placed,
      (represents.handle?_keywordName_eq_some_iff _ _).mpr placed,
      represents.descriptor?_of_stands place known⟩
  handles := by
    rw [represents.handles_eq, List.length_map]
  other := by
    intro word absent
    rw [Option.eq_none_iff_forall_ne_some]
    intro handle found
    exact absent (represents.descriptor?_of_keyword? found).1

/-- A word is no keyword when it was not registered. -/
theorem Represents.keyword?_eq_none_iff {registry : Registry Hook} {words : List String}
    (represents : registry.Represents (words.map .ofGrammar)) (word : String) :
    registry.keyword? word = none ↔ word ∉ words := by
  refine ⟨?_, represents.holdsWords.other word⟩
  intro unknown member
  obtain ⟨index, stands⟩ := List.getElem?_of_mem member
  obtain ⟨handle, _, found, _⟩ := represents.holdsWords.word index word stands
  cases unknown.symm.trans found

/-- Where an answer of the built registry is known, the build has succeeded. -/
theorem exists_built {words : List String} {Value : Type} {answer : Registry Hook → Option Value}
    {value : Value} (known : (ofWords Hook words).result.toOption.bind answer = some value) :
    ∃ registry, (ofWords Hook words).result = .ok registry ∧ answer registry = some value := by
  cases built : (ofWords Hook words).result with
  | error error =>
      rw [built] at known
      cases known
  | ok registry =>
      rw [built] at known
      exact ⟨registry, rfl, known⟩

/-- Only three kinds of error name a fault. -/
theorem error_of_faultAt? {words : List String} {index : Nat} {error : TableError}
    (fault : faultAt? words index = some error) :
    ∃ word ∈ words, error = .invalidKeyword word ∨ error = .duplicateKeyword word ∨
      error = .tooManyTokens (Keyword.name word) := by
  rw [faultAt?, Option.bind_eq_some_iff] at fault
  obtain ⟨word, stands, fault⟩ := fault
  refine ⟨word, List.mem_of_getElem? stands, ?_⟩
  split at fault
  · exact .inl (Option.some.inj fault).symm
  split at fault
  · exact .inr (.inl (Option.some.inj fault).symm)
  split at fault
  · exact .inr (.inr (Option.some.inj fault).symm)
  · cases fault

/-- The first word at fault ends the build with its error. Without a fault the registry holds the
words of the list and nothing else, and options build the registry of their list of words. -/
theorem ofWords_outcome (words : List String) :
    (∀ index error, IsLeast {index | faultAt? words index ≠ none} index →
      faultAt? words index = some error → (ofWords Hook words).result = .error error) ∧
    ((∀ index, faultAt? words index = none) →
      ∃ registry, (ofWords Hook words).result = .ok registry ∧ registry.HoldsWords words) ∧
    (∀ error, (ofWords Hook words).result = .error error → ∃ word ∈ words,
      error = .invalidKeyword word ∨ error = .duplicateKeyword word ∨
        error = .tooManyTokens (Keyword.name word)) ∧
    ∀ options : Options, ofOptions Hook options = ofWords Hook
      (options.keywords.getD (options.edition.getD .es2015).words ++
        options.extraKeywords.getD []) := by
  have outcome := registerAll_outcome [] (@new_represents Hook) (Catalog.newEvents Hook) words nofun
  rw [List.nil_append] at outcome
  change (∃ index error, _ ∧ _ ∧ (ofWords Hook words).result = .error error) ∨
    (_ ∧ ∃ built, (ofWords Hook words).result = .ok built ∧ _) at outcome
  refine ⟨?_, ?_, ?_, fun options => rfl⟩
  · intro index error least fault
    rcases outcome with ⟨first, cause, firstLeast, firstFault, ended⟩ | ⟨sound, _⟩
    · have same := firstLeast.unique least
      rw [same, fault] at firstFault
      rw [ended, Option.some.inj firstFault]
    · exact absurd (sound index) least.1
  · intro sound
    rcases outcome with ⟨first, _, firstLeast, _⟩ | ⟨_, built, done, represents⟩
    · exact absurd (sound first) firstLeast.1
    · exact ⟨built, done, represents.holdsWords⟩
  · intro error ended
    rcases outcome with ⟨first, cause, _, firstFault, result⟩ | ⟨_, built, result, _⟩
    · rw [ended] at result
      cases result
      exact error_of_faultAt? firstFault
    · rw [ended] at result
      cases result

/-- A repetition is at fault at its second place. -/
example : faultAt? ["if", "else", "if"] 2 = some (.duplicateKeyword "if") := by decide

end Registry

end Lexicon
