import Lexicon.Proofs.Expression.Lexing
import Lexicon.Proofs.Registry.Lookup
import Mathlib.Data.List.Nodup

/-! The order of a list of words decides only the handles and which fault ends the build. -/

namespace Lexicon

variable {Hook : Type}

namespace Registry

section Success

/-- The words can be registered in any order. -/
structure Fit (words : List String) : Prop where
  spelled : ∀ word ∈ words, Keyword.isSpelling word = true
  distinct : words.Nodup
  room : words.length ≤ Reserved.capacity

variable {words permuted : List String}

/-- Fitness does not depend on the order. -/
theorem Fit.perm (fit : Fit words) (perm : words.Perm permuted) : Fit permuted where
  spelled := fun word member => fit.spelled word (perm.mem_iff.mpr member)
  distinct := perm.nodup_iff.mp fit.distinct
  room := by
    rw [← perm.length_eq]
    exact fit.room

/-- Among fit words none is at fault. -/
theorem Fit.faultAt?_eq_none (fit : Fit words) (index : Nat) : faultAt? words index = none := by
  rw [faultAt?]
  cases stands : words[index]? with
  | none => rfl
  | some word =>
      obtain ⟨inside, here⟩ := List.getElem?_eq_some_iff.mp stands
      have spelled : ¬(word = "" ∨ word.toList.any Text.isWhiteSpace = true) := by
        rw [← Keyword.isSpelling_eq_false_iff, Bool.not_eq_false]
        exact fit.spelled word (List.mem_of_getElem? stands)
      have first : word ∉ words.take index := by
        intro earlier
        obtain ⟨other, before, same⟩ := List.mem_take_iff_getElem.mp earlier
        have place := fit.distinct.getElem_inj_iff.mp (same.trans here.symm)
        omega
      have room : index ≠ 65496 := Nat.ne_of_lt (Nat.lt_of_lt_of_le inside fit.room)
      rw [Option.bind_some, if_neg spelled, if_neg first, if_neg room]

/-- The words of a registry are fit. -/
theorem Represents.fit {registry : Registry Hook}
    (represents : registry.Represents (words.map .ofGrammar)) : Fit words where
  spelled := fun word member => represents.spelled _ (List.mem_map_of_mem member)
  distinct := by
    have distinct := represents.nodup_spellings
    rwa [spelling_ofGrammar] at distinct
  room := by
    have within := represents.length_le
    rwa [List.length_map] at within

/-- A build succeeds exactly when its words are fit. -/
theorem exists_ofWords_iff_fit (words : List String) :
    (∃ registry, (ofWords Hook words).result = .ok registry) ↔ Fit words := by
  constructor
  · intro succeeds
    obtain ⟨registry, built⟩ := succeeds
    exact (represents_of_ofWords built).fit
  · intro fit
    have outcome :=
      registerAll_outcome [] (@new_represents Hook) (Catalog.newEvents Hook) words nofun
    -- A build that fails would name a word at fault.
    rcases outcome with ⟨index, _, least, _⟩ | ⟨_, registry, built, _⟩
    · exact absurd (fit.faultAt?_eq_none index) least.1
    · exact ⟨registry, built⟩

end Success

section Meaning

/-- Under the two handles the registries say the same, and the descriptors differ only by the
handle. -/
structure DescribeAlike (one other : Registry Hook) (handle twin : Handle) : Prop where
  descriptor : ∃ descriptor, one.descriptor? handle = some descriptor ∧
    other.descriptor? twin = some { descriptor with handle := twin }
  name : ∃ name, one.catalog.name? handle = some name ∧ other.catalog.name? twin = some name
  tier : one.tier? handle = other.tier? twin
  associativity : one.associativity? handle = other.associativity? twin
  slash : one.slashStartsRegex (some handle) = other.slashStartsRegex (some twin)

/-- Both registries reserve the same words and describe them alike. They use the same handles, and
those of the kinds are the same. -/
structure SameMeaning (one other : Registry Hook) : Prop where
  keyword : ∀ word, (one.keyword? word = none ∧ other.keyword? word = none) ∨
    ∃ handle twin, one.keyword? word = some handle ∧ other.keyword? word = some twin ∧
      DescribeAlike one other handle twin
  handles : ∀ handle, one.descriptor? handle = none ↔ other.descriptor? handle = none
  keywordHandles : one.keywords.handles = other.keywords.handles
  kind : ∀ kind : Kind, one.handle? kind.name = some kind.handle ∧
    other.handle? kind.name = some kind.handle ∧ DescribeAlike one other kind.handle kind.handle

variable {one other : Registry Hook} {words others : List Reserved}

/-- All that is said of a handle is read off its descriptor and its name. -/
theorem describeAlike_of_descriptor {handle twin : Handle} {descriptor : Descriptor Hook}
    {name : String}
    (stands : one.descriptor? handle = some descriptor)
    (again : other.descriptor? twin = some { descriptor with handle := twin })
    (named : one.catalog.name? handle = some name)
    (namedAgain : other.catalog.name? twin = some name) : DescribeAlike one other handle twin where
  descriptor := ⟨descriptor, stands, again⟩
  name := ⟨name, named, namedAgain⟩
  tier := by
    rw [tier?, tier?, stands, again]
    rfl
  associativity := by
    rw [associativity?, associativity?, stands, again]
    rfl
  slash := by
    rw [slashStartsRegex, slashStartsRegex, stands, again]
    rfl

/-- As many words take the same handles. -/
theorem Represents.handles_eq_of_length (represents : one.Represents words)
    (again : other.Represents others) (length : words.length = others.length) :
    one.keywords.handles = other.keywords.handles := by
  have positions := represents.handles_eq
  rw [length, ← again.handles_eq] at positions
  refine List.map_injective_iff.mpr ?_ positions
  intro handle twin same
  rw [← Handle.ofPosition_position handle, same, Handle.ofPosition_position]

/-- Registries of permuted words mean the same. -/
theorem Represents.sameMeaning {words permuted : List String}
    (represents : one.Represents (words.map .ofGrammar))
    (again : other.Represents (permuted.map .ofGrammar)) (perm : words.Perm permuted) :
    SameMeaning one other where
  keyword := by
    intro word
    cases found : one.keyword? word with
    | none =>
        left
        rw [represents.keyword?_eq_none_iff, perm.mem_iff, ← again.keyword?_eq_none_iff] at found
        exact ⟨rfl, found⟩
    | some handle =>
        right
        obtain ⟨member, stands⟩ := represents.descriptor?_of_keyword? found
        have known : other.keyword? word ≠ none := by
          rw [ne_eq, again.keyword?_eq_none_iff, not_not]
          exact perm.mem_iff.mp member
        obtain ⟨twin, foundTwin⟩ := Option.ne_none_iff_exists'.mp known
        exact ⟨handle, twin, rfl, foundTwin, describeAlike_of_descriptor stands
          (again.descriptor?_of_keyword? foundTwin).2 (represents.name?_of_keyword? found)
          (again.name?_of_keyword? foundTwin)⟩
  handles := by
    intro handle
    rw [represents.descriptor?_eq_none_iff, again.descriptor?_eq_none_iff, List.length_map,
      List.length_map, perm.length_eq]
  keywordHandles := by
    apply represents.handles_eq_of_length again
    rw [List.length_map, List.length_map, perm.length_eq]
  kind := fun kind => ⟨represents.handle?_kind kind, again.handle?_kind kind,
    describeAlike_of_descriptor (represents.descriptor?_kind kind) (again.descriptor?_kind kind)
      (represents.name?_kind kind) (again.name?_kind kind)⟩

end Meaning

/-- Permuted lists of words are built or refused together, and the registries built from them mean
the same. -/
theorem ofWords_perm {words permuted : List String} (perm : words.Perm permuted) :
    ((∃ one, (ofWords Hook words).result = .ok one) ↔
      ∃ other, (ofWords Hook permuted).result = .ok other) ∧
    ∀ one other, (ofWords Hook words).result = .ok one →
      (ofWords Hook permuted).result = .ok other →
      SameMeaning one other := by
  constructor
  · rw [exists_ofWords_iff_fit, exists_ofWords_iff_fit]
    exact ⟨fun fit => fit.perm perm, fun fit => fit.perm perm.symm⟩
  · intro one other built again
    exact (represents_of_ofWords built).sameMeaning (represents_of_ofWords again) perm

/-- A keyword operator keeps its meaning when it moves to the front and its handle changes. -/
theorem ofWords_perm_of_operator :
    ["if", "do", "in"].Perm ["in", "if", "do"] ∧
      ∃ one other, (ofWords String ["if", "do", "in"]).result = .ok one ∧
        (ofWords String ["in", "if", "do"]).result = .ok other ∧
        one.keyword? "in" = some (.ofPosition 42) ∧ other.keyword? "in" = some (.ofPosition 40) ∧
        SameMeaning one other := by
  have perm : ["if", "do", "in"].Perm ["in", "if", "do"] := by decide
  obtain ⟨one, built, found⟩ : ∃ one, (ofWords String ["if", "do", "in"]).result = .ok one ∧
      one.keyword? "in" = some (.ofPosition 42) := exists_built (by decide +kernel)
  obtain ⟨other, again, moved⟩ : ∃ other, (ofWords String ["in", "if", "do"]).result = .ok other ∧
      other.keyword? "in" = some (.ofPosition 40) := exists_built (by decide +kernel)
  exact ⟨perm, one, other, built, again, found, moved, (ofWords_perm perm).2 one other built again⟩

end Registry

end Lexicon
