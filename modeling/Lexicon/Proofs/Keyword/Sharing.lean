import Lexicon.Proofs.Catalog.Keywords

/-! Every keyword of a catalog that several indexes share belongs to exactly one of them. -/

namespace Lexicon

variable {Hook : Type}

/-- Each owner registers words through an index of its own, and all words go into the one catalog. -/
structure SharedCatalog (Owner Hook : Type) where
  catalog : Catalog Hook
  keywords : Owner → KeywordIndex

namespace SharedCatalog

variable {Owner : Type}

/-- At first every index is empty. -/
def new : SharedCatalog Owner Hook := ⟨.new Hook, fun _ => .empty⟩

def defineToken (shared : SharedCatalog Owner Hook) (name label : String) (attributes : Attributes)
    :
    SharedCatalog Owner Hook :=
  { shared with catalog := (shared.catalog.defineToken name label attributes).1 }

def defineBinary (shared : SharedCatalog Owner Hook) (name label : String) (level : UInt8) :
    SharedCatalog Owner Hook :=
  { shared with catalog := (shared.catalog.defineBinary name label level).1 }

/-- The indexes divide the keywords of the catalog among them and keep their order. -/
structure Divides (shared : SharedCatalog Owner Hook) : Prop where
  ordered : ∀ owner, (shared.keywords owner).toList.Sublist shared.catalog.keywords
  owned : ∀ pair ∈ shared.catalog.keywords, ∃! owner, pair ∈ (shared.keywords owner).toList

/-- A new catalog has no keyword to divide. -/
theorem new_divides : (new : SharedCatalog Owner Hook).Divides where
  ordered := fun _ => List.nil_sublist _
  owned := by
    intro pair member
    simp only [new, Catalog.keywords_new, List.not_mem_nil] at member

namespace Divides

variable {shared : SharedCatalog Owner Hook}

/-- A plain definition adds no keyword. -/
theorem defineToken (divides : shared.Divides) (name label : String) (attributes : Attributes) :
    (shared.defineToken name label attributes).Divides := by
  have same : (shared.catalog.defineToken name label attributes).1.keywords =
      shared.catalog.keywords := by
    rw [Catalog.defineToken]
    rcases shared.catalog.define_cases name label none attributes with
      ⟨error, events, refused⟩ | ⟨_, _, defined⟩
    · rw [refused]
    · rw [defined]
      exact shared.catalog.keywords_append_none name label attributes
  exact ⟨same ▸ divides.ordered, same ▸ divides.owned⟩

/-- A fresh pair that goes to the end of the keywords of the catalog and of one index belongs to the
owner of this index. -/
theorem add (divides : shared.Divides) {pair : String × Handle}
    (fresh : pair ∉ shared.catalog.keywords) {next : SharedCatalog Owner Hook} (owner : Owner)
    (added : next.catalog.keywords = shared.catalog.keywords ++ [pair])
    (indexed : (next.keywords owner).toList = (shared.keywords owner).toList ++ [pair])
    (others : ∀ other, other ≠ owner → next.keywords other = shared.keywords other) :
    next.Divides := by
  constructor
  · intro other
    rw [added]
    by_cases own : other = owner
    · rw [own, indexed]
      exact (divides.ordered owner).append (List.Sublist.refl _)
    · rw [others other own]
      exact (divides.ordered other).trans (List.sublist_append_left _ _)
  · intro any member
    rw [added, List.mem_append, List.mem_singleton] at member
    rcases member with old | rfl
    · obtain ⟨holder, holds, only⟩ := divides.owned any old
      -- The new pair is no old one, so every index holds the old pair as before.
      have kept : ∀ other, any ∈ (next.keywords other).toList ↔
          any ∈ (shared.keywords other).toList := by
        intro other
        by_cases own : other = owner
        · rw [own, indexed, List.mem_append, List.mem_singleton, or_iff_left]
          intro same
          exact fresh (same ▸ old)
        · rw [others other own]
      exact ⟨holder, (kept holder).mpr holds, fun other held => only other ((kept other).mp held)⟩
    · refine ⟨owner, ?_, ?_⟩
      · change any ∈ (next.keywords owner).toList
        rw [indexed]
        exact List.mem_append_right _ (List.mem_singleton.mpr rfl)
      · intro other held
        by_contra own
        rw [others other own] at held
        exact fresh ((divides.ordered other).subset held)

end Divides

variable [DecidableEq Owner]

/-- The catalog and the index of the owner make up the registry that takes the word. -/
def register (shared : SharedCatalog Owner Hook) (owner : Owner) (spelling : String)
    (attributes : Attributes) : SharedCatalog Owner Hook :=
  let registry := (Registry.register ⟨shared.catalog, shared.keywords owner⟩ spelling attributes).1
  ⟨registry.catalog, Function.update shared.keywords owner registry.keywords⟩

/-- A registration goes to the index of its owner. -/
theorem keywords_register_self (shared : SharedCatalog Owner Hook) (owner : Owner)
    (spelling : String)
    (attributes : Attributes) :
    (shared.register owner spelling attributes).keywords owner =
      (Registry.register ⟨shared.catalog, shared.keywords owner⟩ spelling attributes).1.keywords :=
  Function.update_self owner _ _

/-- The indexes of the other owners stay as they are. -/
theorem keywords_register_of_ne (shared : SharedCatalog Owner Hook) {owner other : Owner}
    (own : other ≠ owner) (spelling : String) (attributes : Attributes) :
    (shared.register owner spelling attributes).keywords other = shared.keywords other :=
  Function.update_of_ne own _ _

/-- Definitions and registrations of any owner follow each other in any order, with or without
success. -/
inductive Reachable : SharedCatalog Owner Hook → Prop where
  | new : Reachable new
  | defineToken {shared : SharedCatalog Owner Hook} (reachable : Reachable shared)
      (name label : String)
      (attributes : Attributes) : Reachable (shared.defineToken name label attributes)
  | defineBinary {shared : SharedCatalog Owner Hook} (reachable : Reachable shared)
      (name label : String) (level : UInt8) : Reachable (shared.defineBinary name label level)
  | register {shared : SharedCatalog Owner Hook} (reachable : Reachable shared) (owner : Owner)
      (spelling : String) (attributes : Attributes) :
      Reachable (shared.register owner spelling attributes)

/-- The catalog alone passes through the same steps. -/
theorem Reachable.catalog {shared : SharedCatalog Owner Hook} (reachable : shared.Reachable) :
    shared.catalog.Reachable := by
  induction reachable with
  | new =>
      rw [SharedCatalog.new]
      exact .new
  | defineToken _ name label attributes ih => exact ih.defineToken name label attributes
  | defineBinary _ name label level ih => exact ih.defineBinary name label level
  | @register shared _ owner spelling attributes ih =>
      exact ih.register (shared.keywords owner) spelling attributes

/-- A registration is refused and changes nothing, or its word goes to the owner. -/
theorem Divides.register {shared : SharedCatalog Owner Hook} (divides : shared.Divides)
    (reachable : shared.catalog.Reachable) (owner : Owner) (spelling : String)
    (attributes : Attributes) : (shared.register owner spelling attributes).Divides := by
  rcases Registry.register_cases ⟨shared.catalog, shared.keywords owner⟩ spelling attributes with
    ⟨error, events, refused⟩ | ⟨_, unindexed, _, room, _, registered⟩
  · have unchanged : shared.register owner spelling attributes = shared := by
      rw [SharedCatalog.register, refused, Function.update_eq_self]
    rw [unchanged]
    exact divides
  · obtain ⟨definitions, holds⟩ := reachable.holds
    have fresh : (spelling, Handle.ofPosition shared.catalog.size) ∉ shared.catalog.keywords := by
      intro member
      have before := holds.position_lt_of_mem_keywords member
      rw [Handle.position_ofPosition room] at before
      exact Nat.lt_irrefl _ before
    apply divides.add fresh owner
    · rw [SharedCatalog.register, registered]
      exact shared.catalog.keywords_append_some _ _ spelling attributes
    · rw [keywords_register_self, registered]
      exact KeywordIndex.toList_insert unindexed _
    · intro other own
      exact shared.keywords_register_of_ne own spelling attributes

/-- In every reachable state the keywords are divided among the owners. -/
theorem Reachable.divides {shared : SharedCatalog Owner Hook} (reachable : shared.Reachable) :
    shared.Divides := by
  induction reachable with
  | new => exact new_divides
  | defineToken _ name label attributes ih => exact ih.defineToken name label attributes
  | defineBinary _ name label level ih => exact ih.defineToken name label (.binary level)
  | register reachable owner spelling attributes ih =>
      exact ih.register reachable.catalog owner spelling attributes

/-- Every keyword of the catalog belongs to one owner, and the index of each owner lists its keywords
and nothing else. -/
structure Owned (shared : SharedCatalog Owner Hook) : Prop where
  known : ∀ owner spelling handle, (shared.keywords owner).get? spelling = some handle →
    shared.catalog.name? handle = some (Keyword.name spelling) ∧ ∃ descriptor,
      shared.catalog.descriptor? handle = some descriptor ∧ descriptor.keyword = some spelling ∧
        descriptor.label = spelling
  increasing : ∀ owner, (shared.keywords owner).handles.Pairwise fun earlier later =>
    earlier.position < later.position
  size : ∀ owner, (shared.keywords owner).handles.length = (shared.keywords owner).size
  listed : ∀ owner handle, handle ∈ (shared.keywords owner).handles ↔
    ∃ spelling, (shared.keywords owner).get? spelling = some handle
  spelling : ∀ first second spelling one other,
    (shared.keywords first).get? spelling = some one →
      (shared.keywords second).get? spelling = some other → first = second
  handle : ∀ first second handle, handle ∈ (shared.keywords first).handles →
    handle ∈ (shared.keywords second).handles → first = second
  keyword : ∀ handle descriptor, shared.catalog.descriptor? handle = some descriptor →
    descriptor.keyword.isSome = true → ∃! owner, handle ∈ (shared.keywords owner).handles
  plain : ∀ handle descriptor, shared.catalog.descriptor? handle = some descriptor →
    descriptor.keyword = none → ∀ owner, handle ∉ (shared.keywords owner).handles

section Division

variable {shared : SharedCatalog Owner Hook} {definitions : List Definition}

omit [DecidableEq Owner]

/-- What an owner finds is a keyword of the catalog. -/
theorem Divides.mem_keywords_of_get? (divides : shared.Divides) {owner : Owner} {spelling : String}
    {handle : Handle} (found : (shared.keywords owner).get? spelling = some handle) :
    (spelling, handle) ∈ shared.catalog.keywords :=
  (divides.ordered owner).subset (((shared.keywords owner).get?_eq_some_iff spelling handle).mp found)

/-- Two indexes that find one handle have the same owner. -/
theorem Divides.owner_unique (divides : shared.Divides) (holds : shared.catalog.Holds definitions)
    {first second : Owner} {one other : String} {handle : Handle}
    (found : (shared.keywords first).get? one = some handle)
    (again : (shared.keywords second).get? other = some handle) : first = second := by
  have member := divides.mem_keywords_of_get? found
  have same := holds.spelling_unique (divides.mem_keywords_of_get? again) member
  rw [same, KeywordIndex.get?_eq_some_iff] at again
  exact (divides.owned _ member).unique ((KeywordIndex.get?_eq_some_iff _ one handle).mp found) again

end Division

/-- In every run the indexes share out the keywords of the catalog, whatever plain definitions come
in between. -/
theorem Reachable.each_keyword_owned {shared : SharedCatalog Owner Hook}
    (reachable : shared.Reachable) :
    shared.Owned := by
  obtain ⟨definitions, holds⟩ := reachable.catalog.holds
  have divides := reachable.divides
  refine ⟨?_, ?_, ?_, ?_, ?_, ?_, ?_, ?_⟩
  · intro owner spelling handle found
    exact holds.keyword_of_mem_keywords (divides.mem_keywords_of_get? found)
  · intro owner
    rw [KeywordIndex.handles_eq_map]
    exact List.pairwise_map.mpr (holds.pairwise_keywords.sublist (divides.ordered owner))
  · intro owner
    exact (shared.keywords owner).length_handles
  · intro owner handle
    exact (shared.keywords owner).mem_handles_iff handle
  · intro first second spelling one other found again
    have same := holds.handle_unique (divides.mem_keywords_of_get? found)
      (divides.mem_keywords_of_get? again)
    exact divides.owner_unique holds found (same ▸ again)
  · intro first second handle listed again
    obtain ⟨one, found⟩ := ((shared.keywords first).mem_handles_iff handle).mp listed
    obtain ⟨other, again⟩ := ((shared.keywords second).mem_handles_iff handle).mp again
    exact divides.owner_unique holds found again
  · intro handle descriptor stands reserved
    obtain ⟨spelling, has⟩ := Option.isSome_iff_exists.mp reserved
    have member := (holds.mem_keywords_iff spelling handle).mpr ⟨descriptor, stands, has⟩
    obtain ⟨owner, held, _⟩ := divides.owned _ member
    have found := ((shared.keywords owner).get?_eq_some_iff spelling handle).mpr held
    refine ⟨owner, ((shared.keywords owner).mem_handles_iff handle).mpr ⟨spelling, found⟩, ?_⟩
    intro other listed
    obtain ⟨_, again⟩ := ((shared.keywords other).mem_handles_iff handle).mp listed
    exact divides.owner_unique holds again found
  · intro handle descriptor stands plain owner listed
    obtain ⟨spelling, found⟩ := ((shared.keywords owner).mem_handles_iff handle).mp listed
    obtain ⟨own, same, has⟩ :=
      (holds.mem_keywords_iff spelling handle).mp (divides.mem_keywords_of_get? found)
    rw [stands] at same
    cases same
    cases plain.symm.trans has

/-- Two owners register words, a plain definition takes the name of a third word, and the second owner
is refused the word of the first. -/
theorem each_keyword_owned_of_two :
    let squatted :=
      ((new : SharedCatalog Bool String).defineToken "_let" "let" .plain).register true "if" .plain
    let shared := (((squatted.register false "if" .plain).register true "let" .plain).register false
      "else" .plain).register true "do" .plain
    shared.Reachable ∧ shared.Owned ∧
      (shared.keywords true).handles = [.ofPosition 41, .ofPosition 43] ∧
      (shared.keywords false).handles = [.ofPosition 42] := by
  intro squatted shared
  have reachable : shared.Reachable :=
    .register (.register (.register (.register (.register (.defineToken .new _ _ _) _ _ _) _ _ _)
      _ _ _) _ _ _) _ _ _
  exact ⟨reachable, reachable.each_keyword_owned, by decide +kernel, by decide +kernel⟩

end SharedCatalog

end Lexicon
