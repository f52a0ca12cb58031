import Lexicon.Proofs.Catalog.Rules
import Lexicon.Proofs.Registry.Growth

/-! A registration changes both tables or neither, whichever index and catalog are brought together. -/

namespace Lexicon

variable {Hook : Type}

namespace Registry

/-- The word stands at the end of both tables under the next handle. All else is as before. -/
structure Registered (before : Registry Hook) (word : Reserved) (handle : Handle)
    (after : Registry Hook) :
    Prop where
  position : handle.position = before.catalog.size
  size : after.catalog.size = before.catalog.size + 1
  entries : after.catalog.entries = before.catalog.entries ++
    [(Keyword.name word.spelling,
      ⟨handle, word.spelling, some word.spelling, word.attributes, none⟩)]
  rightAssociative : after.catalog.rightAssociative = before.catalog.rightAssociative
  found : after.keywords.get? word.spelling = some handle
  handles : after.keywords.handles = before.keywords.handles ++ [handle]
  others : ∀ other, other ≠ word.spelling →
    after.keywords.get? other = before.keywords.get? other

/-- Growing by a single word registers it. -/
theorem Grows.registered {before after : Registry Hook} {word : Reserved} {handle : Handle}
    (grows : before.Grows [⟨word, handle⟩] after)
    (right : after.catalog.rightAssociative = before.catalog.rightAssociative) :
    before.Registered word handle after where
  position := grows.position_of_getElem? List.getElem?_cons_zero
  size := grows.size
  entries := grows.entries
  rightAssociative := right
  found := (grows.keyword?_eq_some_iff word.spelling handle).mpr
    (.inr ⟨_, List.mem_singleton.mpr rfl, rfl, rfl⟩)
  handles := grows.handles_eq
  others := by
    intro other different
    apply Option.ext
    intro found
    refine (grows.keyword?_eq_some_iff other found).trans (or_iff_left ?_)
    intro admitted
    obtain ⟨_, member, same, _⟩ := admitted
    rw [List.mem_singleton.mp member] at same
    exact different same.symm

/-- A registration succeeds exactly when every rule is kept, and then its word is at the end of both
tables. Otherwise its error is that of the first broken rule, and both tables are as before. -/
theorem register_all_or_nothing {catalog : Catalog Hook} (tracked : catalog.Tracked)
    (keywords : KeywordIndex) (spelling : String) (attributes : Attributes) :
    let before : Registry Hook := ⟨catalog, keywords⟩
    let after := (before.register spelling attributes).1
    let result := (before.register spelling attributes).2.result
    ((∃ handle, result = .ok handle) ↔ ∀ rule ∈ before.rules spelling attributes, rule.kept) ∧
    (∀ handle, result = .ok handle → before.Registered ⟨spelling, attributes⟩ handle after) ∧
    (∀ error, result = .error error ↔
      FirstBroken error (before.rules spelling attributes)) ∧
    ∀ error, result = .error error → after = before := by
  intro before after result
  have numbered : before.catalog.Numbered := tracked.numbered
  have judged := register_judged numbered spelling attributes
  refine ⟨?_, ?_, ?_, ?_⟩
  · rw [← judged.accepts, Report.error?_eq_none_iff]
  · intro handle accepted
    rcases register_grows numbered ⟨spelling, attributes⟩ with
      ⟨error, refused, _⟩ | ⟨other, result, grows⟩
    · cases accepted.symm.trans refused
    · cases accepted.symm.trans result
      apply grows.registered
      have next := numbered.register keywords spelling attributes
      rw [numbered.rightAssociative]
      exact next.rightAssociative
  · intro error
    rw [← judged.refuses, Report.error?_eq_some_iff]
  · intro error refused
    rcases register_grows numbered ⟨spelling, attributes⟩ with
      ⟨_, _, same⟩ | ⟨_, accepted, _⟩
    · exact same
    · cases refused.symm.trans accepted

/-- An index that knows `of` from another catalog meets a catalog that has the name of `let`. The word
`let` is refused for its name before its flags, and `do` gets the next handle. -/
theorem register_into_foreign_catalog :
    let catalog := ((Catalog.new String).defineToken "_let" "let" .plain).1
    let foreign : Registry String := ⟨catalog, ((new String).register "of" .plain).1.keywords⟩
    let flags : Attributes := .ofFlags [.rightAssociative]
    catalog.Tracked ∧
      (foreign.register "let" flags).2.result = .error (.duplicateName "_let") ∧
      (foreign.register "let" flags).1 = foreign ∧
      foreign.Registered ⟨"do", .plain⟩ (.ofPosition 41) (foreign.register "do" .plain).1 := by
  intro catalog foreign flags
  have tracked : catalog.Tracked := .defineToken .new _ _ _
  have refused : (foreign.register "let" flags).2.result = .error (.duplicateName "_let") := by
    decide +kernel
  have accepted : (foreign.register "do" .plain).2.result = .ok (.ofPosition 41) := by
    decide +kernel
  obtain ⟨_, _, _, unchanged⟩ := register_all_or_nothing tracked foreign.keywords "let" flags
  obtain ⟨_, registered, _, _⟩ := register_all_or_nothing tracked foreign.keywords "do" .plain
  exact ⟨tracked, refused, unchanged _ refused, registered _ accepted⟩

end Registry

end Lexicon
