import Lexicon.Proofs.Registry.Build

/-! Every reachable registry represents the words that it accepted. -/

namespace Lexicon

variable {Hook : Type}

namespace Registry

/-- A failed registration is a step too, and it leads to the registry that it leaves behind. -/
inductive Reachable : Registry Hook → Prop where
  | new : Reachable (new Hook)
  | ofWords {words : List String} {registry : Registry Hook}
      (built : (ofWords Hook words).result = .ok registry) : Reachable registry
  | ofOptions {options : Options} {registry : Registry Hook}
      (built : (ofOptions Hook options).result = .ok registry) : Reachable registry
  | register {registry : Registry Hook} (reachable : Reachable registry) (spelling : String)
      (attributes : Attributes) : Reachable (registry.register spelling attributes).1

/-- A built registry represents the words it was built from. -/
theorem represents_of_ofWords {words : List String} {registry : Registry Hook}
    (built : (ofWords Hook words).result = .ok registry) :
    registry.Represents (words.map .ofGrammar) := by
  have outcome := registerAll_outcome [] (@new_represents Hook) (Catalog.newEvents Hook) words nofun
  rw [List.nil_append] at outcome
  rcases outcome with ⟨_, _, _, _, ended⟩ | ⟨_, other, done, represents⟩
  · cases built.symm.trans ended
  · cases built.symm.trans done
    exact represents

/-- One more registration keeps the registry representing some list of words. -/
theorem Represents.register {registry : Registry Hook} {words : List Reserved}
    (represents : registry.Represents words) (spelling : String) (attributes : Attributes) :
    ∃ more, (registry.register spelling attributes).1.Represents more := by
  cases objection : Reserved.objection? words ⟨spelling, attributes⟩ with
  | some error =>
      have unchanged : (registry.register spelling attributes).1 = registry :=
        (represents.register_of_objection objection).1
      rw [unchanged]
      exact ⟨words, represents⟩
  | none => exact ⟨_, (represents.register_of_no_objection objection).1⟩

/-- Every reachable registry represents the words that it accepted. -/
theorem Reachable.represents {registry : Registry Hook} (reachable : registry.Reachable) :
    ∃ words, registry.Represents words := by
  induction reachable with
  | new => exact ⟨[], new_represents⟩
  | ofWords built => exact ⟨_, represents_of_ofWords built⟩
  | ofOptions built => exact ⟨_, represents_of_ofWords built⟩
  | register _ spelling attributes ih =>
      obtain ⟨words, represents⟩ := ih
      exact represents.register spelling attributes

end Registry

end Lexicon
