import Lexicon.Proofs.Catalog.Definitions

/-! A catalog is reachable when it was made new and then definitions and registrations were tried. -/

namespace Lexicon

variable {Hook : Type}

namespace Catalog

/-- A word can be registered through any index, and a refused step leads to the catalog that it leaves
behind. -/
inductive Reachable : Catalog Hook → Prop where
  | new : Reachable (new Hook)
  | defineToken {catalog : Catalog Hook} (reachable : Reachable catalog) (name label : String)
      (attributes : Attributes) : Reachable (catalog.defineToken name label attributes).1
  | defineBinary {catalog : Catalog Hook} (reachable : Reachable catalog) (name label : String)
      (level : UInt8) : Reachable (catalog.defineBinary name label level).1
  | register {catalog : Catalog Hook} (reachable : Reachable catalog) (keywords : KeywordIndex)
      (spelling : String) (attributes : Attributes) :
      Reachable (Registry.register ⟨catalog, keywords⟩ spelling attributes).1.catalog

namespace Holds

variable {catalog : Catalog Hook} {definitions : List Definition}

/-- A plain definition adds itself to the list or is refused. -/
theorem defineToken (holds : catalog.Holds definitions) (name label : String)
    (attributes : Attributes) :
    (catalog.defineToken name label attributes).1 = catalog ∨
      (catalog.defineToken name label attributes).1.Holds
        (definitions ++ [.plain name label attributes]) := by
  rcases catalog.define_cases name label none attributes with
    ⟨error, events, refused⟩ | ⟨accepted, room, defined⟩
  · left
    rw [Catalog.defineToken, refused]
  · right
    rw [Catalog.defineToken, defined]
    refine holds.append (.plain name label attributes) accepted room ?_
    intro own same
    cases same

/-- A registration adds a keyword to the list or is refused. -/
theorem register (holds : catalog.Holds definitions) (keywords : KeywordIndex) (spelling : String)
    (attributes : Attributes) :
    (Registry.register ⟨catalog, keywords⟩ spelling attributes).1 = ⟨catalog, keywords⟩ ∨
      (Registry.register ⟨catalog, keywords⟩ spelling attributes).1.catalog.Holds
        (definitions ++ [.keyword spelling attributes]) := by
  rcases Registry.register_cases ⟨catalog, keywords⟩ spelling attributes with
    ⟨error, events, refused⟩ | ⟨valid, _, accepted, room, _, registered⟩
  · left
    rw [refused]
  · right
    rw [registered]
    refine holds.append (.keyword spelling attributes) accepted room ?_
    intro own same
    cases same
    exact valid

end Holds

/-- Every reachable catalog holds some list of definitions. -/
theorem Reachable.holds {catalog : Catalog Hook} (reachable : catalog.Reachable) :
    ∃ definitions, catalog.Holds definitions := by
  induction reachable with
  | new => exact ⟨[], new_holds⟩
  | defineToken _ name label attributes ih =>
      obtain ⟨definitions, holds⟩ := ih
      rcases holds.defineToken name label attributes with refused | taken
      · rw [refused]
        exact ⟨definitions, holds⟩
      · exact ⟨_, taken⟩
  | defineBinary _ name label level ih =>
      obtain ⟨definitions, holds⟩ := ih
      rw [Catalog.defineBinary]
      rcases holds.defineToken name label (.binary level) with refused | taken
      · rw [refused]
        exact ⟨definitions, holds⟩
      · exact ⟨_, taken⟩
  | register _ keywords spelling attributes ih =>
      obtain ⟨definitions, holds⟩ := ih
      rcases holds.register keywords spelling attributes with refused | taken
      · rw [refused]
        exact ⟨definitions, holds⟩
      · exact ⟨_, taken⟩

end Catalog

end Lexicon
