import Lexicon.Expression.Climb
import Lexicon.Proofs.Registry.Reachable

/-! In a reachable registry every word of a source can be sorted. -/

namespace Lexicon

variable {Hook : Type}

namespace Registry

/-- The tier of the token type of a handle. -/
def tier? (registry : Registry Hook) (handle : Handle) : Option Tier :=
  (registry.descriptor? handle).bind Descriptor.tier?

/-- The associativity of the token type of a handle. -/
def associativity? (registry : Registry Hook) (handle : Handle) : Option Associativity :=
  (registry.descriptor? handle).bind Descriptor.associativity?

/-- A word whose token type has a tier is an operator, and every other word is an operand. -/
def classify (registry : Registry Hook) (word : String) : Item :=
  match registry.wordHandle? word with
  | none => .operand word
  | some handle =>
      if (registry.tier? handle).isSome then .operator handle word else .operand word

/-- The registry can bind an operator, and an operand needs no binding. -/
def Binds (registry : Registry Hook) : Item → Prop
  | .operand _ => True
  | .operator handle text => ∃ tier associativity,
      registry.binding handle text = .ok (tier, associativity)

/-- No operator of the registry has the level zero, below which no bound lies. -/
def Leveled (registry : Registry Hook) : Prop :=
  ∀ handle, registry.tier? handle ≠ some (.binary 0)

/-- A handle has an associativity when it has a tier. -/
theorem isSome_associativity? (registry : Registry Hook) (handle : Handle) :
    (registry.associativity? handle).isSome = (registry.tier? handle).isSome := by
  rw [associativity?, tier?]
  cases registry.descriptor? handle with
  | none => rfl
  | some descriptor => exact descriptor.isSome_associativity?

/-- A binding is the tier and the associativity of the handle. -/
theorem binding_eq_ok_iff (registry : Registry Hook) (handle : Handle) (text : String) (tier : Tier)
    (associativity : Associativity) :
    registry.binding handle text = .ok (tier, associativity) ↔
      registry.tier? handle = some tier ∧ registry.associativity? handle = some associativity := by
  rw [binding, Catalog.index, tier?, associativity?, descriptor?]
  cases registry.catalog.descriptor? handle with
  | none => simp
  | some descriptor =>
      simp only [Option.bind_some]
      split <;> simp_all

/-- A binding gives the tier of the handle. -/
theorem tier?_of_binding {registry : Registry Hook} {handle : Handle} {text : String} {tier : Tier}
    {associativity : Associativity}
    (binding : registry.binding handle text = .ok (tier, associativity)) :
    registry.tier? handle = some tier :=
  ((registry.binding_eq_ok_iff handle text tier associativity).mp binding).1

/-- An operator with a tier can be bound. -/
theorem exists_binding {registry : Registry Hook} {handle : Handle} {tier : Tier}
    (known : registry.tier? handle = some tier) (text : String) :
    ∃ associativity, registry.associativity? handle = some associativity ∧
      registry.binding handle text = .ok (tier, associativity) := by
  have grouped : (registry.associativity? handle).isSome = true := by
    rw [isSome_associativity?, known, Option.isSome_some]
  obtain ⟨associativity, groups⟩ := Option.isSome_iff_exists.mp grouped
  exact ⟨associativity, groups, (registry.binding_eq_ok_iff _ _ _ _).mpr ⟨known, groups⟩⟩

namespace Represents

variable {registry : Registry Hook} {words : List Reserved}

/-- Every descriptor has consistent attributes, so no level is zero. -/
theorem level_ne_zero (represents : registry.Represents words) {handle : Handle}
    {descriptor : Descriptor Hook} (stands : registry.descriptor? handle = some descriptor) :
    descriptor.level ≠ some 0 := by
  rw [represents.descriptor?_eq, Option.map_eq_some_iff] at stands
  obtain ⟨_, stands, rfl⟩ := stands
  rw [Reserved.getElem?_entries_eq_some_iff] at stands
  rcases stands with ⟨kind, _, rfl⟩ | ⟨index, word, _, stands, rfl⟩
  · have nonzero : kind.attributes.level ≠ some 0 := by cases kind <;> decide
    exact nonzero
  · exact (represents.consistent word (List.mem_of_getElem? stands)).positive

/-- No operator of a represented registry has the level zero. -/
theorem leveled (represents : registry.Represents words) : registry.Leveled := by
  intro handle found
  obtain ⟨descriptor, stands, tier⟩ := Option.bind_eq_some_iff.mp found
  exact represents.level_ne_zero stands (Descriptor.level_of_tier? tier)

/-- Every registry has the descriptor of a kind under its handle. -/
theorem descriptor?_kind (represents : registry.Represents words) (kind : Kind) :
    registry.descriptor? kind.handle = some kind.entry.2 := by
  have entry : (Reserved.entries words : List (Entry Hook))[kind.handle.position]? =
      some kind.entry :=
    Reserved.getElem?_entries_eq_some_iff.mpr (.inl ⟨kind, kind.position_handle, rfl⟩)
  rw [represents.descriptor?_eq, entry, Option.map_some]

/-- The handle of a word lies in the catalog. -/
theorem exists_descriptor (represents : registry.Represents words) {word : String}
    {handle : Handle} (found : registry.wordHandle? word = some handle) :
    ∃ descriptor, registry.descriptor? handle = some descriptor := by
  unfold wordHandle? at found
  split at found
  · rename_i kind _
    cases found
    exact ⟨_, represents.descriptor?_kind kind⟩
  · obtain ⟨index, reserved, place, stands, rfl⟩ :=
      (represents.keyword?_eq_some_iff _ _).mp found
    exact ⟨_, represents.descriptor?_of_stands place stands⟩

/-- Sorting a word never fails. -/
theorem item_eq (represents : registry.Represents words) (word : String) :
    registry.item word = .ok (registry.classify word) := by
  unfold item classify
  cases found : registry.wordHandle? word with
  | none => rfl
  | some handle =>
      obtain ⟨descriptor, stands⟩ := represents.exists_descriptor found
      have inside := (registry.catalog.index_eq_ok_iff handle descriptor).mpr stands
      have tier : registry.tier? handle = descriptor.tier? := by
        rw [tier?, stands, Option.bind_some]
      simp only [inside, tier]

/-- Every source has items, one for each of its words. -/
theorem lex_eq (represents : registry.Represents words) (source : String) :
    registry.lex source = .ok ((Text.words source).map registry.classify) := by
  rw [lex, funext represents.item_eq]
  exact List.mapM_pure

end Represents

/-- A word that is sorted as an operator binds. -/
theorem binds_classify (registry : Registry Hook) (word : String) :
    registry.Binds (registry.classify word) := by
  unfold classify
  split
  · trivial
  rename_i handle _
  split
  · rename_i tiered
    obtain ⟨tier, known⟩ := Option.isSome_iff_exists.mp tiered
    obtain ⟨associativity, _, binding⟩ := exists_binding known word
    exact ⟨tier, associativity, binding⟩
  · trivial

/-- No operator of a reachable registry has the level zero. -/
theorem Reachable.leveled {registry : Registry Hook} (reachable : registry.Reachable) :
    registry.Leveled := by
  obtain ⟨_, represents⟩ := reachable.represents
  exact represents.leveled

/-- A reachable registry sorts the words of every source, and it can bind all operators. -/
theorem Reachable.exists_items {registry : Registry Hook} (reachable : registry.Reachable)
    (source : String) :
    ∃ items, registry.lex source = .ok items ∧ ∀ item ∈ items, registry.Binds item := by
  obtain ⟨_, represents⟩ := reachable.represents
  refine ⟨_, represents.lex_eq source, ?_⟩
  intro item member
  obtain ⟨word, _, rfl⟩ := List.mem_map.mp member
  exact registry.binds_classify word

end Registry

end Lexicon
