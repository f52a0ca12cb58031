import Lexicon.Proofs.Catalog.Reachable

/-! The attributes of every token type of a reachable catalog fit together. -/

namespace Lexicon

variable {Hook : Type}

/-- Grouping to the right takes an assignment or a level together with right associativity. -/
theorem Descriptor.associativity?_eq (descriptor : Descriptor Hook) :
    descriptor.associativity? =
      if descriptor.has .isAssign = true ∨
          descriptor.has .rightAssociative = true ∧ descriptor.level.isSome = true then some .right
      else if descriptor.level.isSome then some .left
      else none := by
  rw [associativity?, tier?]
  cases descriptor.has .isAssign with
  | true => rfl
  | false =>
      cases descriptor.level with
      | none => simp
      | some level =>
          cases descriptor.has .rightAssociative with
          | true => rfl
          | false => rfl

namespace Catalog

/-- The descriptor of the handle breaks no rule of the catalog. -/
structure SoundAt (catalog : Catalog Hook) (handle : Handle) (descriptor : Descriptor Hook) :
    Prop where
  binary : ∀ level, descriptor.level = some level →
    1 ≤ level ∧ descriptor.has .beforeExpr = true ∧ descriptor.has .isAssign = false
  right : descriptor.has .rightAssociative = true ↔ handle = Kind.exponent.handle
  unary : descriptor.has .unaryPrefix = true ∨ descriptor.has .unaryPostfix = true →
    descriptor.has .startsExpr = true
  loop : descriptor.has .isLoop = true → descriptor.keyword.isSome = true
  keyword : ∀ spelling, descriptor.keyword = some spelling →
    spelling ≠ "" ∧ (∀ c ∈ spelling.toList, Text.isWhiteSpace c = false) ∧
      descriptor.label = spelling ∧ catalog.name? handle = some (Keyword.name spelling)
  tier : descriptor.tier? ≠ some (.binary 0)
  associativity : descriptor.associativity? =
    if descriptor.has .isAssign = true ∨ handle = Kind.exponent.handle then some .right
    else if descriptor.level.isSome then some .left
    else none

/-- A sound definition has a sound descriptor under its handle. -/
theorem soundAt_of_definition {catalog : Catalog Hook} {handle : Handle} {definition : Definition}
    (sound : definition.SoundAt handle.position)
    (named : catalog.name? handle = some definition.name) :
    catalog.SoundAt handle (definition.descriptor handle) := by
  have right : (definition.descriptor handle : Descriptor Hook).has .rightAssociative = true ↔
      handle = Kind.exponent.handle := sound.right.trans Kind.eq_handle_iff.symm
  refine ⟨?_, right, ?_, sound.consistent.reserved, ?_, ?_, ?_⟩
  · intro level has
    have leveled : definition.attributes.level.isSome = true := Option.isSome_of_mem has
    have nonzero : level ≠ 0 := by
      intro zero
      exact sound.consistent.positive (zero ▸ has)
    have positive := UInt8.lt_iff_toNat_lt.mp (UInt8.pos_iff_ne_zero.mpr nonzero)
    exact ⟨UInt8.le_iff_toNat_le.mpr positive, sound.consistent.followed leveled,
      sound.consistent.unassigned leveled⟩
  · intro unary
    exact sound.consistent.starting (Bool.or_eq_true_iff.mpr unary)
  · intro spelling own
    obtain ⟨nonempty, unbroken⟩ :=
      (Keyword.isSpelling_eq_true_iff spelling).mp (sound.spelled spelling own)
    have same := Definition.eq_keyword_of_spelling? own
    rw [same] at named ⊢
    exact ⟨nonempty, unbroken, rfl, named⟩
  · intro tier
    exact sound.consistent.positive (Descriptor.level_of_tier? tier)
  · have grouped : (definition.descriptor handle : Descriptor Hook).has .rightAssociative = true ∧
        (definition.descriptor handle : Descriptor Hook).level.isSome = true ↔
          handle = Kind.exponent.handle :=
      (and_iff_left_of_imp sound.consistent.leveled).trans right
    simp only [Descriptor.associativity?_eq, grouped]

/-- Every descriptor of a reachable catalog is sound under its handle. -/
theorem Reachable.descriptor_soundAt {catalog : Catalog Hook} (reachable : catalog.Reachable)
    {handle : Handle} {descriptor : Descriptor Hook}
    (found : catalog.descriptor? handle = some descriptor) :
    catalog.SoundAt handle descriptor := by
  obtain ⟨definitions, holds⟩ := reachable.holds
  rw [holds.descriptor?_eq, Option.map_eq_some_iff] at found
  obtain ⟨definition, stands, rfl⟩ := found
  apply soundAt_of_definition (holds.soundAt stands)
  rw [holds.name?_eq, stands, Option.map_some]

/-- A keyword that opens a loop and is an operator too keeps the unnamed bit, and a second
right-associative operator before it is refused. -/
theorem soundAt_of_looping_operator :
    let refused := ((new String).defineToken "power" "^^" ⟨⟨5⟩, some 12⟩).1
    let catalog := (Registry.register ⟨refused, .empty⟩ "until" ⟨⟨137⟩, some 255⟩).1.catalog
    let descriptor : Descriptor String :=
      ⟨.ofPosition 40, "until", some "until", ⟨⟨137⟩, some 255⟩, none⟩
    catalog.Reachable ∧ catalog.descriptor? (.ofPosition 40) = some descriptor ∧
      catalog.SoundAt (.ofPosition 40) descriptor := by
  intro refused catalog descriptor
  have first : refused.Reachable := .defineToken .new "power" "^^" ⟨⟨5⟩, some 12⟩
  have reachable : catalog.Reachable := .register first .empty "until" ⟨⟨137⟩, some 255⟩
  have found : catalog.descriptor? (.ofPosition 40) = some descriptor := by decide +kernel
  exact ⟨reachable, found, reachable.descriptor_soundAt found⟩

end Catalog

end Lexicon
