import Lexicon.Proofs.Expression.Sorting

/-! A slash after an infix operator should start a regular expression. -/

namespace Lexicon

variable {Hook : Type}

/-- A token is an infix operator by the flag of assignments or by its level. -/
theorem Descriptor.isSome_tier?_iff (descriptor : Descriptor Hook) :
    descriptor.tier?.isSome = true ↔
      descriptor.has .isAssign = true ∨ descriptor.level.isSome = true := by
  rw [tier?]
  cases descriptor.has .isAssign <;> simp

/-- An expression may follow every punctuator that is an infix operator. -/
theorem Kind.has_beforeExpr_of_tier? (kind : Kind) {descriptor : Descriptor Hook}
    (same : descriptor.attributes = kind.attributes) (tiered : descriptor.tier?.isSome = true) :
    descriptor.has .beforeExpr = true := by
  have followed : kind.attributes.has .isAssign = true ∨ kind.attributes.level.isSome = true →
      kind.attributes.has .beforeExpr = true := by
    cases kind <;> decide
  rw [← same] at followed
  exact followed (descriptor.isSome_tier?_iff.mp tiered)

namespace Registry

/-- The token type of the handle has the flag. -/
def flagged (registry : Registry Hook) (handle : Handle) (flag : Flag) : Bool :=
  (registry.descriptor? handle).any fun descriptor => descriptor.has flag

/-- The scanner expects an operand after every operator of the source, as the climber does. -/
def SlashAgrees (registry : Registry Hook) (source : String) : Prop :=
  ∃ items, registry.lex source = .ok items ∧
    ∀ handle text, .operator handle text ∈ items →
      registry.slashStartsRegex (some handle) = true

/-- A keyword is an assignment that no expression may follow. -/
structure Unfollowed (registry : Registry Hook) (word : String) (handle : Handle) : Prop where
  plain : Kind.ofPunctuator? word = none
  keyword : registry.keyword? word = some handle
  assigns : registry.flagged handle .isAssign = true
  closed : registry.flagged handle .beforeExpr = false

/-- The slash is decided by the flag of the type before it. -/
theorem slashStartsRegex_eq_flagged (registry : Registry Hook) (handle : Handle) :
    registry.slashStartsRegex (some handle) = registry.flagged handle .beforeExpr := by
  rw [slashStartsRegex, flagged]
  cases registry.descriptor? handle <;> rfl

/-- The flags of a type do not depend on its hook. -/
theorem flagged_bare (registry : Registry Hook) (handle : Handle) (flag : Flag) :
    registry.bare.flagged handle flag = registry.flagged handle flag := by
  rw [flagged, flagged, descriptor?_bare]
  cases registry.descriptor? handle <;> rfl

section Words

variable {registry : Registry Hook} {words : List Reserved}

/-- The flags of a handle are those of its descriptor. -/
theorem flagged_of_descriptor? {handle : Handle} {descriptor : Descriptor Hook}
    (stands : registry.descriptor? handle = some descriptor) (flag : Flag) :
    registry.flagged handle flag = descriptor.has flag := by
  rw [flagged, stands, Option.any_some]

/-- The check of a definition lets an operator without the flag for an expression through only as an
assignment. -/
theorem Represents.flagged_of_tier? (represents : registry.Represents words) {word : String}
    {handle : Handle} (found : registry.keyword? word = some handle)
    (tiered : (registry.tier? handle).isSome = true)
    (closed : registry.flagged handle .beforeExpr = false) :
    registry.flagged handle .isAssign = true := by
  obtain ⟨reserved, member, _, stands⟩ := represents.exists_reserved found
  rw [flagged_of_descriptor? stands] at closed ⊢
  rw [tier?, stands, Option.bind_some, Descriptor.isSome_tier?_iff] at tiered
  rcases tiered with assigns | leveled
  · exact assigns
  · have followed := (represents.consistent reserved member).followed leveled
    cases followed.symm.trans closed

/-- Every kind with a tier lets an expression follow. -/
theorem Represents.flagged_kind (represents : registry.Represents words) {kind : Kind}
    (tiered : (registry.tier? kind.handle).isSome = true) :
    registry.flagged kind.handle .beforeExpr = true := by
  have stands := represents.descriptor?_kind kind
  rw [tier?, stands, Option.bind_some] at tiered
  rw [flagged_of_descriptor? stands]
  exact kind.has_beforeExpr_of_tier? rfl tiered

end Words

variable {registry : Registry Hook}

/-- A word without an expression after it is infix all the same. -/
theorem Unfollowed.isInfix {word : String} {handle : Handle}
    (unfollowed : registry.Unfollowed word handle) : registry.Infix word handle := by
  right
  refine ⟨unfollowed.plain, unfollowed.keyword, ?_⟩
  have assigns := unfollowed.assigns
  rw [flagged, Option.any_eq_true] at assigns
  obtain ⟨descriptor, stands, assigns⟩ := assigns
  rw [tier?, stands, Option.bind_some, Descriptor.isSome_tier?_iff]
  exact .inl assigns

/-- Of the infix words only an assignment without the flag is read as the end of an expression. -/
theorem Tracked.slashStartsRegex_eq_false_iff (tracked : registry.Tracked) {word : String}
    {handle : Handle} (isInfix : registry.Infix word handle) :
    registry.slashStartsRegex (some handle) = false ↔ registry.Unfollowed word handle := by
  obtain ⟨words, represents⟩ := tracked.represents_bare
  rw [slashStartsRegex_eq_flagged]
  constructor
  · intro closed
    rcases isInfix with ⟨kind, _, tiered, rfl⟩ | ⟨plain, found, tiered⟩
    · rw [← tier?_bare] at tiered
      have followed := represents.flagged_kind tiered
      rw [flagged_bare, closed] at followed
      cases followed
    · refine ⟨plain, found, ?_, closed⟩
      rw [← flagged_bare]
      apply represents.flagged_of_tier? found
      · rw [tier?_bare]
        exact tiered
      · rw [flagged_bare]
        exact closed
  · exact Unfollowed.closed

/-- The operators of a source are infix words, so the slash after each of them is known. -/
theorem Tracked.exists_read (tracked : registry.Tracked) (source : String) :
    ∃ items, registry.lex source = .ok items ∧
      ∀ handle text, .operator handle text ∈ items →
        (registry.slashStartsRegex (some handle) = false ↔ registry.Unfollowed text handle) := by
  refine ⟨_, tracked.lex_eq source, ?_⟩
  intro handle text member
  obtain ⟨word, _, same⟩ := List.mem_map.mp member
  obtain ⟨rfl, isInfix⟩ := ((registry.classify_sortsAs word).operator handle text).mp same
  exact tracked.slashStartsRegex_eq_false_iff isInfix

/-- Without such a keyword the scanner agrees with the climber. -/
theorem Tracked.slashAgrees (tracked : registry.Tracked)
    (followed : ∀ word handle, ¬registry.Unfollowed word handle) (source : String) :
    registry.SlashAgrees source := by
  obtain ⟨items, lexed, reads⟩ := tracked.exists_read source
  refine ⟨items, lexed, ?_⟩
  intro handle text member
  rw [← Bool.not_eq_false, reads handle text member]
  exact followed text handle

/-- A source of one infix word is the operator alone. -/
theorem Tracked.lex_word (tracked : registry.Tracked) {word : String} {handle : Handle}
    (isWord : Text.IsWord word) (isInfix : registry.Infix word handle) :
    ∃ source, registry.lex source = .ok [.operator handle word] := by
  have spaced : Text.Spaced "" [⟨word, ""⟩] := by
    constructor
    · exact nofun
    · exact List.forall_mem_singleton.mpr isWord
    · exact List.forall_mem_singleton.mpr nofun
    · exact nofun
  have lexed := tracked.lex_layOut spaced
  rw [List.map_singleton, classify_eq_operator isInfix] at lexed
  exact ⟨_, lexed⟩

/-- With such a keyword they do not agree on the source that is its spelling. -/
theorem Tracked.not_unfollowed (tracked : registry.Tracked)
    (agrees : ∀ source, registry.SlashAgrees source) (word : String) (handle : Handle) :
    ¬registry.Unfollowed word handle := by
  intro unfollowed
  have isWord := tracked.isWord_of_keyword? unfollowed.keyword
  obtain ⟨source, alone⟩ := tracked.lex_word isWord unfollowed.isInfix
  obtain ⟨items, lexed, reads⟩ := agrees source
  cases lexed.symm.trans alone
  have opens := reads handle word List.mem_cons_self
  rw [slashStartsRegex_eq_flagged, unfollowed.closed] at opens
  cases opens

/-- No word of the grammar is an assignment. -/
theorem not_unfollowed_of_ofWords {words : List String}
    (built : (ofWords Hook words).result = .ok registry) (word : String) (handle : Handle) :
    ¬registry.Unfollowed word handle := by
  intro unfollowed
  obtain ⟨_, stands⟩ := (represents_of_ofWords built).descriptor?_of_keyword? unfollowed.keyword
  have assigns := unfollowed.assigns
  rw [flagged_of_descriptor? stands, Descriptor.has, Keyword.has_isAssign_attributes] at assigns
  cases assigns

/-- A tracked registry reads a slash as a division after an operator exactly when the operator is an
assignment that was registered without the flag for an expression after it. Without such a keyword
the scanner agrees with the climber on every source, and the words of the grammar include none. -/
theorem Tracked.slash_after_operator (tracked : registry.Tracked) :
    (∀ source, ∃ items, registry.lex source = .ok items ∧
      ∀ handle text, .operator handle text ∈ items →
        (registry.slashStartsRegex (some handle) = false ↔ registry.Unfollowed text handle)) ∧
    ((∀ source, registry.SlashAgrees source) ↔ ∀ word handle, ¬registry.Unfollowed word handle) ∧
    ∀ words, (ofWords Hook words).result = .ok registry →
      ∀ source, registry.SlashAgrees source := by
  refine ⟨tracked.exists_read, ⟨tracked.not_unfollowed, tracked.slashAgrees⟩, ?_⟩
  intro words built source
  exact tracked.slashAgrees (not_unfollowed_of_ofWords built) source

/-- Beside an assignment without the flag, another operator of the source is still followed by an
expression. A registry of grammar words agrees on every source. -/
theorem slash_after_two_assignments :
    let registry := (((new String).register "becomes" (.ofFlags [.isAssign])).1.register "is"
      (.ofFlags [.beforeExpr, .isAssign])).1
    registry.Tracked ∧ registry.slashStartsRegex (some (.ofPosition 40)) = false ∧
      registry.slashStartsRegex (some (.ofPosition 41)) = true ∧
      (¬∀ source, registry.SlashAgrees source) ∧
      ∃ grammar, (ofWords String ["if", "in"]).result = .ok grammar ∧
        grammar.SlashAgrees "a in /b/" := by
  intro registry
  have tracked : registry.Tracked := .register (.register (.reachable .new) _ _) _ _
  have read : registry.lex "a becomes b is c" =
      .ok [.operand "a", .operator (.ofPosition 40) "becomes", .operand "b",
        .operator (.ofPosition 41) "is", .operand "c"] := by decide +kernel
  have known : registry.keyword? "becomes" = some (.ofPosition 40) ∧
      registry.flagged (.ofPosition 40) .isAssign = true ∧
      registry.flagged (.ofPosition 40) .beforeExpr = false ∧
      registry.flagged (.ofPosition 41) .beforeExpr = true := by decide +kernel
  obtain ⟨keyword, assigns, closed, opens⟩ := known
  have unfollowed : registry.Unfollowed "becomes" (.ofPosition 40) :=
    ⟨by decide, keyword, assigns, closed⟩
  have followed : ¬registry.Unfollowed "is" (.ofPosition 41) := by
    intro other
    cases other.closed.symm.trans opens
  obtain ⟨each, agrees, _⟩ := tracked.slash_after_operator
  obtain ⟨items, lexed, reads⟩ := each "a becomes b is c"
  cases lexed.symm.trans read
  have first := (reads (.ofPosition 40) "becomes" (by simp)).mpr unfollowed
  have second : registry.slashStartsRegex (some (.ofPosition 41)) = true := by
    rw [← Bool.not_eq_false, reads (.ofPosition 41) "is" (by simp)]
    exact followed
  obtain ⟨grammar, built, _⟩ : ∃ grammar, (ofWords String ["if", "in"]).result = .ok grammar ∧
      grammar.keyword? "in" = some (.ofPosition 41) := exists_built (by decide +kernel)
  have grown : grammar.Tracked := .reachable (.ofWords built)
  refine ⟨tracked, first, second, ?_, grammar, built, ?_⟩
  · intro every
    exact agrees.mp every "becomes" (.ofPosition 40) unfollowed
  · exact grown.slash_after_operator.2.2 ["if", "in"] built "a in /b/"

/-- A keyword with the flag of assignments alone is accepted. The climber takes it for an operator
and asks for an operand, and the scanner takes the slash after it for a division. -/
theorem slash_after_bare_assignment :
    let registry := ((new String).register "becomes" (.ofFlags [.isAssign])).1
    ((new String).register "becomes" (.ofFlags [.isAssign])).2.result = .ok (.ofPosition 40) ∧
      registry.lex "a becomes /b/" =
        .ok [.operand "a", .operator (.ofPosition 40) "becomes", .operand "/b/"] ∧
      registry.slashStartsRegex (some (.ofPosition 40)) = false ∧
      ¬∀ other : Registry String, other.Reachable → ∀ source, other.SlashAgrees source := by
  intro registry
  have read : registry.lex "a becomes /b/" =
      .ok [.operand "a", .operator (.ofPosition 40) "becomes", .operand "/b/"] := by decide +kernel
  have closed : registry.slashStartsRegex (some (.ofPosition 40)) = false := by decide +kernel
  refine ⟨by decide +kernel, read, closed, ?_⟩
  intro every
  have reachable : registry.Reachable := .register .new _ _
  obtain ⟨items, lexed, reads⟩ := every registry reachable "a becomes /b/"
  cases lexed.symm.trans read
  have opens := reads (.ofPosition 40) "becomes" (by simp)
  cases opens.symm.trans closed

end Registry

end Lexicon
