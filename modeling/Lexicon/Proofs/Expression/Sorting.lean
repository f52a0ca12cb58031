import Lexicon.Proofs.Expression.Agreement
import Lexicon.Proofs.Registry.Bare
import Lexicon.Proofs.Text.Spacing

/-! The words of a source are sorted into operands and operators one by one. -/

namespace Lexicon

variable {Hook : Type}

namespace Registry

/-- A punctuator is infix under the handle of its kind, and another word under its handle as a
keyword. -/
def Infix (registry : Registry Hook) (word : String) (handle : Handle) : Prop :=
  (∃ kind, Kind.ofPunctuator? word = some kind ∧
    (registry.tier? kind.handle).isSome = true ∧ handle = kind.handle) ∨
  (Kind.ofPunctuator? word = none ∧ registry.keyword? word = some handle ∧
    (registry.tier? handle).isSome = true)

/-- An infix word is an operator under its handle, and a word that is infix under no handle is an
operand. -/
structure SortsAs (registry : Registry Hook) (word : String) (item : Item) : Prop where
  operator : ∀ handle text, item = .operator handle text ↔
    text = word ∧ registry.Infix word handle
  operand : ∀ text, item = .operand text ↔
    text = word ∧ ∀ handle, ¬registry.Infix word handle

/-- A word is infix when its handle has a tier. -/
theorem infix_iff (registry : Registry Hook) (word : String) (handle : Handle) :
    registry.Infix word handle ↔
      registry.wordHandle? word = some handle ∧ (registry.tier? handle).isSome = true := by
  rw [Infix, wordHandle?]
  cases punctuator : Kind.ofPunctuator? word with
  | none => simp
  | some kind =>
      simp only [Option.some.injEq, exists_eq_left', reduceCtorEq, false_and, or_false]
      constructor
      · rintro ⟨tiered, rfl⟩
        exact ⟨rfl, tiered⟩
      · rintro ⟨rfl, tiered⟩
        exact ⟨tiered, rfl⟩

/-- An infix word is an operator. -/
theorem classify_eq_operator {registry : Registry Hook} {word : String} {handle : Handle}
    (isInfix : registry.Infix word handle) :
    registry.classify word = .operator handle word := by
  obtain ⟨found, tiered⟩ := (registry.infix_iff word handle).mp isInfix
  obtain ⟨tier, known⟩ := Option.isSome_iff_exists.mp tiered
  exact classify_of_tier? found known

/-- A word that is not infix is an operand. -/
theorem classify_eq_operand {registry : Registry Hook} {word : String}
    (isPlain : ∀ handle, ¬registry.Infix word handle) :
    registry.classify word = .operand word := by
  apply classify_of_wordTier?_eq_none
  rw [wordTier?, Option.bind_eq_none_iff]
  intro handle found
  rw [← Option.not_isSome_iff_eq_none]
  intro tiered
  exact isPlain handle ((registry.infix_iff word handle).mpr ⟨found, tiered⟩)

/-- A word is infix under one handle at most. -/
theorem Infix.unique {registry : Registry Hook} {word : String} {one other : Handle}
    (first : registry.Infix word one) (second : registry.Infix word other) : one = other := by
  rw [infix_iff] at first second
  exact Option.some.inj (first.1.symm.trans second.1)

/-- Every word is sorted as it should be. -/
theorem classify_sortsAs (registry : Registry Hook) (word : String) :
    registry.SortsAs word (registry.classify word) := by
  by_cases found : ∃ handle, registry.Infix word handle
  · obtain ⟨handle, isInfix⟩ := found
    rw [classify_eq_operator isInfix]
    constructor
    · intro other text
      rw [Item.operator.injEq]
      constructor
      · rintro ⟨rfl, rfl⟩
        exact ⟨rfl, isInfix⟩
      · rintro ⟨rfl, again⟩
        exact ⟨isInfix.unique again, rfl⟩
    · intro text
      simp only [reduceCtorEq, false_iff]
      exact fun plain => plain.2 handle isInfix
  · rw [not_exists] at found
    rw [classify_eq_operand found]
    constructor
    · intro handle text
      simp only [reduceCtorEq, false_iff]
      exact fun operator => found handle operator.2
    · intro text
      simp only [Item.operand.injEq, found, not_false_eq_true, implies_true, and_true]
      exact eq_comm

/-- An item keeps the text of its word. -/
theorem text_classify (registry : Registry Hook) (word : String) :
    (registry.classify word).text = word := by
  by_cases found : ∃ handle, registry.Infix word handle
  · obtain ⟨handle, isInfix⟩ := found
    rw [classify_eq_operator isInfix, Item.text]
  · rw [classify_eq_operand (not_exists.mp found), Item.text]

/-- Hooks do not matter to the tier. -/
theorem tier?_bare (registry : Registry Hook) (handle : Handle) :
    registry.bare.tier? handle = registry.tier? handle := by
  rw [tier?, tier?, descriptor?_bare]
  cases registry.descriptor? handle <;> rfl

/-- A word is sorted without regard to the hooks. -/
theorem classify_bare (registry : Registry Hook) (word : String) :
    registry.bare.classify word = registry.classify word := by
  have same : registry.bare.wordHandle? word = registry.wordHandle? word := rfl
  rw [classify, classify, same]
  simp only [tier?_bare]

/-- The item of a word does not depend on the hooks. -/
theorem item_bare (registry : Registry Hook) (word : String) :
    registry.bare.item word = registry.item word := by
  have same : registry.bare.wordHandle? word = registry.wordHandle? word := rfl
  rw [item, item, same]
  cases registry.wordHandle? word with
  | none => rfl
  | some handle =>
      simp only [Catalog.index, bare, Catalog.descriptor?_bare, Catalog.size_bare]
      cases registry.catalog.descriptor? handle <;> rfl

/-- Hooks do not matter to a lexer. -/
theorem lex_bare (registry : Registry Hook) (source : String) :
    registry.bare.lex source = registry.lex source := by
  rw [lex, lex, funext registry.item_bare]

/-- Every source has one item for each of its words, in their order. -/
theorem Tracked.lex_eq {registry : Registry Hook} (tracked : registry.Tracked) (source : String) :
    registry.lex source = .ok ((Text.words source).map registry.classify) := by
  obtain ⟨_, represents⟩ := tracked.represents_bare
  rw [← lex_bare, represents.lex_eq, funext registry.classify_bare]

/-- The words of a source that is laid out by words are these words. -/
theorem Tracked.lex_layOut {registry : Registry Hook} (tracked : registry.Tracked)
    {lead : String} {placed : List Text.Placed} (spaced : Text.Spaced lead placed) :
    registry.lex (Text.layOut lead placed) =
      .ok (placed.map fun each => registry.classify each.word) := by
  rw [tracked.lex_eq, Text.words_layOut spaced, List.map_map]
  rfl

/-- A keyword of a tracked registry has passed the check of its spelling. -/
theorem Tracked.isWord_of_keyword? {registry : Registry Hook} (tracked : registry.Tracked)
    {spelling : String} {handle : Handle} (found : registry.keyword? spelling = some handle) :
    Text.IsWord spelling := by
  obtain ⟨words, represents⟩ := tracked.represents_bare
  obtain ⟨reserved, member, rfl, _⟩ := represents.exists_reserved found
  exact (Keyword.isSpelling_eq_true_iff _).mp (represents.spelled reserved member)

/-- Later registrations and attachments, with or without success, lead onward. -/
inductive Onward (registry : Registry Hook) : Registry Hook → Prop where
  | here : Onward registry registry
  | register {last : Registry Hook} (onward : Onward registry last) (spelling : String)
      (attributes : Attributes) : Onward registry (last.register spelling attributes).1
  | attach {last : Registry Hook} (onward : Onward registry last) (handle : Handle) (hook : Hook) :
      Onward registry ⟨(last.catalog.attach handle hook).1, last.keywords⟩

/-- A tracked registry stays tracked. -/
theorem Onward.tracked {registry last : Registry Hook} (onward : registry.Onward last)
    (tracked : registry.Tracked) : last.Tracked := by
  induction onward with
  | here => exact tracked
  | register _ spelling attributes ih => exact ih.register spelling attributes
  | attach _ handle hook ih => exact ih.attach handle hook

/-- A registration takes no keyword away. -/
theorem Tracked.keyword?_register {registry : Registry Hook} (tracked : registry.Tracked)
    {word : String}
    {handle : Handle} (found : registry.keyword? word = some handle) (spelling : String)
    (attributes : Attributes) :
    (registry.register spelling attributes).1.keyword? word = some handle := by
  rcases register_grows tracked.catalog.numbered ⟨spelling, attributes⟩ with
    ⟨_, _, same⟩ | ⟨_, _, grows⟩
  · rw [same]
    exact found
  · rw [grows.keyword?_eq_some_iff]
    exact .inl found

/-- A keyword keeps its handle. -/
theorem Onward.keyword? {registry last : Registry Hook} (onward : registry.Onward last)
    (tracked : registry.Tracked) {word : String} {handle : Handle}
    (found : registry.keyword? word = some handle) : last.keyword? word = some handle := by
  induction onward with
  | here => exact found
  | register onward spelling attributes ih =>
      exact (onward.tracked tracked).keyword?_register ih spelling attributes
  | attach _ _ _ ih => exact ih

/-- The handle that a registration returns is that of the keyword. -/
theorem Tracked.keyword?_of_registered {registry : Registry Hook} (tracked : registry.Tracked)
    {spelling : String} {attributes : Attributes} {handle : Handle}
    (accepted : (registry.register spelling attributes).2.result = .ok handle) :
    (registry.register spelling attributes).1.keyword? spelling = some handle := by
  rcases register_grows tracked.catalog.numbered ⟨spelling, attributes⟩ with
    ⟨_, refused, _⟩ | ⟨own, again, grows⟩
  · cases refused.symm.trans accepted
  · cases again.symm.trans accepted
    rw [grows.keyword?_eq_some_iff]
    exact .inr ⟨_, List.mem_singleton.mpr rfl, rfl, rfl⟩

/-- The spelling can stand as a word in a source, and wherever it does it is an operator under the
handle. -/
structure Lexes (registry : Registry Hook) (spelling : String) (handle : Handle) : Prop where
  isWord : Text.IsWord spelling
  each : ∀ lead placed, Text.Spaced lead placed → ∃ items,
    registry.lex (Text.layOut lead placed) = .ok items ∧
      ∀ (index : Nat) (gap : String), placed[index]? = some ⟨spelling, gap⟩ →
        items[index]? = some (.operator handle spelling)

/-- A registered keyword with a tier can stand in a source as an operator. -/
theorem Tracked.lexes_of_keyword? {registry : Registry Hook} (tracked : registry.Tracked)
    {spelling : String} {handle : Handle} (found : registry.keyword? spelling = some handle)
    (plain : Kind.ofPunctuator? spelling = none)
    (tiered : (registry.tier? handle).isSome = true) : registry.Lexes spelling handle where
  isWord := tracked.isWord_of_keyword? found
  each := by
    intro lead placed spaced
    refine ⟨_, tracked.lex_layOut spaced, ?_⟩
    intro index gap stands
    have isInfix : registry.Infix spelling handle := .inr ⟨plain, found, tiered⟩
    rw [List.getElem?_map, stands, Option.map_some, classify_eq_operator isInfix]

/-- Lexing sorts each word of a source by the punctuators and the keywords, whatever white space
stands between. A keyword with a tier that is no punctuator is always lexed to an operator, under
the handle that its registration returned. -/
theorem Tracked.lex_sorts_words {registry : Registry Hook} (tracked : registry.Tracked) :
    (∀ lead placed, Text.Spaced lead placed → ∃ items,
      registry.lex (Text.layOut lead placed) = .ok items ∧
        items.map Item.text = placed.map Text.Placed.word ∧
        List.Forall₂ (fun each item => registry.SortsAs each.word item) placed items) ∧
    (∀ spelling handle, registry.keyword? spelling = some handle →
      Kind.ofPunctuator? spelling = none → (registry.tier? handle).isSome = true →
        registry.Lexes spelling handle) ∧
    ∀ spelling attributes handle,
      (registry.register spelling attributes).2.result = .ok handle →
        ∀ last, (registry.register spelling attributes).1.Onward last →
          Kind.ofPunctuator? spelling = none → (last.tier? handle).isSome = true →
            last.Lexes spelling handle := by
  refine ⟨?_, ?_, ?_⟩
  · intro lead placed spaced
    refine ⟨_, tracked.lex_layOut spaced, ?_, ?_⟩
    · rw [List.map_map]
      apply List.map_congr_left
      intro each _
      exact registry.text_classify each.word
    · rw [List.forall₂_map_right_iff, List.forall₂_same]
      intro each _
      exact registry.classify_sortsAs each.word
  · intro spelling handle found plain tiered
    exact tracked.lexes_of_keyword? found plain tiered
  · intro spelling attributes handle accepted last onward plain tiered
    have next := tracked.register spelling attributes
    have found := onward.keyword? next (tracked.keyword?_of_registered accepted)
    exact (onward.tracked next).lexes_of_keyword? found plain tiered

/-- A punctuator stands before a keyword that is spelled like it. Any white space parts the words,
and the hook of a keyword makes no difference. -/
theorem lex_of_spelled_punctuator :
    let first := ((new String).register "+" (.binary Level.additive)).1
    let second := (first.register "in" (.binary Level.relational)).1
    let last : Registry String :=
      ⟨(second.catalog.attach (.ofPosition 41) "names").1, second.keywords⟩
    let placed : List Text.Placed := [⟨"a", " "⟩, ⟨"in", "\u3000"⟩, ⟨"+", "\n"⟩, ⟨"b", ""⟩]
    let items : List Item :=
      [.operand "a", .operator (.ofPosition 41) "in", .operator (.ofPosition 35) "+", .operand "b"]
    last.Tracked ∧ Text.Spaced "\t" placed ∧ last.keyword? "+" = some (.ofPosition 40) ∧
      last.lex (Text.layOut "\t" placed) = .ok items ∧
      List.Forall₂ (fun each item => last.SortsAs each.word item) placed items ∧
      last.Lexes "in" (.ofPosition 41) := by
  intro first second last placed items
  have start : first.Tracked := .register (.reachable .new) _ _
  have tracked : last.Tracked := .attach (.register start _ _) _ _
  have spaced : Text.Spaced "\t" placed := by decide +kernel
  have read : last.lex (Text.layOut "\t" placed) = .ok items := by decide +kernel
  obtain ⟨found, lexed, _, sorted⟩ := tracked.lex_sorts_words.1 "\t" placed spaced
  cases lexed.symm.trans read
  have accepted : (first.register "in" (.binary Level.relational)).2.result =
      .ok (.ofPosition 41) := by decide +kernel
  have onward : second.Onward last := .attach .here _ _
  have lexes := start.lex_sorts_words.2.2 "in" _ _ accepted last onward (by decide)
    (by decide +kernel)
  exact ⟨tracked, spaced, by decide +kernel, read, sorted, lexes⟩

end Registry

end Lexicon
