import Lexicon.Proofs.Expression.Steps
import Mathlib.Data.List.Forall2

/-! Two registries that give the words of a source the same tiers read it alike. -/

namespace Lexicon

variable {Hook : Type}

/-- What a parse shows: its text, and how many of how many items it has read. -/
def Parse.outcome (parse : Parse) : String × Nat × Nat :=
  (parse.tree.render, parse.consumed, parse.total)

namespace Registry

/-- The tier that a word has as a keyword. -/
def keywordTier? (registry : Registry Hook) (word : String) : Option Tier :=
  (registry.keyword? word).bind registry.tier?

/-- Both parses fail with one fault or show one outcome, and so do both groupings. -/
structure ParsesAlike (one other : Registry Hook) (source : String) : Prop where
  parse : (one.parse source).map Parse.outcome = (other.parse source).map Parse.outcome
  group : one.group source = other.group source

section Climbs

/-- The items have one text, and as operators they are bound alike. -/
inductive Alike (one other : Registry Hook) : Item → Item → Prop where
  | operand (text : String) : Alike one other (.operand text) (.operand text)
  | operator {first second : Handle} {text : String} (tier : Tier) (associativity : Associativity)
      (binding : one.binding first text = .ok (tier, associativity))
      (again : other.binding second text = .ok (tier, associativity)) :
      Alike one other (.operator first text) (.operator second text)

/-- Both climbs end with one fault, or their trees have one text and they leave items that are alike. -/
inductive ClimbsAlike (one other : Registry Hook) :
    Except ClimbFault (Tree × List Item) → Except ClimbFault (Tree × List Item) → Prop where
  | fault (fault : ClimbFault) : ClimbsAlike one other (.error fault) (.error fault)
  | parts {left right : Tree} {rest others : List Item} (text : left.render = right.render)
      (alike : List.Forall₂ (Alike one other) rest others) :
      ClimbsAlike one other (.ok (left, rest)) (.ok (right, others))

variable {one other : Registry Hook}

/-- What follows two climbs that are alike is alike when it is so after their parts. -/
theorem ClimbsAlike.bind {first second : Except ClimbFault (Tree × List Item)}
    (alike : ClimbsAlike one other first second)
    {next again : Tree × List Item → Except ClimbFault (Tree × List Item)}
    (follows : ∀ left right rest others, first = .ok (left, rest) → left.render = right.render →
      List.Forall₂ (Alike one other) rest others →
        ClimbsAlike one other (next (left, rest)) (again (right, others))) :
    ClimbsAlike one other (first.bind next) (second.bind again) := by
  cases alike with
  | fault fault => exact .fault fault
  | parts text alike => exact follows _ _ _ _ rfl text alike

mutual

/-- Climbs over items that are alike go through the same steps. Only the handles in the trees differ. -/
theorem climbResult_alike (leveled : one.Leveled) (bound : Option Tier) {items others : List Item}
    (alike : List.Forall₂ (Alike one other) items others) :
    ClimbsAlike one other (one.climbResult bound items) (other.climbResult bound others) := by
  match items, others, alike with
  | [], [], .nil =>
      rw [climbResult_nil, climbResult_nil]
      exact .fault .ended
  | .operator _ text :: _, .operator _ _ :: _, .cons (.operator ..) _ =>
      rw [climbResult_operator, climbResult_operator]
      exact .fault (.operandExpected text)
  | .operand text :: rest, .operand _ :: more, .cons (.operand _) alikeRest =>
      rw [climbResult_operand, climbResult_operand]
      exact extendResult_alike leveled bound rfl alikeRest
termination_by items.length

/-- Alike trees and items are extended alike. -/
theorem extendResult_alike (leveled : one.Leveled) (bound : Option Tier) {left right : Tree}
    (text : left.render = right.render) {items others : List Item}
    (alike : List.Forall₂ (Alike one other) items others) :
    ClimbsAlike one other (one.extendResult bound left items)
      (other.extendResult bound right others) := by
  match items, others, alike with
  | [], [], .nil =>
      rw [extendResult_nil, extendResult_nil]
      exact .parts text .nil
  | .operand _ :: _, .operand _ :: _, .cons (.operand _) alikeRest =>
      rw [extendResult_operand, extendResult_operand]
      exact .parts text (.cons (.operand _) alikeRest)
  | .operator first operator :: rest, .operator second _ :: more,
      .cons (.operator tier associativity binding again) alikeRest =>
      cases taken : tier.within bound with
      | false =>
          rw [extendResult_of_not_within one bound binding taken,
            extendResult_of_not_within other bound again taken]
          exact .parts text (.cons (.operator tier associativity binding again) alikeRest)
      | true =>
          have known := tier?_of_binding binding
          obtain ⟨inner, below, _⟩ := leveled.exists_rightBound known associativity
          rw [extendResult_of_within one bound binding taken below,
            extendResult_of_within other bound again taken below]
          apply (climbResult_alike leveled inner alikeRest).bind
          intro tree twin unread unreadTwin climbed same alikeUnread
          -- The items left by the right side are alike again, and they are fewer than before.
          have shorter := length_le_of_climbResult climbed
          apply extendResult_alike leveled bound _ alikeUnread
          rw [Tree.render, Tree.render, text, same]
termination_by items.length
decreasing_by
  all_goals simp only [List.length_cons]
  all_goals omega

end

/-- A grouping depends on what the parse shows. -/
theorem group_eq_bind (registry : Registry Hook) (source : String) :
    registry.group source =
      ((registry.parse source).map Parse.outcome).bind fun (text, consumed, total) =>
        if consumed = total then .ok text else .error (.trailing source consumed total) := by
  rw [group]
  cases registry.parse source <;> rfl

/-- Sources whose items are alike are parsed alike. -/
theorem parsesAlike_of_lex (leveled : one.Leveled) {source : String} {items others : List Item}
    (lexed : one.lex source = .ok items) (again : other.lex source = .ok others)
    (alike : List.Forall₂ (Alike one other) items others) :
    ParsesAlike one other source := by
  have climbs := climbResult_alike leveled none alike
  have length := alike.length_eq
  have parse : (one.parse source).map Parse.outcome = (other.parse source).map Parse.outcome := by
    rw [parse_of_lex lexed, parse_of_lex again, length]
    generalize one.climbResult none items = first at climbs
    generalize other.climbResult none others = second at climbs
    cases climbs with
    | fault fault => rfl
    | parts text rests => simp only [Except.map, Parse.outcome, text, rests.length_eq]
  refine ⟨parse, ?_⟩
  rw [group_eq_bind, group_eq_bind, parse]

end Climbs

section Words

variable {registry : Registry Hook} {words : List Reserved}

/-- The tier of a keyword tells its associativity, as no keyword has the flag of exponentiation. -/
def keywordAssociativity : Tier → Associativity
  | .assignment => .right
  | .binary _ => .left

/-- The associativity of a keyword is that of its tier. -/
theorem Represents.associativity?_of_keyword? (represents : registry.Represents words)
    {word : String} {handle : Handle} (found : registry.keyword? word = some handle) :
    registry.associativity? handle = (registry.tier? handle).map keywordAssociativity := by
  obtain ⟨reserved, member, _, descriptor⟩ := represents.exists_reserved found
  have left := (represents.consistent reserved member).left
  rw [associativity?, tier?, descriptor, Option.bind_some, Option.bind_some,
    Descriptor.associativity?]
  apply congrArg (fun groups => Option.map groups _)
  funext tier
  cases tier with
  | assignment => rfl
  | binary level => simp [Descriptor.has, left, keywordAssociativity]

/-- The tier of a word as a punctuator or else as a keyword. -/
def wordTier? (registry : Registry Hook) (word : String) : Option Tier :=
  (registry.wordHandle? word).bind registry.tier?

/-- A word without a tier is an operand. -/
theorem classify_of_wordTier?_eq_none {word : String} (plain : registry.wordTier? word = none) :
    registry.classify word = .operand word := by
  rw [wordTier?] at plain
  rw [classify]
  cases found : registry.wordHandle? word with
  | none => rfl
  | some handle =>
      rw [found, Option.bind_some] at plain
      simp only [plain, Option.isSome_none, Bool.false_eq_true, if_false]

/-- A word with a tier is an operator. -/
theorem classify_of_tier? {word : String} {handle : Handle} {tier : Tier}
    (found : registry.wordHandle? word = some handle) (known : registry.tier? handle = some tier) :
    registry.classify word = .operator handle word := by
  rw [classify, found]
  simp only [known, Option.isSome_some, if_true]

end Words

section Agreement

variable {one other : Registry Hook} {words others : List Reserved}

/-- The words that are no punctuators have the same tiers as keywords. -/
def TiersAgree (one other : Registry Hook) (source : String) : Prop :=
  ∀ word ∈ Text.words source, Kind.ofPunctuator? word = none →
    one.keywordTier? word = other.keywordTier? word

/-- Under two handles a word with one tier has one associativity. -/
theorem Represents.associativity?_eq (represents : one.Represents words)
    (again : other.Represents others) {word : String} {first second : Handle}
    (found : one.wordHandle? word = some first) (twin : other.wordHandle? word = some second)
    (same : one.tier? first = other.tier? second) :
    one.associativity? first = other.associativity? second := by
  rw [wordHandle?] at found twin
  cases punctuator : Kind.ofPunctuator? word with
  | none =>
      simp only [punctuator] at found twin
      rw [represents.associativity?_of_keyword? found, again.associativity?_of_keyword? twin, same]
  | some kind =>
      simp only [punctuator, Option.some_inj] at found twin
      rw [← found, ← twin, associativity?, associativity?, represents.descriptor?_kind,
        again.descriptor?_kind]

/-- Agreement on the keywords is agreement on all words. -/
theorem Represents.wordTier?_eq (represents : one.Represents words)
    (again : other.Represents others) {word : String}
    (same : Kind.ofPunctuator? word = none → one.keywordTier? word = other.keywordTier? word) :
    one.wordTier? word = other.wordTier? word := by
  rw [wordTier?, wordTier?, wordHandle?, wordHandle?]
  cases punctuator : Kind.ofPunctuator? word with
  | none => exact same punctuator
  | some kind =>
      simp only [Option.bind_some]
      rw [tier?, tier?, represents.descriptor?_kind, again.descriptor?_kind]

/-- A word with one tier is one operand or an operator that is bound alike. -/
theorem Represents.classify_alike (represents : one.Represents words)
    (again : other.Represents others) {word : String}
    (same : one.wordTier? word = other.wordTier? word) :
    Alike one other (one.classify word) (other.classify word) := by
  cases tiered : other.wordTier? word with
  | none =>
      rw [classify_of_wordTier?_eq_none (same.trans tiered), classify_of_wordTier?_eq_none tiered]
      exact .operand word
  | some tier =>
      obtain ⟨first, found, known⟩ := Option.bind_eq_some_iff.mp (same.trans tiered)
      obtain ⟨second, twin, knownTwin⟩ := Option.bind_eq_some_iff.mp tiered
      obtain ⟨associativity, groups, binding⟩ := exists_binding known word
      have groupsTwin := represents.associativity?_eq again found twin (known.trans knownTwin.symm)
      rw [groups] at groupsTwin
      rw [classify_of_tier? found known, classify_of_tier? twin knownTwin]
      exact .operator tier associativity binding
        ((other.binding_eq_ok_iff _ _ _ _).mpr ⟨knownTwin, groupsTwin.symm⟩)

/-- Registries that agree on the tiers of the words of a source read it alike. -/
theorem Represents.parsesAlike (represents : one.Represents words)
    (again : other.Represents others) {source : String} (agree : TiersAgree one other source) :
    ParsesAlike one other source := by
  refine parsesAlike_of_lex represents.leveled (represents.lex_eq source) (again.lex_eq source) ?_
  rw [List.forall₂_map_left_iff, List.forall₂_map_right_iff, List.forall₂_same]
  intro word member
  exact represents.classify_alike again (represents.wordTier?_eq again (agree word member))

end Agreement

section Grammar

/-- Among the words of the grammar only `in` and `instanceof` are operators. -/
theorem tier?_of_attributes {descriptor : Descriptor Hook} {word : String}
    (attributes : descriptor.attributes = Keyword.attributes word) :
    descriptor.tier? =
      if word = "in" ∨ word = "instanceof" then some (.binary Level.relational) else none := by
  rw [Descriptor.tier?, Descriptor.has, Descriptor.level, attributes,
    Keyword.has_isAssign_attributes, Keyword.level_attributes, if_neg Bool.false_ne_true,
    apply_ite (Option.map Tier.binary)]
  rfl

/-- Of the words of the grammar two have a tier. -/
theorem Represents.keywordTier?_eq {registry : Registry Hook} {words : List String}
    (represents : registry.Represents (words.map .ofGrammar)) (word : String) :
    registry.keywordTier? word =
      if word ∈ words ∧ (word = "in" ∨ word = "instanceof") then
        some (.binary Level.relational)
      else none := by
  rw [keywordTier?]
  cases found : registry.keyword? word with
  | none =>
      have absent := (represents.keyword?_eq_none_iff word).mp found
      rw [if_neg fun listed => absent listed.1, Option.bind_none]
  | some handle =>
      obtain ⟨member, descriptor⟩ := represents.descriptor?_of_keyword? found
      rw [Option.bind_some, tier?, descriptor, Option.bind_some, tier?_of_attributes rfl]
      simp only [member, true_and]

end Grammar

/-- Reachable registries that agree on the tiers of a source parse it alike. Registries built from
lists of words do so for every source when both lists have or lack `in`, and both `instanceof`. -/
theorem parsesAlike_of_tiersAgree :
    (∀ one other : Registry Hook, one.Reachable → other.Reachable → ∀ source,
      TiersAgree one other source → ParsesAlike one other source) ∧
    ∀ words others one other, (ofWords Hook words).result = .ok one →
      (ofWords Hook others).result = .ok other → ("in" ∈ words ↔ "in" ∈ others) →
      ("instanceof" ∈ words ↔ "instanceof" ∈ others) → ∀ source, ParsesAlike one other source := by
  constructor
  · intro one other reachable again source agree
    obtain ⟨_, represents⟩ := reachable.represents
    obtain ⟨_, representsOther⟩ := again.represents
    exact represents.parsesAlike representsOther agree
  · intro words others one other built again both bothLong source
    have represents := represents_of_ofWords built
    have representsOther := represents_of_ofWords again
    apply represents.parsesAlike representsOther
    intro word _ _
    have operators : word ∈ words ∧ (word = "in" ∨ word = "instanceof") ↔
        word ∈ others ∧ (word = "in" ∨ word = "instanceof") := by
      apply and_congr_left
      intro operator
      rcases operator with rfl | rfl
      · exact both
      · exact bothLong
    rw [represents.keywordTier?_eq, representsOther.keywordTier?_eq]
    simp only [operators]

/-- Another word before `in` moves its handle, and the groupings stay as they are. -/
theorem parsesAlike_of_moved_handle :
    let first := ((new String).register "in" (.binary Level.relational)).1
    let second := (((new String).register "if" .plain).1.register "in" (.binary Level.relational)).1
    first.keyword? "in" ≠ second.keyword? "in" ∧ first.Reachable ∧ second.Reachable ∧
      TiersAgree first second "a in b + if" ∧ ParsesAlike first second "a in b + if" ∧
      ∃ one other, (ofWords String ["in"]).result = .ok one ∧
        (ofWords String ["if", "in"]).result = .ok other ∧
        one.keyword? "in" = some (.ofPosition 40) ∧ other.keyword? "in" = some (.ofPosition 41) ∧
        ParsesAlike one other "a in b + if" := by
  intro first second
  have reachable : first.Reachable := .register .new _ _
  have again : second.Reachable := .register (.register .new _ _) _ _
  have moved : first.keyword? "in" ≠ second.keyword? "in" := by decide +kernel
  have agree : TiersAgree first second "a in b + if" := by
    unfold TiersAgree
    decide +kernel
  obtain ⟨one, built, found⟩ : ∃ one, (ofWords String ["in"]).result = .ok one ∧
      one.keyword? "in" = some (.ofPosition 40) := exists_built (by decide +kernel)
  obtain ⟨other, builtOther, foundOther⟩ :
      ∃ other, (ofWords String ["if", "in"]).result = .ok other ∧
      other.keyword? "in" = some (.ofPosition 41) := exists_built (by decide +kernel)
  have alike := parsesAlike_of_tiersAgree.2 ["in"] ["if", "in"] one other built builtOther
    (by decide) (by decide) "a in b + if"
  exact ⟨moved, reachable, again, agree,
    parsesAlike_of_tiersAgree.1 first second reachable again _ agree, one, other, built, builtOther,
    found, foundOther, alike⟩

end Registry

end Lexicon
