import Lexicon.Proofs.Expression.Nesting
import Lexicon.Proofs.Expression.Rendering

/-! How far a climb reads depends on its own bound alone. -/

namespace Lexicon

variable {Hook : Type}

open Relation

section Mentions

/-- An operator stands alone in a text, and an operand may have parentheses around it. -/
def Mentions : Item → String → Prop
  | .operator _ text, word => word = text
  | .operand text, word => ∃ opened closed, word.toList =
      List.replicate opened '(' ++ (text.toList ++ List.replicate closed ')')

/-- The parentheses of an outer tree belong to the first and the last word. -/
theorem Tree.exists_pieces_render {tree : Tree} (solid : ∀ text ∈ tree.texts, Text.IsWord text)
    (opened closed : Nat) {rest : List Char}
    (ends : ∀ c, rest.head? = some c → Text.isWhiteSpace c = true) :
    ∃ words : List String,
      Text.pieces (List.replicate opened '(' ++
        (tree.render.toList ++ (List.replicate closed ')' ++ rest))) =
          words.map String.toList ++ Text.pieces rest ∧
      List.Forall₂ Mentions tree.items words := by
  induction tree generalizing opened closed rest with
  | leaf text =>
      rw [texts_leaf, List.forall_mem_singleton] at solid
      obtain ⟨nonempty, plain⟩ := solid
      let word := List.replicate opened '(' ++ (text.toList ++ List.replicate closed ')')
      have filled : word ≠ [] := by simp [word, nonempty]
      have unspaced : ∀ c ∈ word, Text.isWhiteSpace c = false := by
        intro c inside
        rcases List.mem_append.mp inside with opening | inside
        · rw [List.eq_of_mem_replicate opening]
          rfl
        rcases List.mem_append.mp inside with letter | closing
        · exact plain c letter
        · rw [List.eq_of_mem_replicate closing]
          rfl
      refine ⟨[String.ofList word], ?_, ?_⟩
      · have found := Text.pieces_word_append filled unspaced ends
        simpa [word, Tree.render] using found
      · exact .cons ⟨opened, closed, String.toList_ofList⟩ .nil
  | node left handle operator right ihLeft ihRight =>
      rw [texts_node, List.forall_mem_append, List.forall_mem_cons] at solid
      obtain ⟨solidLeft, ⟨nonempty, plain⟩, solidRight⟩ := solid
      have space (others : List Char) : Text.pieces (' ' :: others) = Text.pieces others :=
        Text.pieces_blank_append (List.forall_mem_singleton.mpr rfl) others
      have spaced (others : List Char) : ∀ c, (' ' :: others).head? = some c →
          Text.isWhiteSpace c = true := fun c head => Option.some.inj head ▸ rfl
      let last := right.render.toList ++ (List.replicate (closed + 1) ')' ++ rest)
      obtain ⟨wordsLeft, piecesLeft, mentionsLeft⟩ :=
        ihLeft solidLeft (opened + 1) 0 (spaced (operator.toList ++ ' ' :: last))
      obtain ⟨wordsRight, piecesRight, mentionsRight⟩ := ihRight solidRight 0 (closed + 1) ends
      have filled : operator.toList ≠ [] := by rwa [ne_eq, String.toList_eq_nil_iff]
      have middle := Text.pieces_word_append filled plain (spaced last)
      refine ⟨wordsLeft ++ operator :: wordsRight, ?_, ?_⟩
      · calc _ = Text.pieces (List.replicate (opened + 1) '(' ++ (left.render.toList ++
                (List.replicate 0 ')' ++ ' ' :: (operator.toList ++ ' ' :: last)))) := by
              rw [List.replicate_succ']
              simp [toList_render_node, List.replicate_succ, last]
          _ = wordsLeft.map String.toList ++
                Text.pieces (' ' :: (operator.toList ++ ' ' :: last)) := piecesLeft
          _ = wordsLeft.map String.toList ++ operator.toList :: Text.pieces last := by
              rw [space, middle, space]
          _ = (wordsLeft ++ operator :: wordsRight).map String.toList ++ Text.pieces rest := by
              rw [List.replicate_zero, List.nil_append] at piecesRight
              rw [piecesRight, List.map_append, List.map_cons, List.append_assoc, List.cons_append]
      · exact List.rel_append mentionsLeft (.cons rfl mentionsRight)

/-- The text of a tree mentions its items in their order. -/
theorem Tree.mentions_render {tree : Tree} (solid : ∀ text ∈ tree.texts, Text.IsWord text) :
    List.Forall₂ Mentions tree.items (Text.words tree.render) := by
  have ends : ∀ c, ([] : List Char).head? = some c → Text.isWhiteSpace c = true := nofun
  obtain ⟨words, pieces, mentions⟩ := exists_pieces_render solid 0 0 ends
  have whole : Text.words tree.render = words := by
    simp only [List.replicate_zero, List.nil_append, List.append_nil] at pieces
    rw [Text.words_eq_pieces, pieces]
    simp [Text.pieces]
  rw [whole]
  exact mentions

end Mentions

namespace Registry

variable {registry : Registry Hook}

section Stop

variable {bound : Option Tier} {items : List Item} {stop : Nat}

/-- Past the last item the turns break. -/
theorem breaks_length (before : Nat) : registry.Breaks bound before items items.length := by
  rw [Breaks, List.getElem?_eq_none (Nat.le_refl _)]
  trivial

/-- Every operator before the stop is above the bound. -/
theorem takes_of_mem_take (binds : ∀ item ∈ items, registry.Binds item)
    (least : IsLeast {index | registry.Breaks bound 0 items index} stop) {handle : Handle}
    {text : String} (member : Item.operator handle text ∈ items.take stop) :
    registry.Takes bound handle := by
  obtain ⟨index, here⟩ := List.getElem?_of_mem member
  have early : index < stop := by
    by_contra late
    rw [List.getElem?_take_eq_none (Nat.le_of_not_lt late)] at here
    cases here
  rw [List.getElem?_take_of_lt early] at here
  have unbroken : ¬registry.Breaks bound 0 items index := fun breaks =>
    absurd (least.2 breaks) (by omega)
  exact takes_of_not_breaks here (binds _ (List.mem_of_getElem? here)) unbroken

end Stop

/-- The least index at which the scan breaks decides how a climb ends that begins at the position.
Where an operand is due, a climb begins there that fails at once, and its fault ends all others.
Where an operator is due, the climb returns with the items up to there, whose operators are above
the bound, and its text mentions them in their order. The climbs inside it begin at the later turns
of an operand up to the stop, which is never past the end, and no chain of calls goes on forever. -/
theorem Tracked.climb_reads_to_stop {registry : Registry Hook} (tracked : registry.Tracked)
    (source : String) (position : Nat) (bound : Option Tier) :
    ∃ items stop, registry.lex source = .ok items ∧
      IsLeast {index | registry.Breaks bound 0 (items.drop position) index} stop ∧
      (stop % 2 = 0 → ∃ inner,
        ReflTransGen registry.Makes (.climb bound (items.drop position))
          (.climb inner (items.drop (position + stop))) ∧
        registry.climbResult inner (items.drop (position + stop)) =
          .error (operandFault items[position + stop]?) ∧
        registry.climbResult bound (items.drop position) =
          .error (operandFault items[position + stop]?)) ∧
      (stop % 2 = 1 → ∃ tree,
        registry.climbResult bound (items.drop position) =
          .ok (tree, items.drop (position + stop)) ∧
        0 < stop ∧ position + stop ≤ items.length ∧
        tree.items = (items.drop position).take stop ∧
        (∀ handle text, .operator handle text ∈ tree.items → registry.Takes bound handle) ∧
        List.Forall₂ Mentions tree.items (Text.words tree.render)) ∧
      (∀ rest, (∃ inner, TransGen registry.Makes (.climb bound (items.drop position))
          (.climb inner rest)) ↔
        ∃ offset, 0 < offset ∧ offset % 2 = 0 ∧ offset ≤ stop ∧
          rest = items.drop (position + offset)) ∧
      (position ≤ items.length → position + stop ≤ items.length) ∧
      WellFounded fun callee caller => registry.Makes caller callee := by
  have leveled := tracked.leveled
  have lexed := tracked.lex_eq source
  generalize same : (Text.words source).map registry.classify = items at lexed
  have solid : ∀ item ∈ items, registry.Binds item ∧ Text.IsWord item.text := by
    intro item member
    rw [← same] at member
    obtain ⟨word, listed, rfl⟩ := List.mem_map.mp member
    rw [text_classify]
    exact ⟨registry.binds_classify word, Text.isWord_of_mem_words listed⟩
  have binds : ∀ item ∈ items.drop position, registry.Binds item := fun item member =>
    (solid item (List.mem_of_mem_drop member)).1
  obtain ⟨stop, least, _⟩ := exists_least_climbBreak leveled binds bound
  have within : stop ≤ (items.drop position).length := least.2 (breaks_length 0)
  rw [List.length_drop] at within
  refine ⟨items, stop, lexed, least, ?_, ?_, ?_, by omega, registry.wellFounded_makes⟩
  · intro even
    have failed := exists_fault_of_even leveled binds least even
    simpa only [List.drop_drop, List.getElem?_drop] using failed
  · intro odd
    obtain ⟨tree, climbed⟩ := exists_climbResult_of_odd leveled binds least odd
    have all := (reads_of_climbResult leveled climbed).1.items_eq
    have taken : tree.items = (items.drop position).take stop := by
      apply List.append_cancel_right
      rw [all, List.take_append_drop]
    rw [List.drop_drop] at climbed
    refine ⟨tree, climbed, by omega, by omega, taken, ?_, ?_⟩
    · intro handle text member
      exact takes_of_mem_take binds least (taken ▸ member)
    · apply Tree.mentions_render
      intro text member
      obtain ⟨item, listed, rfl⟩ := List.mem_map.mp member
      rw [taken] at listed
      exact (solid item (List.mem_of_mem_drop (List.mem_of_mem_take listed))).2
  · intro rest
    have climbs := exists_climb_iff leveled binds least rest
    simpa only [List.drop_drop] using climbs

/-- With the bound of an assignment a climb over `x = a + b = c` from `a` on reads the sum and
leaves the second assignment. -/
theorem climb_between_assignments :
    (new String).Tracked ∧ ∃ items tree, (new String).lex "x = a + b = c" = .ok items ∧
      (new String).climbResult (some .assignment) (items.drop 2) = .ok (tree, items.drop 5) ∧
      tree.texts = ["a", "+", "b"] ∧
      ∃ inner, TransGen (new String).Makes (.climb (some .assignment) (items.drop 2))
        (.climb inner (items.drop 4)) := by
  have tracked : (new String).Tracked := .reachable .new
  have read : (new String).lex "x = a + b = c" = .ok [.operand "x", .operator (.ofPosition 23) "=",
      .operand "a", .operator (.ofPosition 35) "+", .operand "b", .operator (.ofPosition 23) "=",
      .operand "c"] := by decide +kernel
  have sum : (new String).tier? (.ofPosition 35) = some (.binary Level.additive) := by decide +kernel
  have assignment : (new String).tier? (.ofPosition 23) = some .assignment := by decide +kernel
  obtain ⟨items, stop, lexed, least, _, returns, climbs, _⟩ :=
    Tracked.climb_reads_to_stop tracked "x = a + b = c" 2 (some .assignment)
  cases lexed.symm.trans read
  have third : stop = 3 := by
    apply least.unique
    refine ⟨.inr ⟨.assignment, assignment, rfl⟩, ?_⟩
    intro other breaks
    match other with
    | 0 | 2 => cases breaks
    | 1 =>
        rcases breaks with even | ⟨tier, known, outside⟩
        · cases even
        · cases sum.symm.trans known
          cases outside
    | other + 3 => exact Nat.le_add_left 3 other
  subst third
  obtain ⟨tree, climbed, _, _, taken, _⟩ := returns rfl
  exact ⟨tracked, _, tree, read, climbed, congrArg (List.map Item.text) taken,
    (climbs _).mpr ⟨2, by decide, rfl, by decide, rfl⟩⟩

end Registry

end Lexicon
