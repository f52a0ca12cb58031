import Lexicon.Proofs.Expression.Fitting
import Lexicon.Proofs.Expression.Scan

/-! A parse builds the only tree over its items in which every operator fits below its parent. -/

namespace Lexicon

variable {Hook : Type}

/-- Operands and operators take turns, and an operand is first and last. -/
def Alternates : List Item → Prop
  | [.operand _] => True
  | .operand _ :: .operator .. :: rest => Alternates rest
  | _ => False

/-- The operator with which the items go on. -/
def nextOperator? : List Item → Option Handle
  | .operator handle _ :: _ => some handle
  | _ => none

/-- The operator at the root of a tree. -/
def Tree.root? : Tree → Option Handle
  | .leaf _ => none
  | .node _ handle _ _ => some handle

namespace Registry

/-- At each node the operators of both children fit below its own. -/
def Grouped (registry : Registry Hook) : Tree → Prop
  | .leaf _ => True
  | .node left handle _ right =>
      (∀ inner, left.root? = some inner → registry.FitsLeft handle inner) ∧
      (∀ inner, right.root? = some inner → registry.FitsRight handle inner) ∧
      registry.Grouped left ∧ registry.Grouped right

/-- The bound takes every operator on the left spine, which a climb over the tree meets itself. -/
def Opens (registry : Registry Hook) (bound : Option Tier) : Tree → Prop
  | .leaf _ => True
  | .node left handle _ _ => registry.Takes bound handle ∧ registry.Opens bound left

/-- Every operator on the right spine fits on the left of the next one, so it ends there. -/
def Yields (registry : Registry Hook) (next : Handle) : Tree → Prop
  | .leaf _ => True
  | .node _ handle _ right => registry.FitsLeft next handle ∧ registry.Yields next right

/-- A climb stops before the operator with which the items go on. -/
def Stops (registry : Registry Hook) (bound : Option Tier) (rest : List Item) : Prop :=
  ∀ next, nextOperator? rest = some next → registry.Leaves bound next

/-- A climb with the bound has read a tree from the items and has some of them left. -/
structure Reads (registry : Registry Hook) (bound : Option Tier) (items : List Item) (tree : Tree)
    (rest : List Item) : Prop where
  items_eq : tree.items ++ rest = items
  grouped : registry.Grouped tree
  opens : registry.Opens bound tree
  yields : ∀ next, nextOperator? rest = some next → registry.Yields next tree

variable {registry : Registry Hook} {bound : Option Tier}

/-- An operand alone is read by any climb. -/
theorem reads_leaf (text : String) (rest : List Item) :
    registry.Reads bound (.operand text :: rest) (.leaf text) rest :=
  ⟨rfl, trivial, trivial, fun _ _ => trivial⟩

/-- A node joins the tree on the left of its operator with the tree that was climbed on the right. -/
theorem Reads.node {items rest unread : List Item} {left right : Tree} {handle : Handle}
    {text : String} {inner : Option Tier}
    (readsLeft : registry.Reads bound items left (.operator handle text :: rest))
    (taken : registry.Takes bound handle)
    (takes : ∀ other, registry.Takes inner other → registry.FitsRight handle other)
    (leaves : ∀ other, registry.Leaves inner other → registry.FitsLeft other handle)
    (readsRight : registry.Reads inner rest right unread) (stops : registry.Stops inner unread) :
    registry.Reads bound items (.node left handle text right) unread where
  items_eq := by
    rw [← readsLeft.items_eq, ← readsRight.items_eq, Tree.items, List.append_assoc,
      List.cons_append]
  grouped := by
    refine ⟨?_, ?_, readsLeft.grouped, readsRight.grouped⟩
    · intro root found
      have yields := readsLeft.yields handle rfl
      cases left with
      | leaf _ => cases found
      | node _ _ _ _ =>
          cases found
          exact yields.1
    · intro root found
      have opens := readsRight.opens
      cases right with
      | leaf _ => cases found
      | node _ _ _ _ =>
          cases found
          exact takes _ opens.1
  opens := ⟨taken, readsLeft.opens⟩
  yields next here := ⟨leaves next (stops next here), readsRight.yields next here⟩

mutual

/-- A climb reads a tree and stops where its bound wants it to. -/
theorem reads_of_climbResult (leveled : registry.Leveled) {bound : Option Tier}
    {items rest : List Item} {tree : Tree}
    (climbed : registry.climbResult bound items = .ok (tree, rest)) :
    registry.Reads bound items tree rest ∧ registry.Stops bound rest := by
  match items with
  | [] =>
      rw [climbResult_nil] at climbed
      cases climbed
  | .operator handle text :: more =>
      rw [climbResult_operator] at climbed
      cases climbed
  | .operand text :: more =>
      rw [climbResult_operand] at climbed
      exact reads_of_extendResult leveled (reads_leaf text more) climbed
termination_by items.length

/-- An extension reads on until it stops. -/
theorem reads_of_extendResult (leveled : registry.Leveled) {bound : Option Tier}
    {source items rest : List Item} {left tree : Tree}
    (reads : registry.Reads bound source left items)
    (extended : registry.extendResult bound left items = .ok (tree, rest)) :
    registry.Reads bound source tree rest ∧ registry.Stops bound rest := by
  match items with
  | [] =>
      rw [extendResult_nil] at extended
      cases extended
      exact ⟨reads, nofun⟩
  | .operand text :: more =>
      rw [extendResult_operand] at extended
      cases extended
      exact ⟨reads, nofun⟩
  | .operator handle text :: more =>
      cases binding : registry.binding handle text with
      | error fault =>
          rw [extendResult_of_binding_error registry bound binding] at extended
          cases extended
      | ok bindings =>
          obtain ⟨tier, associativity⟩ := bindings
          obtain ⟨known, groups⟩ := (registry.binding_eq_ok_iff _ _ _ _).mp binding
          cases taken : tier.within bound with
          | false =>
              rw [extendResult_of_not_within registry bound binding taken] at extended
              cases extended
              refine ⟨reads, ?_⟩
              intro next here
              cases here
              exact ⟨tier, known, taken⟩
          | true =>
              obtain ⟨inner, below, takes, leaves⟩ := leveled.exists_fitting_bound known groups
              rw [extendResult_of_within registry bound binding taken below] at extended
              cases climbed : registry.climbResult inner more with
              | error fault =>
                  rw [climbed] at extended
                  cases extended
              | ok parts =>
                  obtain ⟨right, unread⟩ := parts
                  rw [climbed] at extended
                  have shorter := length_le_of_climbResult climbed
                  -- What stops the climb on the right may have this operator on its left.
                  obtain ⟨readsRight, stops⟩ := reads_of_climbResult leveled climbed
                  have node := reads.node ⟨tier, known, taken⟩ (fun other => (takes other).mp)
                    (fun other => (leaves other).mp) readsRight stops
                  exact reads_of_extendResult leveled node extended
termination_by items.length
decreasing_by
  all_goals simp only [List.length_cons]
  all_goals omega

end

/-- A bound that takes what fits on the right of an operator opens a whole grouped tree there. -/
theorem Grouped.opens {outer : Handle} {inner : Option Tier} {tree : Tree}
    (grouped : registry.Grouped tree)
    (root : ∀ handle, tree.root? = some handle → registry.FitsRight outer handle)
    (takes : ∀ other, registry.FitsRight outer other → registry.Takes inner other) :
    registry.Opens inner tree := by
  induction tree with
  | leaf _ => trivial
  | node left handle _ _ ihLeft _ =>
      have fits := root handle rfl
      obtain ⟨below, _, groupedLeft, _⟩ := grouped
      refine ⟨takes handle fits, ihLeft groupedLeft ?_⟩
      intro other found
      exact fits.of_fitsLeft (below other found)

/-- A grouped tree whose root fits on the left of an operator ends before it. -/
theorem Grouped.yields {next : Handle} {tree : Tree} (grouped : registry.Grouped tree)
    (root : ∀ handle, tree.root? = some handle → registry.FitsLeft next handle) :
    registry.Yields next tree := by
  induction tree with
  | leaf _ => trivial
  | node _ handle _ right _ ihRight =>
      have fits := root handle rfl
      obtain ⟨_, below, _, groupedRight⟩ := grouped
      refine ⟨fits, ihRight groupedRight ?_⟩
      intro other found
      exact fits.of_fitsRight (below other found)

/-- Before an operator that stops the climb nothing is taken. -/
theorem extendResult_of_stops {rest : List Item} (stops : registry.Stops bound rest)
    (left : Tree) : registry.extendResult bound left rest = .ok (left, rest) := by
  match rest with
  | [] => exact extendResult_nil registry bound left
  | .operand text :: more => exact extendResult_operand registry bound left text more
  | .operator handle text :: more =>
      obtain ⟨tier, known, outside⟩ := stops handle rfl
      obtain ⟨_, _, binding⟩ := exists_binding known text
      exact extendResult_of_not_within registry bound binding outside left more

/-- A climb over the items of a grouped tree builds this tree before it goes on. -/
theorem climbResult_items_append (leveled : registry.Leveled) {tree : Tree}
    (grouped : registry.Grouped tree) {bound : Option Tier} (opens : registry.Opens bound tree)
    {rest : List Item}
    (yields : ∀ next, nextOperator? rest = some next → registry.Yields next tree) :
    registry.climbResult bound (tree.items ++ rest) = registry.extendResult bound tree rest := by
  induction tree generalizing bound rest with
  | leaf text => exact climbResult_operand registry bound text rest
  | node left handle text right ihLeft ihRight =>
      obtain ⟨fitsLeft, fitsRight, groupedLeft, groupedRight⟩ := grouped
      obtain ⟨⟨tier, known, taken⟩, opensLeft⟩ := opens
      obtain ⟨associativity, groups, binding⟩ := exists_binding known text
      obtain ⟨inner, below, takes, leaves⟩ := leveled.exists_fitting_bound known groups
      have opensRight : registry.Opens inner right :=
        groupedRight.opens fitsRight fun other => (takes other).mpr
      have stops : registry.Stops inner rest := by
        intro next here
        exact (leaves next).mpr (yields next here).1
      have yieldsLeft : ∀ next,
          nextOperator? (.operator handle text :: (right.items ++ rest)) = some next →
            registry.Yields next left := by
        intro next here
        cases here
        exact groupedLeft.yields fitsLeft
      have yieldsRight := fun next here => (yields next here).2
      calc registry.climbResult bound ((Tree.node left handle text right).items ++ rest)
          = registry.climbResult bound
              (left.items ++ .operator handle text :: (right.items ++ rest)) := by
            rw [Tree.items, List.append_assoc, List.cons_append]
        _ = registry.extendResult bound left
              (.operator handle text :: (right.items ++ rest)) :=
            ihLeft groupedLeft opensLeft yieldsLeft
        _ = (registry.climbResult inner (right.items ++ rest)).bind fun climbed =>
              registry.extendResult bound (.node left handle text climbed.1) climbed.2 :=
            extendResult_of_within registry bound binding taken below left _
        _ = registry.extendResult bound (.node left handle text right) rest := by
            rw [ihRight groupedRight opensRight yieldsRight, extendResult_of_stops stops]
            rfl

/-- Without a bound every tree of operators with tiers can be opened. -/
theorem opens_none {tree : Tree} (binds : ∀ item ∈ tree.items, registry.Binds item) :
    registry.Opens none tree := by
  induction tree with
  | leaf _ => trivial
  | node left handle text right ihLeft _ =>
      have here : Item.operator handle text ∈ (Tree.node left handle text right).items :=
        List.mem_append_right _ List.mem_cons_self
      obtain ⟨tier, _, binding⟩ := binds _ here
      have known := tier?_of_binding binding
      refine ⟨⟨tier, known, rfl⟩, ihLeft ?_⟩
      intro item member
      exact binds item (List.mem_append_left _ member)

/-- Items that alternate are scanned to their end. -/
theorem scan_of_alternates {items : List Item} (alternates : Alternates items)
    (binds : ∀ item ∈ items, registry.Binds item) : registry.scan none items = .ok [] := by
  match items with
  | [] => exact alternates.elim
  | [.operand _] => rfl
  | .operand _ :: .operand _ :: _ => exact alternates.elim
  | .operator .. :: _ => exact alternates.elim
  | .operand text :: .operator handle operator :: rest =>
      obtain ⟨tier, _, binding⟩ := binds (.operator handle operator) (by simp)
      have after : Alternates rest := alternates
      rw [scan, scanOn_of_within binding rfl]
      apply scan_of_alternates after
      intro item member
      exact binds item (by simp [member])

/-- A climb over items that alternate builds a grouped tree from all of them. -/
theorem exists_grouped_of_alternates (leveled : registry.Leveled) {items : List Item}
    (alternates : Alternates items) (binds : ∀ item ∈ items, registry.Binds item) :
    ∃ tree, tree.items = items ∧ registry.Grouped tree ∧
      registry.climbResult none items = .ok (tree, []) := by
  have scanned := climbResult_scan leveled none items
  rw [scan_of_alternates alternates binds] at scanned
  cases climbed : registry.climbResult none items with
  | error fault =>
      rw [climbed] at scanned
      cases scanned
  | ok parts =>
      obtain ⟨tree, rest⟩ := parts
      rw [climbed] at scanned
      cases scanned
      have reads := (reads_of_climbResult leveled climbed).1
      have all := reads.items_eq
      rw [List.append_nil] at all
      exact ⟨tree, all, reads.grouped, rfl⟩

/-- A grouped tree is what a climb over its items builds. -/
theorem climbResult_items (leveled : registry.Leveled) {tree : Tree}
    (grouped : registry.Grouped tree) (binds : ∀ item ∈ tree.items, registry.Binds item) :
    registry.climbResult none tree.items = .ok (tree, []) := by
  have climbed : registry.climbResult none (tree.items ++ []) =
      registry.extendResult none tree [] :=
    climbResult_items_append leveled grouped (opens_none binds) nofun
  rw [List.append_nil] at climbed
  rw [climbed, extendResult_nil]

/-- A source of alternating items has exactly one grouped tree over them. The parse reads all items
and returns this tree, and the grouping is its text. -/
theorem Reachable.parse_eq_unique_grouping {registry : Registry Hook}
    (reachable : registry.Reachable)
    (source : String) :
    ∃ items, registry.lex source = .ok items ∧ (Alternates items →
      ∃ tree : Tree, tree.items = items ∧ registry.Grouped tree ∧
        registry.parse source = .ok ⟨tree, items.length, items.length⟩ ∧
        registry.group source = .ok tree.render ∧
        ∀ other : Tree, other.items = items → registry.Grouped other → other = tree) := by
  have leveled := reachable.leveled
  obtain ⟨items, lexed, binds⟩ := reachable.exists_items source
  refine ⟨items, lexed, ?_⟩
  intro alternates
  obtain ⟨tree, same, grouped, climbed⟩ := exists_grouped_of_alternates leveled alternates binds
  have parsed : registry.parse source = .ok ⟨tree, items.length, items.length⟩ := by
    rw [parse_of_lex lexed, climbed]
    rfl
  refine ⟨tree, same, grouped, parsed, ?_, ?_⟩
  · rw [group, parsed]
    exact if_pos rfl
  · intro other otherSame otherGrouped
    have again := climbResult_items leveled otherGrouped (otherSame ▸ binds)
    rw [otherSame, climbed] at again
    cases again
    rfl

/-- A left-associative word of the level of `**` groups to the right after a power. -/
theorem group_of_mixed_associativity :
    let registry := ((new String).register "pow" (.binary Level.exponent)).1
    registry.Reachable ∧ registry.group "a ** b pow c" = .ok "(a ** (b pow c))" := by
  intro registry
  have reachable : registry.Reachable := .register .new "pow" (.binary Level.exponent)
  refine ⟨reachable, ?_⟩
  let inner : Tree := .node (.leaf "b") (.ofPosition 40) "pow" (.leaf "c")
  let whole : Tree := .node (.leaf "a") (.ofPosition 39) "**" inner
  have read : registry.lex "a ** b pow c" = .ok whole.items := by decide +kernel
  have power : registry.tier? (.ofPosition 39) = some (.binary Level.exponent) := by
    decide +kernel
  have word : registry.tier? (.ofPosition 40) = some (.binary Level.exponent) := by
    decide +kernel
  have right : registry.associativity? (.ofPosition 39) = some .right := by decide +kernel
  have fits : registry.FitsRight (.ofPosition 39) (.ofPosition 40) :=
    ⟨_, _, power, word, .inr ⟨rfl, right⟩⟩
  have grouped : registry.Grouped whole := by
    refine ⟨nofun, ?_, trivial, nofun, nofun, trivial, trivial⟩
    intro root found
    cases found
    exact fits
  obtain ⟨items, lexed, unique⟩ := reachable.parse_eq_unique_grouping "a ** b pow c"
  cases lexed.symm.trans read
  obtain ⟨tree, _, _, _, text, only⟩ := unique trivial
  rw [text, ← only whole rfl grouped]
  decide +kernel

end Registry

end Lexicon
