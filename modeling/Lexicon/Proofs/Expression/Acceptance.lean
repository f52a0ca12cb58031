import Lexicon.Proofs.Expression.Scan

/-! How a parse ends depends only on where operands and operators stop taking turns. -/

namespace Lexicon

variable {Hook : Type}

/-- The turns break at an index when its item is missing or is of the wrong kind: operands have the
even indices and operators the odd ones. -/
def AlternationBreaks (items : List Item) (index : Nat) : Prop :=
  match items[index]? with
  | none => True
  | some (.operand _) => index % 2 = 1
  | some (.operator ..) => index % 2 = 0

namespace Registry

/-- A scan that began the given number of items before stops at an index when the turns break there
or when the operator there is not above the bound. -/
def Breaks (registry : Registry Hook) (bound : Option Tier) (before : Nat) (items : List Item)
    (index : Nat) : Prop :=
  match items[index]? with
  | none => True
  | some (.operand _) => (before + index) % 2 = 1
  | some (.operator handle _) => (before + index) % 2 = 0 ∨
      ∃ tier, registry.tier? handle = some tier ∧ tier.within bound = false

/-- A stop where an operator is due leaves the items from there on, and any other stop is a fault. -/
def stopAt (before : Nat) (items : List Item) (index : Nat) : Except ClimbFault (List Item) :=
  if (before + index) % 2 = 1 then .ok (items.drop index)
  else
    match items[index]? with
    | none => .error .ended
    | some item => .error (.operandExpected item.text)

variable {registry : Registry Hook} {bound : Option Tier} {before : Nat}

theorem breaks_succ_iff (item : Item) (rest : List Item) (index : Nat) :
    registry.Breaks bound before (item :: rest) (index + 1) ↔
      registry.Breaks bound (before + 1) rest index := by
  rw [Breaks, Breaks, List.getElem?_cons_succ, Nat.add_right_comm before 1 index, Nat.add_assoc]

theorem stopAt_succ (item : Item) (rest : List Item) (index : Nat) :
    stopAt before (item :: rest) (index + 1) = stopAt (before + 1) rest index := by
  rw [stopAt, stopAt, List.getElem?_cons_succ, List.drop_succ_cons,
    Nat.add_right_comm before 1 index, Nat.add_assoc]

/-- A break at the first item is the least one. -/
theorem isLeast_breaks_zero {items : List Item} (breaks : registry.Breaks bound before items 0) :
    IsLeast {index | registry.Breaks bound before items index} 0 :=
  ⟨breaks, fun _ _ => Nat.zero_le _⟩

/-- Without a break at the first item the least one is that of the rest. -/
theorem isLeast_breaks_succ {item : Item} {rest : List Item} {index : Nat}
    (holds : ¬registry.Breaks bound before (item :: rest) 0)
    (least : IsLeast {index | registry.Breaks bound (before + 1) rest index} index) :
    IsLeast {index | registry.Breaks bound before (item :: rest) index} (index + 1) := by
  refine ⟨(breaks_succ_iff item rest index).mpr least.1, ?_⟩
  intro other breaks
  cases other with
  | zero => exact absurd breaks holds
  | succ other => exact Nat.succ_le_succ (least.2 ((breaks_succ_iff item rest other).mp breaks))

/-- A scan stops at the least index that breaks it. -/
theorem exists_least_break {items : List Item} (binds : ∀ item ∈ items, registry.Binds item)
    (bound : Option Tier) (before : Nat) :
    ∃ index, IsLeast {index | registry.Breaks bound before items index} index ∧
      (if before % 2 = 0 then registry.scan bound items else registry.scanOn bound items) =
        stopAt before items index := by
  induction items generalizing before with
  | nil =>
      refine ⟨0, isLeast_breaks_zero trivial, ?_⟩
      rcases Nat.mod_two_eq_zero_or_one before with even | odd
      · simp [even, scan, stopAt]
      · simp [odd, scanOn, stopAt]
  | cons item rest ih =>
      have restBinds := fun other member => binds other (List.mem_cons_of_mem item member)
      obtain ⟨index, least, stop⟩ := ih restBinds (before + 1)
      rw [← stopAt_succ item] at stop
      -- The parity of the items before tells whether an operand or an operator is due.
      rcases Nat.mod_two_eq_zero_or_one before with even | odd
      · have due : (before + 1) % 2 ≠ 0 := by omega
        rw [if_neg due] at stop
        rw [if_pos even]
        cases item with
        | operand text =>
            have holds : ¬registry.Breaks bound before (.operand text :: rest) 0 := by
              simp [Breaks, even]
            refine ⟨index + 1, isLeast_breaks_succ holds least, ?_⟩
            rw [scan, stop]
        | operator handle text =>
            refine ⟨0, isLeast_breaks_zero (.inl even), ?_⟩
            simp [scan, stopAt, even, Item.text]
      · have due : (before + 1) % 2 = 0 := by omega
        rw [if_pos due] at stop
        rw [if_neg (by omega)]
        cases item with
        | operand text =>
            refine ⟨0, isLeast_breaks_zero odd, ?_⟩
            simp [scanOn, stopAt, odd]
        | operator handle text =>
            obtain ⟨tier, associativity, binding⟩ := binds _ List.mem_cons_self
            have known := tier?_of_binding binding
            cases taken : tier.within bound with
            | true =>
                have holds : ¬registry.Breaks bound before (.operator handle text :: rest) 0 := by
                  simp [Breaks, odd, known, taken]
                refine ⟨index + 1, isLeast_breaks_succ holds least, ?_⟩
                rw [scanOn_of_within binding taken, stop]
            | false =>
                refine ⟨0, isLeast_breaks_zero (.inr ⟨tier, known, taken⟩), ?_⟩
                rw [scanOn_of_not_within binding taken]
                simp [stopAt, odd]

/-- Without a bound every operator is taken, and only the alternation counts. -/
theorem breaks_none_iff (items : List Item) (index : Nat) :
    registry.Breaks none 0 items index ↔ AlternationBreaks items index := by
  unfold Breaks AlternationBreaks
  rw [Nat.zero_add]
  cases items[index]? with
  | none => rfl
  | some item =>
      cases item with
      | operand text => rfl
      | operator handle text => simp [Tier.within]

/-- A climb stops at the least index that breaks its scan. -/
theorem exists_least_climbBreak (leveled : registry.Leveled) {items : List Item}
    (binds : ∀ item ∈ items, registry.Binds item) (bound : Option Tier) :
    ∃ index, IsLeast {index | registry.Breaks bound 0 items index} index ∧
      (registry.climbResult bound items).map Prod.snd = stopAt 0 items index := by
  obtain ⟨index, least, stop⟩ := exists_least_break binds bound 0
  refine ⟨index, least, ?_⟩
  rw [climbResult_scan leveled, ← stop, Nat.zero_mod, if_pos rfl]

/-- A climb without a bound stops where the alternation breaks first. -/
theorem exists_least_alternationBreak (leveled : registry.Leveled) {items : List Item}
    (binds : ∀ item ∈ items, registry.Binds item) :
    ∃ index, IsLeast {index | AlternationBreaks items index} index ∧
      (registry.climbResult none items).map Prod.snd = stopAt 0 items index := by
  obtain ⟨index, least, stop⟩ := exists_least_climbBreak leveled binds none
  simp only [breaks_none_iff] at least
  exact ⟨index, least, stop⟩

/-- A climb that leaves items has a tree. -/
theorem exists_climbResult_of_rest {items rest : List Item}
    (left : (registry.climbResult bound items).map Prod.snd = .ok rest) :
    ∃ tree, registry.climbResult bound items = .ok (tree, rest) := by
  cases climbed : registry.climbResult bound items with
  | error fault =>
      rw [climbed] at left
      cases left
  | ok parts =>
      obtain ⟨tree, unread⟩ := parts
      rw [climbed] at left
      cases left
      exact ⟨tree, rfl⟩

/-- A climb without items left has failed. -/
theorem climbResult_of_fault {items : List Item} {fault : ClimbFault}
    (failed : (registry.climbResult bound items).map Prod.snd = .error fault) :
    registry.climbResult bound items = .error fault := by
  cases climbed : registry.climbResult bound items with
  | error other =>
      rw [climbed] at failed
      cases failed
      rfl
  | ok parts =>
      rw [climbed] at failed
      cases failed

/-- A climb that leaves the items from an index on parses the items before it. -/
theorem exists_parse_of_stop {source : String} {items : List Item} {index : Nat}
    (lexed : registry.lex source = .ok items) (within : index ≤ items.length)
    (stop : (registry.climbResult none items).map Prod.snd = .ok (items.drop index)) :
    ∃ tree, registry.parse source = .ok ⟨tree, index, items.length⟩ := by
  obtain ⟨tree, climbed⟩ := exists_climbResult_of_rest stop
  refine ⟨tree, ?_⟩
  rw [parse_of_lex lexed, climbed]
  simp only [List.length_drop, Nat.sub_sub_self within]

/-- A parse whose climb fails carries the fault and the number of items. -/
theorem parse_of_fault {source : String} {items : List Item} {fault : ClimbFault}
    (lexed : registry.lex source = .ok items)
    (stop : (registry.climbResult none items).map Prod.snd = .error fault) :
    registry.parse source = .error (.climb fault items.length) := by
  rw [parse_of_lex lexed, climbResult_of_fault stop]

/-- A source that does not parse has no grouping. -/
theorem group_of_parse_error {source : String} {fault : GroupFault}
    (failed : registry.parse source = .error fault) : registry.group source = .error fault := by
  rw [group, failed]

/-- An operator that can be bound has a bound for its right side too. -/
theorem exists_rightBound_of_binds (leveled : registry.Leveled) {handle : Handle} {text : String}
    (binds : registry.Binds (.operator handle text)) :
    ∃ tier associativity inner, registry.binding handle text = .ok (tier, associativity) ∧
      tier.rightBound associativity = .ok inner := by
  obtain ⟨tier, associativity, binding⟩ := binds
  have known := tier?_of_binding binding
  obtain ⟨inner, below, _⟩ := leveled.exists_rightBound known associativity
  exact ⟨tier, associativity, inner, binding, below⟩

/-- Past the last item the turns break. -/
theorem alternationBreaks_length (items : List Item) : AlternationBreaks items items.length := by
  rw [AlternationBreaks, List.getElem?_eq_none (Nat.le_refl _)]
  trivial

/-- The least index at which the alternation breaks decides how a parse ends. Where an operator is due
the parse ends well with the items before, and a grouping needs these to be all. Where an operand is
due it fails with the item there, or with the index past the end. No operator of the source lacks a
tier, an associativity or a bound, so there is no other failure. -/
theorem Reachable.parse_outcome {registry : Registry Hook} (reachable : registry.Reachable)
    (source : String) :
    ∃ items index, registry.lex source = .ok items ∧
      IsLeast {index | AlternationBreaks items index} index ∧ index ≤ items.length ∧
      (index % 2 = 1 → ∃ tree, registry.parse source = .ok ⟨tree, index, items.length⟩ ∧
        (index = items.length → registry.group source = .ok tree.render) ∧
        (index < items.length →
          registry.group source = .error (.trailing source index items.length))) ∧
      (index % 2 = 0 → ∀ item, items[index]? = some item →
        registry.parse source = .error (.climb (.operandExpected item.text) items.length) ∧
        (registry.group source).mapError GroupFault.message =
          .error ("expected operand, found " ++ item.text)) ∧
      (index % 2 = 0 → index = items.length →
        registry.parse source = .error (.climb .ended items.length) ∧
        (registry.group source).mapError GroupFault.message =
          .error ("index out of bounds: the len is " ++ toString items.length ++
            " but the index is " ++ toString items.length)) ∧
      ∀ handle text, .operator handle text ∈ items → ∃ tier associativity inner,
        registry.binding handle text = .ok (tier, associativity) ∧
        tier.rightBound associativity = .ok inner := by
  have leveled := reachable.leveled
  obtain ⟨items, lexed, binds⟩ := reachable.exists_items source
  obtain ⟨index, least, stop⟩ := exists_least_alternationBreak leveled binds
  have within : index ≤ items.length := least.2 (alternationBreaks_length items)
  refine ⟨items, index, lexed, least, within, ?_, ?_, ?_, ?_⟩
  · intro odd
    rw [stopAt, Nat.zero_add, if_pos odd] at stop
    obtain ⟨tree, parsed⟩ := exists_parse_of_stop lexed within stop
    refine ⟨tree, parsed, ?_, ?_⟩
    · intro all
      rw [group, parsed]
      exact if_pos all
    · intro less
      rw [group, parsed]
      exact if_neg (Nat.ne_of_lt less)
  · intro even item here
    rw [stopAt, Nat.zero_add, if_neg (by omega), here] at stop
    have failed := parse_of_fault lexed stop
    refine ⟨failed, ?_⟩
    rw [group_of_parse_error failed]
    rfl
  · intro even past
    rw [stopAt, Nat.zero_add, if_neg (by omega), past,
      List.getElem?_eq_none (Nat.le_refl _)] at stop
    have failed := parse_of_fault lexed stop
    refine ⟨failed, ?_⟩
    rw [group_of_parse_error failed]
    rfl
  · intro handle text member
    exact exists_rightBound_of_binds leveled (binds _ member)

/-- In `a + + b` the second operator stands where an operand is due. -/
theorem parse_of_doubled_operator :
    (new String).Reachable ∧
      (new String).parse "a + + b" = .error (.climb (.operandExpected "+") 4) := by
  refine ⟨.new, ?_⟩
  have read : (new String).lex "a + + b" = .ok [.operand "a", .operator (.ofPosition 35) "+",
      .operator (.ofPosition 35) "+", .operand "b"] := by decide +kernel
  obtain ⟨items, index, lexed, least, _, _, even, _⟩ := Reachable.parse_outcome .new "a + + b"
  cases lexed.symm.trans read
  have second : index = 2 := by
    apply least.unique
    refine ⟨rfl, ?_⟩
    intro other breaks
    match other with
    | 0 => cases breaks
    | 1 => cases breaks
    | other + 2 => exact Nat.le_add_left 2 other
  rw [second] at even
  exact (even rfl _ rfl).1

end Registry

end Lexicon
