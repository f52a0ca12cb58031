import Lexicon.Proofs.Expression.Acceptance
import Lexicon.Proofs.Expression.Fitting
import Mathlib.Logic.Relation

/-! Each call that a climb makes gets fewer items than its caller. -/

namespace Lexicon

variable {Hook : Type}

open Relation

/-- A frame is a call of one of the two recursive functions, with the items that are unread then. -/
inductive Frame where
  | climb (bound : Option Tier) (items : List Item)
  | extend (bound : Option Tier) (left : Tree) (items : List Item)

namespace Frame

def bound : Frame → Option Tier
  | climb bound _ | extend bound _ _ => bound

def items : Frame → List Item
  | climb _ items | extend _ _ items => items

/-- A climb begins where an operand is due, and a tree is extended where an operator is due. -/
def due : Frame → Nat
  | climb .. => 0
  | extend .. => 1

end Frame

namespace Registry

/-- The caller calls the callee itself. What an operator has on its right is climbed first, and the
tree is extended when this climb has returned. -/
inductive Makes (registry : Registry Hook) : Frame → Frame → Prop where
  | operand (bound : Option Tier) (text : String) (rest : List Item) :
      Makes registry (.climb bound (.operand text :: rest)) (.extend bound (.leaf text) rest)
  | right {bound inner : Option Tier} {handle : Handle} {text : String} {tier : Tier}
      {associativity : Associativity}
      (binding : registry.binding handle text = .ok (tier, associativity))
      (within : tier.within bound = true) (below : tier.rightBound associativity = .ok inner)
      (left : Tree) (rest : List Item) :
      Makes registry (.extend bound left (.operator handle text :: rest)) (.climb inner rest)
  | further {bound inner : Option Tier} {handle : Handle} {text : String} {tier : Tier}
      {associativity : Associativity} {rest unread : List Item} {right : Tree}
      (binding : registry.binding handle text = .ok (tier, associativity))
      (within : tier.within bound = true) (below : tier.rightBound associativity = .ok inner)
      (left : Tree) (climbed : registry.climbResult inner rest = .ok (right, unread)) :
      Makes registry (.extend bound left (.operator handle text :: rest))
        (.extend bound (.node left handle text right) unread)

/-- What the call of a frame gives. -/
def resultOf (registry : Registry Hook) : Frame → Except ClimbFault (Tree × List Item)
  | .climb bound items => registry.climbResult bound items
  | .extend bound left items => registry.extendResult bound left items

/-- The fault of a climb at an item that is no operand, or at the end. -/
def operandFault : Option Item → ClimbFault
  | none => .ended
  | some item => .operandExpected item.text

/-- From the caller to the callee some items are read, and none of them breaks the scan of the
caller. The bound of the callee is at least as high. -/
structure Advances (registry : Registry Hook) (caller callee : Frame) (count : Nat) : Prop where
  items_eq : callee.items = caller.items.drop count
  turn : callee.due % 2 = (caller.due + count) % 2
  unbroken : ∀ index < count, ¬registry.Breaks caller.bound caller.due caller.items index
  higher : registry.Higher callee.bound caller.bound

variable {registry : Registry Hook}

section Breaks

variable {bound inner : Option Tier} {before other index : Nat} {items : List Item}

/-- A scan can begin at a later item of the same turn. -/
theorem breaks_drop_iff {count : Nat} (turn : other % 2 = (before + count) % 2) :
    registry.Breaks bound other (items.drop count) index ↔
      registry.Breaks bound before items (count + index) := by
  have same : (other + index) % 2 = (before + (count + index)) % 2 := by omega
  rw [Breaks, Breaks, List.getElem?_drop]
  cases items[count + index]? with
  | none => rfl
  | some item =>
      cases item with
      | operand text => rw [same]
      | operator handle text => rw [same]

/-- What breaks a scan also breaks a scan with a higher bound. -/
theorem Breaks.of_higher (breaks : registry.Breaks bound before items index)
    (higher : registry.Higher inner bound) : registry.Breaks inner before items index := by
  unfold Breaks at breaks ⊢
  cases here : items[index]? with
  | none => trivial
  | some item =>
      rw [here] at breaks
      cases item with
      | operand text => exact breaks
      | operator handle text =>
          refine breaks.imp_right fun ⟨tier, known, outside⟩ => ⟨tier, known, ?_⟩
          rw [← Bool.not_eq_true] at outside ⊢
          exact fun within => outside (higher handle tier known within)

/-- Where an operand is due the bound does not matter. -/
theorem Breaks.of_even (breaks : registry.Breaks inner before items index)
    (even : (before + index) % 2 = 0) : registry.Breaks bound before items index := by
  unfold Breaks at breaks ⊢
  cases here : items[index]? with
  | none => trivial
  | some item =>
      rw [here] at breaks
      cases item with
      | operand text => exact breaks
      | operator handle text => exact .inl even

/-- An operator that does not break a scan is taken. -/
theorem takes_of_not_breaks {handle : Handle} {text : String}
    (here : items[index]? = some (.operator handle text))
    (binds : registry.Binds (.operator handle text))
    (unbroken : ¬registry.Breaks bound before items index) : registry.Takes bound handle := by
  obtain ⟨tier, _, binding⟩ := binds
  have known := tier?_of_binding binding
  refine ⟨tier, known, ?_⟩
  by_contra outside
  apply unbroken
  rw [Breaks, here]
  exact .inr ⟨tier, known, Bool.not_eq_true _ ▸ outside⟩

end Breaks

section Faults

variable {caller callee : Frame} {fault : ClimbFault}

/-- A fault ends the caller too. -/
theorem Makes.resultOf_error (makes : registry.Makes caller callee)
    (failed : registry.resultOf callee = .error fault) :
    registry.resultOf caller = .error fault := by
  cases makes with
  | operand bound text rest => exact (climbResult_operand registry bound text rest).trans failed
  | @right bound inner handle text tier associativity binding within below left rest =>
      have inside : registry.climbResult inner rest = .error fault := failed
      rw [resultOf, extendResult_of_within registry bound binding within below, inside]
      rfl
  | @further bound inner handle text tier associativity rest unread right binding within below left
      climbed =>
      rw [resultOf, extendResult_of_within registry bound binding within below, climbed]
      exact failed

/-- A fault ends all calls around it. -/
theorem resultOf_error_of_reflTransGen (makes : ReflTransGen registry.Makes caller callee)
    (failed : registry.resultOf callee = .error fault) :
    registry.resultOf caller = .error fault := by
  induction makes with
  | refl => exact failed
  | tail _ makes ih => exact ih (makes.resultOf_error failed)

/-- Where an operand is due and none stands, no climb can begin. -/
theorem climbResult_of_breaks {bound : Option Tier} {items : List Item} {stop : Nat}
    (breaks : registry.Breaks bound 0 items stop) (even : stop % 2 = 0) (inner : Option Tier) :
    registry.climbResult inner (items.drop stop) = .error (operandFault items[stop]?) := by
  have head : (items.drop stop)[0]? = items[stop]? := List.getElem?_drop
  rw [Breaks, Nat.zero_add] at breaks
  rw [← head] at breaks ⊢
  generalize items.drop stop = unread at breaks ⊢
  cases unread with
  | nil => exact climbResult_nil registry inner
  | cons item rest =>
      cases item with
      | operator handle text => exact climbResult_operator registry inner handle text rest
      | operand text =>
          have odd : stop % 2 = 1 := breaks
          omega

end Faults

section Stops

variable {bound : Option Tier} {items : List Item} {stop : Nat}

/-- A climb that returns leaves the items from its stop on. -/
theorem exists_stop_of_climbResult (leveled : registry.Leveled)
    (binds : ∀ item ∈ items, registry.Binds item) {tree : Tree} {rest : List Item}
    (climbed : registry.climbResult bound items = .ok (tree, rest)) :
    ∃ stop, IsLeast {index | registry.Breaks bound 0 items index} stop ∧ stop % 2 = 1 ∧
      rest = items.drop stop := by
  obtain ⟨stop, least, ended⟩ := exists_least_climbBreak leveled binds bound
  rw [climbed, stopAt, Nat.zero_add] at ended
  refine ⟨stop, least, ?_⟩
  by_cases odd : stop % 2 = 1
  · rw [if_pos odd] at ended
    exact ⟨odd, Except.ok.inj ended⟩
  · rw [if_neg odd] at ended
    split at ended <;> cases ended

/-- A climb returns when it stops where an operator is due. -/
theorem exists_climbResult_of_odd (leveled : registry.Leveled)
    (binds : ∀ item ∈ items, registry.Binds item)
    (least : IsLeast {index | registry.Breaks bound 0 items index} stop) (odd : stop % 2 = 1) :
    ∃ tree, registry.climbResult bound items = .ok (tree, items.drop stop) := by
  obtain ⟨index, again, ended⟩ := exists_least_climbBreak leveled binds bound
  cases least.unique again
  rw [stopAt, Nat.zero_add, if_pos odd] at ended
  exact exists_climbResult_of_rest ended

end Stops

section Frames

variable {caller middle callee : Frame} {count further : Nat}

/-- A call gets fewer items than its caller. -/
theorem Makes.length_lt (makes : registry.Makes caller callee) :
    callee.items.length < caller.items.length := by
  cases makes with
  | operand => simp [Frame.items]
  | right => simp [Frame.items]
  | further _ _ _ _ climbed =>
      have shorter := length_le_of_climbResult climbed
      simp only [Frame.items, List.length_cons]
      omega

/-- No chain of calls goes on forever. -/
theorem wellFounded_makes (registry : Registry Hook) :
    WellFounded fun callee caller => registry.Makes caller callee :=
  Subrelation.wf Makes.length_lt (measure fun frame : Frame => frame.items.length).wf

/-- What does not break the scan of the callee does not break that of the caller either. -/
theorem Advances.unbroken_add (advances : registry.Advances caller callee count)
    (unbroken : ∀ index < further,
      ¬registry.Breaks callee.bound callee.due callee.items index) :
    ∀ index < count + further, ¬registry.Breaks caller.bound caller.due caller.items index := by
  intro index less breaks
  rcases Nat.lt_or_ge index count with early | late
  · exact advances.unbroken index early breaks
  · obtain ⟨offset, rfl⟩ := Nat.exists_eq_add_of_le late
    rw [← breaks_drop_iff advances.turn, ← advances.items_eq] at breaks
    exact unbroken offset (by omega) (breaks.of_higher advances.higher)

/-- Advances add up. -/
theorem Advances.trans (first : registry.Advances caller middle count)
    (second : registry.Advances middle callee further) :
    registry.Advances caller callee (count + further) where
  items_eq := by rw [second.items_eq, first.items_eq, List.drop_drop]
  turn := by
    have one := first.turn
    have two := second.turn
    omega
  unbroken := first.unbroken_add second.unbroken
  higher := second.higher.trans first.higher

/-- The scan of the caller does not stop before the callee. -/
theorem Advances.le (advances : registry.Advances caller callee count) {stop : Nat}
    (breaks : registry.Breaks caller.bound caller.due caller.items stop) : count ≤ stop := by
  by_contra early
  exact advances.unbroken stop (by omega) breaks

/-- The first step behind an operator that is taken. -/
theorem advances_right {bound inner : Option Tier} {handle : Handle} {text : String} {tier : Tier}
    {associativity : Associativity} (leveled : registry.Leveled)
    (binding : registry.binding handle text = .ok (tier, associativity))
    (within : tier.within bound = true) (below : tier.rightBound associativity = .ok inner)
    (left : Tree) (rest : List Item) :
    registry.Advances (.extend bound left (.operator handle text :: rest))
      (.climb inner rest) 1 := by
  have known := tier?_of_binding binding
  refine ⟨rfl, by simp [Frame.due], ?_, ?_⟩
  · intro index first breaks
    obtain rfl : index = 0 := by omega
    rcases breaks with even | ⟨other, otherKnown, outside⟩
    · cases even
    · cases known.symm.trans otherKnown
      cases within.symm.trans outside
  · obtain ⟨other, same, higher⟩ := leveled.exists_higher_bound known within associativity
    cases below.symm.trans same
    exact higher

/-- Each call advances. After an operator and its right side the bound is the same as before, and
the right side has been read with a higher bound. -/
theorem Makes.exists_advances (leveled : registry.Leveled)
    (binds : ∀ item ∈ caller.items, registry.Binds item) (makes : registry.Makes caller callee) :
    ∃ count, 0 < count ∧ registry.Advances caller callee count := by
  cases makes with
  | operand bound text rest =>
      refine ⟨1, Nat.one_pos, rfl, rfl, ?_, .refl bound⟩
      intro index first breaks
      obtain rfl : index = 0 := by omega
      cases breaks
  | right binding within below left rest =>
      exact ⟨1, Nat.one_pos, advances_right leveled binding within below left rest⟩
  | @further bound inner handle text tier associativity rest unread right binding within below left
      climbed =>
      have first := advances_right leveled binding within below left rest
      have restBinds : ∀ item ∈ rest, registry.Binds item := fun item member =>
        binds item (List.mem_cons_of_mem _ member)
      obtain ⟨stop, least, odd, rfl⟩ := exists_stop_of_climbResult leveled restBinds climbed
      refine ⟨1 + stop, by omega, ?_, ?_, ?_, .refl bound⟩
      · rw [Frame.items, Frame.items, Nat.add_comm, List.drop_succ_cons]
      · simp only [Frame.due]
        omega
      · refine first.unbroken_add fun index less breaks => ?_
        exact absurd (least.2 breaks) (Nat.not_le_of_lt less)

/-- Whatever runs inside a call advances too. The induction is on the chain of calls. -/
theorem exists_advances_of_transGen (leveled : registry.Leveled)
    (makes : TransGen registry.Makes caller callee)
    (binds : ∀ item ∈ caller.items, registry.Binds item) :
    ∃ count, 0 < count ∧ registry.Advances caller callee count := by
  induction makes with
  | single makes => exact makes.exists_advances leveled binds
  | @tail middle callee _ makes ih =>
      obtain ⟨count, positive, advances⟩ := ih
      have middleBinds : ∀ item ∈ middle.items, registry.Binds item := by
        intro item member
        rw [advances.items_eq] at member
        exact binds item (List.mem_of_mem_drop member)
      obtain ⟨further, _, advancesToo⟩ := makes.exists_advances leveled middleBinds
      exact ⟨count + further, by omega, advances.trans advancesToo⟩

/-- The scan of the frame reads that many items and is then at the turn of an operand. -/
structure Ahead (registry : Registry Hook) (frame : Frame) (offset : Nat) : Prop where
  binds : ∀ item ∈ frame.items, registry.Binds item
  unbroken : ∀ index < offset, ¬registry.Breaks frame.bound frame.due frame.items index
  turn : (frame.due + offset) % 2 = 0

variable {frame next : Frame} {offset : Nat}

/-- A later frame with the same bound reads what is left to read. -/
theorem Ahead.drop (ahead : registry.Ahead frame offset) (reached : count ≤ offset)
    (bound : next.bound = frame.bound) (items : next.items = frame.items.drop count)
    (turn : next.due % 2 = (frame.due + count) % 2) : registry.Ahead next (offset - count) where
  binds item member := by
    rw [items] at member
    exact ahead.binds item (List.mem_of_mem_drop member)
  unbroken index less breaks := by
    rw [bound, items, breaks_drop_iff turn] at breaks
    exact ahead.unbroken (count + index) (by omega) breaks
  turn := by
    have whole := ahead.turn
    omega

/-- Behind an operator the right side reads on, or it ends before and the tree that it extends reads
on. -/
theorem Ahead.exists_makes_of_operator (leveled : registry.Leveled) {bound : Option Tier}
    {left : Tree} {handle : Handle} {text : String} {rest : List Item}
    (ahead : registry.Ahead (.extend bound left (.operator handle text :: rest)) offset)
    (positive : 0 < offset) :
    ∃ next count, registry.Makes (.extend bound left (.operator handle text :: rest)) next ∧
      count ≤ offset ∧ next.items = (Item.operator handle text :: rest).drop count ∧
      registry.Ahead next (offset - count) := by
  obtain ⟨tier, known, within⟩ :=
    takes_of_not_breaks rfl (ahead.binds _ List.mem_cons_self) (ahead.unbroken 0 positive)
  obtain ⟨associativity, _, binding⟩ := exists_binding known text
  obtain ⟨inner, below, _⟩ := leveled.exists_higher_bound known within associativity
  have restBinds : ∀ item ∈ rest, registry.Binds item := fun item member =>
    ahead.binds item (List.mem_cons_of_mem _ member)
  obtain ⟨stop, least, _⟩ := exists_least_climbBreak leveled restBinds inner
  have whole := ahead.turn
  simp only [Frame.due] at whole
  rcases Nat.lt_or_ge stop (offset - 1) with early | late
  · have odd : stop % 2 = 1 := by
      by_contra even
      have outside : registry.Breaks bound 0 rest stop := least.1.of_even (by omega)
      have turn : 0 % 2 = (1 + 1) % 2 := rfl
      exact ahead.unbroken (1 + stop) (by omega) ((breaks_drop_iff turn).mp outside)
    obtain ⟨right, climbed⟩ := exists_climbResult_of_odd leveled restBinds least odd
    have items : rest.drop stop = (Item.operator handle text :: rest).drop (1 + stop) := by
      rw [Nat.add_comm, List.drop_succ_cons]
    refine ⟨.extend bound (.node left handle text right) (rest.drop stop), 1 + stop,
      .further binding within below left climbed, by omega, items, ?_⟩
    refine ahead.drop (by omega) rfl items ?_
    simp only [Frame.due]
    omega
  · refine ⟨.climb inner rest, 1, .right binding within below left rest, positive, rfl,
      restBinds, ?_, ?_⟩
    · intro index less breaks
      exact absurd (least.2 breaks) (by omega)
    · simp only [Frame.due]
      omega

/-- While there is something to read, a frame makes another one that goes on with it. -/
theorem Ahead.exists_makes (leveled : registry.Leveled) (ahead : registry.Ahead frame offset)
    (positive : 0 < offset) :
    ∃ next count, registry.Makes frame next ∧ count ≤ offset ∧
      next.items = frame.items.drop count ∧ registry.Ahead next (offset - count) := by
  have start := ahead.unbroken 0 positive
  cases frame with
  | climb bound items =>
      match items with
      | [] => exact absurd trivial start
      | .operator handle text :: rest => exact absurd (.inl rfl) start
      | .operand text :: rest =>
          refine ⟨.extend bound (.leaf text) rest, 1, .operand bound text rest, positive, rfl, ?_⟩
          exact ahead.drop positive rfl rfl rfl
  | extend bound left items =>
      match items with
      | [] => exact absurd trivial start
      | .operand text :: rest => exact absurd rfl start
      | .operator handle text :: rest => exact ahead.exists_makes_of_operator leveled positive

/-- The induction is along the calls that lie ahead, and the last of them is a climb. -/
theorem Ahead.exists_climb (leveled : registry.Leveled) (ahead : registry.Ahead frame offset)
    (positive : 0 < offset) :
    ∃ inner, TransGen registry.Makes frame (.climb inner (frame.items.drop offset)) := by
  induction frame using registry.wellFounded_makes.induction generalizing offset with
  | _ frame ih =>
  obtain ⟨next, count, makes, reached, items, rest⟩ := ahead.exists_makes leveled positive
  rcases Nat.eq_zero_or_pos (offset - count) with done | more
  · obtain rfl : count = offset := by omega
    cases next with
    | climb inner unread =>
        obtain rfl : unread = frame.items.drop count := items
        exact ⟨inner, .single makes⟩
    | extend bound left unread =>
        have turn := rest.turn
        rw [done] at turn
        cases turn
  · obtain ⟨inner, makesToo⟩ := ih next makes rest more
    rw [items, List.drop_drop, Nat.add_sub_cancel' reached] at makesToo
    exact ⟨inner, .head makes makesToo⟩

/-- Before the stop of a climb there are further climbs ahead. -/
theorem ahead_of_least {bound : Option Tier} {items : List Item}
    (binds : ∀ item ∈ items, registry.Binds item) {stop : Nat}
    (least : IsLeast {index | registry.Breaks bound 0 items index} stop) (reached : offset ≤ stop)
    (even : offset % 2 = 0) : registry.Ahead (.climb bound items) offset where
  binds := binds
  unbroken index less breaks := absurd (least.2 breaks) (by omega)
  turn := by simpa [Frame.due] using even

/-- A climb that stops where an operand is due makes a climb there, and both fail. -/
theorem exists_fault_of_even (leveled : registry.Leveled) {bound : Option Tier}
    {items : List Item} (binds : ∀ item ∈ items, registry.Binds item) {stop : Nat}
    (least : IsLeast {index | registry.Breaks bound 0 items index} stop) (even : stop % 2 = 0) :
    ∃ inner, ReflTransGen registry.Makes (.climb bound items) (.climb inner (items.drop stop)) ∧
      registry.climbResult inner (items.drop stop) = .error (operandFault items[stop]?) ∧
      registry.climbResult bound items = .error (operandFault items[stop]?) := by
  have exists_climb : ∃ inner,
      ReflTransGen registry.Makes (.climb bound items) (.climb inner (items.drop stop)) := by
    rcases Nat.eq_zero_or_pos stop with rfl | positive
    · exact ⟨bound, .refl⟩
    · have ahead := ahead_of_least binds least (Nat.le_refl stop) even
      obtain ⟨inner, makes⟩ := ahead.exists_climb leveled positive
      exact ⟨inner, makes.to_reflTransGen⟩
  obtain ⟨inner, makes⟩ := exists_climb
  have failed := climbResult_of_breaks least.1 even inner
  exact ⟨inner, makes, failed, resultOf_error_of_reflTransGen makes failed⟩

/-- The climbs inside a climb, however deep they lie, begin at the later turns of an operand up to
where it stops. -/
theorem exists_climb_iff (leveled : registry.Leveled) {bound : Option Tier} {items : List Item}
    (binds : ∀ item ∈ items, registry.Binds item) {stop : Nat}
    (least : IsLeast {index | registry.Breaks bound 0 items index} stop) (rest : List Item) :
    (∃ inner, TransGen registry.Makes (.climb bound items) (.climb inner rest)) ↔
      ∃ offset, 0 < offset ∧ offset % 2 = 0 ∧ offset ≤ stop ∧ rest = items.drop offset := by
  constructor
  · rintro ⟨inner, makes⟩
    obtain ⟨count, positive, advances⟩ := exists_advances_of_transGen leveled makes binds
    have turn := advances.turn
    simp only [Frame.due] at turn
    exact ⟨count, positive, by omega, advances.le least.1, advances.items_eq⟩
  · rintro ⟨offset, positive, even, reached, rfl⟩
    exact (ahead_of_least binds least reached even).exists_climb leveled positive

end Frames

end Registry

end Lexicon
