import Lexicon.OrderedMap
import Mathlib.Data.List.Induction

/-! A map takes the first offer of each key and hands back the others. -/

namespace Lexicon

/-- An offer stands with the answer that it got. -/
structure Offer (Key Value : Type) where
  key : Key
  value : Value
  answer : Except Value Nat

namespace Offer

variable {Key Value : Type}

def pair (offer : Offer Key Value) : Key × Value := (offer.key, offer.value)

def accepted (offer : Offer Key Value) : Bool := offer.answer.isOk

@[simp] theorem accepted_ok (key : Key) (value : Value) (position : Nat) :
    accepted ⟨key, value, .ok position⟩ = true := rfl

@[simp] theorem accepted_error (key : Key) (value offered : Value) :
    accepted ⟨key, value, .error offered⟩ = false := rfl

/-- The first offer of a key is answered by the number of accepted offers before it, and a later one
by its own value. -/
def Answered (offers : List (Offer Key Value)) : Prop :=
  ∀ before offer, before ++ [offer] <+: offers →
    (offer.key ∉ before.map key → offer.answer = .ok (before.countP accepted)) ∧
      (offer.key ∈ before.map key → offer.answer = .error offer.value)

namespace Answered

variable {offers : List (Offer Key Value)}

/-- Without offers there is nothing to answer. -/
theorem nil : Answered ([] : List (Offer Key Value)) := by
  intro before offer isPrefix
  simp at isPrefix

/-- A further offer is answered by whether its key was offered before. -/
theorem concat (answered : Answered offers) {offer : Offer Key Value}
    (fresh : offer.key ∉ offers.map key → offer.answer = .ok (offers.countP accepted))
    (known : offer.key ∈ offers.map key → offer.answer = .error offer.value) :
    Answered (offers ++ [offer]) := by
  intro before other isPrefix
  rw [List.prefix_concat_iff] at isPrefix
  rcases isPrefix with last | earlier
  · obtain ⟨rfl, same⟩ := List.append_inj' last rfl
    cases same
    exact ⟨fresh, known⟩
  · exact answered before other earlier

/-- An offer is accepted exactly when it is the first one of its key. -/
theorem accepted_iff (answered : Answered offers) {before : List (Offer Key Value)}
    {offer : Offer Key Value} (isPrefix : before ++ [offer] <+: offers) :
    offer.accepted = true ↔ offer.key ∉ before.map key := by
  obtain ⟨fresh, known⟩ := answered before offer isPrefix
  by_cases earlier : offer.key ∈ before.map key
  · simp [accepted, known earlier, earlier, Except.isOk, Except.toBool]
  · simp [accepted, fresh earlier, earlier, Except.isOk, Except.toBool]

/-- The accepted pairs are those of the first offers. -/
theorem mem_pairs_iff (answered : Answered offers) (key : Key) (value : Value) :
    (key, value) ∈ (offers.filter accepted).map pair ↔
      ∃ before answer, before ++ [⟨key, value, answer⟩] <+: offers ∧
        key ∉ before.map Offer.key := by
  rw [List.mem_map]
  constructor
  · rintro ⟨offer, member, same⟩
    obtain ⟨member, taken⟩ := List.mem_filter.mp member
    obtain ⟨before, after, rfl⟩ := List.append_of_mem member
    cases same
    have isPrefix : before ++ [offer] <+: before ++ offer :: after := ⟨after, by simp⟩
    exact ⟨before, offer.answer, isPrefix, (answered.accepted_iff isPrefix).mp taken⟩
  · rintro ⟨before, answer, isPrefix, fresh⟩
    have taken := (answered.accepted_iff isPrefix).mpr fresh
    have member := isPrefix.subset (List.mem_append_right before (List.mem_singleton.mpr rfl))
    exact ⟨_, List.mem_filter.mpr ⟨member, taken⟩, rfl⟩

end Answered

end Offer

/-- A map stands with the offers made to it, and a copy also with those made before it was copied.
-/
structure OfferedMap (Key Value : Type) [Ord Key] where
  map : OrderedMap Key Value
  offers : List (Offer Key Value)

namespace OfferedMap

variable {Key Value : Type} [Ord Key]

def new : OfferedMap Key Value := ⟨.empty, []⟩

def withCapacity (capacity : Nat) : OfferedMap Key Value := ⟨.withCapacity capacity, []⟩

variable [Std.TransOrd Key] [Std.LawfulEqOrd Key]

/-- The answer of the map is noted with the offer. -/
def offer (offered : OfferedMap Key Value) (key : Key) (value : Value) : OfferedMap Key Value :=
  let (answer, map) := offered.map.tryInsert key value
  ⟨map, offered.offers ++ [⟨key, value, answer⟩]⟩

/-- The offers alone, made to an empty map. -/
def replay (offers : List (Offer Key Value)) : OrderedMap Key Value :=
  offers.foldl (fun map offer => (map.tryInsert offer.key offer.value).2) .empty

/-- A map takes a pair exactly when its key is new. The pair goes to the end, and otherwise its
value comes back. -/
structure Takes (map : OrderedMap Key Value) (key : Key) (value : Value) : Prop where
  accepts : (∃ position, (map.tryInsert key value).1 = .ok position) ↔ key ∉ map.keys
  appends : key ∉ map.keys → (map.tryInsert key value).1 = .ok map.size ∧
    (map.tryInsert key value).2.toList = map.toList ++ [(key, value)]
  refuses : key ∈ map.keys → map.tryInsert key value = (.error value, map)

/-- The map holds the first offers in their order, and each lookup agrees with this list. What other
maps were offered and how much room was reserved make no difference. -/
structure HoldsFirst (offered : OfferedMap Key Value) : Prop where
  answers : Offer.Answered offered.offers
  replayed : offered.map = replay offered.offers
  pairs : offered.map.toList = (offered.offers.filter Offer.accepted).map Offer.pair
  keys : offered.map.keys = (offered.offers.filter Offer.accepted).map Offer.key
  distinct : offered.map.keys.Nodup
  size : offered.map.size = offered.offers.countP Offer.accepted
  isEmpty : offered.map.isEmpty = true ↔ offered.map.size = 0
  first : ∀ key value, offered.map.get? key = some value ↔
    ∃ before answer, before ++ [⟨key, value, answer⟩] <+: offered.offers ∧
      key ∉ before.map Offer.key
  contains : ∀ key, offered.map.contains key = true ↔ key ∈ offered.offers.map Offer.key
  isSome : ∀ key, offered.map.contains key = (offered.map.position? key).isSome
  position : ∀ key position, offered.map.position? key = some position ↔
    (offered.map.pairAt? position).map Prod.fst = some key
  placed : ∀ key value, offered.map.get? key = some value ↔
    ∃ position, offered.map.position? key = some position ∧
      offered.map.pairAt? position = some (key, value)
  listed : ∀ position, offered.map.pairAt? position = offered.map.toList[position]?
  outside : ∀ position, offered.map.pairAt? position = none ↔ offered.map.size ≤ position
  takes : ∀ key value, Takes offered.map key value

/-- An insertion appends a fresh pair and refuses a known key. -/
theorem takes (map : OrderedMap Key Value) (key : Key) (value : Value) : Takes map key value := by
  cases known : map.contains key with
  | true =>
      have taken := OrderedMap.tryInsert_of_contains known value
      rw [OrderedMap.contains_iff_mem_keys] at known
      constructor
      · simp [taken, known]
      · exact fun fresh => absurd known fresh
      · exact fun _ => taken
  | false =>
      have appended := OrderedMap.tryInsert_of_not_contains known value
      rw [Bool.eq_false_iff, ne_eq, OrderedMap.contains_iff_mem_keys] at known
      constructor
      · simp [appended.1, known]
      · exact fun _ => appended
      · exact fun taken => absurd taken known

/-- The invariant of the offers made to one map. -/
structure Recorded (offered : OfferedMap Key Value) : Prop where
  pairs : offered.map.toList = (offered.offers.filter Offer.accepted).map Offer.pair
  known : ∀ key, key ∈ offered.map.keys ↔ key ∈ offered.offers.map Offer.key
  answers : Offer.Answered offered.offers
  replayed : offered.map = replay offered.offers

/-- A new map records no offer. -/
theorem new_recorded : (new : OfferedMap Key Value).Recorded where
  pairs := rfl
  known := fun _ => Iff.rfl
  answers := .nil
  replayed := rfl

omit [Std.TransOrd Key] [Std.LawfulEqOrd Key] in
/-- The capacity leaves no trace. -/
theorem withCapacity_eq_new (capacity : Nat) :
    (withCapacity capacity : OfferedMap Key Value) = new := rfl

namespace Recorded

variable {offered : OfferedMap Key Value}

/-- The size counts the accepted offers. -/
theorem size_eq (recorded : offered.Recorded) :
    offered.map.size = offered.offers.countP Offer.accepted := by
  rw [OrderedMap.size_eq_length, recorded.pairs, List.length_map, List.countP_eq_length_filter]

/-- One more offer is recorded behind the others. -/
theorem offer (recorded : offered.Recorded) (key : Key) (value : Value) :
    (offered.offer key value).Recorded := by
  obtain ⟨_, appends, refuses⟩ := takes offered.map key value
  have replayed : (offered.offer key value).map = replay (offered.offer key value).offers := by
    simp only [OfferedMap.offer, replay, List.foldl_append, List.foldl_cons, List.foldl_nil]
    rw [← replay, ← recorded.replayed]
  by_cases taken : key ∈ offered.map.keys
  · have same : offered.offer key value =
        ⟨offered.map, offered.offers ++ [⟨key, value, .error value⟩]⟩ := by
      rw [OfferedMap.offer, refuses taken]
    have earlier := (recorded.known key).mp taken
    refine ⟨?_, ?_, ?_, replayed⟩
    · simp [same, recorded.pairs]
    · intro other
      rw [same, recorded.known]
      simp only [List.map_append, List.map_singleton, List.mem_append, List.mem_singleton]
      constructor
      · exact .inl
      · rintro (known | rfl)
        · exact known
        · exact earlier
    · rw [same]
      exact recorded.answers.concat (fun fresh => absurd earlier fresh) fun _ => rfl
  · obtain ⟨answer, pairs⟩ := appends taken
    have offers : (offered.offer key value).offers =
        offered.offers ++ [⟨key, value, .ok offered.map.size⟩] := by
      simp only [OfferedMap.offer, answer]
    have unknown := mt (recorded.known key).mpr taken
    refine ⟨?_, ?_, ?_, replayed⟩
    · rw [offers, OfferedMap.offer, pairs, recorded.pairs, List.filter_append, List.map_append]
      rfl
    · intro other
      rw [offers, OfferedMap.offer, OrderedMap.keys, pairs, List.map_append, List.map_append,
        List.mem_append, List.mem_append, ← recorded.known, OrderedMap.keys]
      rfl
    · rw [offers, recorded.size_eq]
      exact recorded.answers.concat (fun _ => rfl) fun known => absurd known unknown

/-- Every lookup reads the recorded first offers. -/
theorem holdsFirst (recorded : offered.Recorded) : offered.HoldsFirst where
  answers := recorded.answers
  replayed := recorded.replayed
  pairs := recorded.pairs
  keys := by
    rw [OrderedMap.keys, recorded.pairs, List.map_map]
    rfl
  distinct := offered.map.nodup_keys
  size := recorded.size_eq
  isEmpty := by
    rw [OrderedMap.isEmpty, OrderedMap.size, Array.isEmpty_iff_size_eq_zero]
  first := by
    intro key value
    rw [OrderedMap.get?_eq_some_iff, recorded.pairs, recorded.answers.mem_pairs_iff]
  contains := by
    intro key
    rw [OrderedMap.contains_iff_mem_keys, recorded.known]
  isSome := offered.map.contains_eq_isSome
  position := by
    intro key position
    rw [OrderedMap.position?_eq_some_iff, OrderedMap.pairAt?_eq_getElem?, OrderedMap.keys,
      List.getElem?_map]
  placed := by
    intro key value
    rw [OrderedMap.get?_eq_some_iff, List.mem_iff_getElem?]
    apply exists_congr
    intro position
    rw [OrderedMap.position?_eq_some_iff, OrderedMap.pairAt?_eq_getElem?, OrderedMap.keys,
      List.getElem?_map]
    constructor
    · intro stands
      simp [stands]
    · exact And.right
  listed := offered.map.pairAt?_eq_getElem?
  outside := by
    intro position
    rw [OrderedMap.pairAt?_eq_getElem?, List.getElem?_eq_none_iff, OrderedMap.size_eq_length]
  takes := takes offered.map

end Recorded

/-- The maps stand on a shelf in the order in which they were made. -/
inductive ShelfStep (Key Value : Type) where
  | new
  | withCapacity (capacity : Nat)
  | offer (place : Nat) (key : Key) (value : Value)
  | copy (place : Nat)
  deriving DecidableEq, Repr

/-- No room is reserved. -/
def ShelfStep.withoutCapacity : ShelfStep Key Value → ShelfStep Key Value
  | .withCapacity _ => .new
  | step => step

/-- A new map and a copy go to the end of the shelf. -/
def stepShelf (shelf : List (OfferedMap Key Value)) :
    ShelfStep Key Value → List (OfferedMap Key Value)
  | .new => shelf ++ [new]
  | .withCapacity capacity => shelf ++ [withCapacity capacity]
  | .offer place key value => shelf.modify place fun offered => offered.offer key value
  | .copy place => shelf ++ shelf[place]?.toList

def runShelf (steps : List (ShelfStep Key Value)) : List (OfferedMap Key Value) :=
  steps.foldl stepShelf []

/-- A step makes an empty map, offers a pair to one map, or repeats one. -/
theorem stepShelf_recorded {shelf : List (OfferedMap Key Value)}
    (recorded : ∀ offered ∈ shelf, offered.Recorded) (step : ShelfStep Key Value) :
    ∀ offered ∈ stepShelf shelf step, offered.Recorded := by
  intro offered member
  cases step with
  | new =>
      rcases List.mem_append.mp member with old | added
      · exact recorded offered old
      · rw [List.mem_singleton.mp added]
        exact new_recorded
  | withCapacity capacity =>
      rcases List.mem_append.mp member with old | added
      · exact recorded offered old
      · rw [List.mem_singleton.mp added, withCapacity_eq_new]
        exact new_recorded
  | offer place key value =>
      obtain ⟨index, stands⟩ := List.mem_iff_getElem?.mp member
      rw [stepShelf, List.getElem?_modify] at stands
      obtain ⟨before, found, same⟩ := Option.map_eq_some_iff.mp stands
      have earlier := recorded before (List.mem_of_getElem? found)
      by_cases here : place = index
      · rw [← same, if_pos here]
        exact earlier.offer key value
      · rw [← same, if_neg here]
        exact earlier
  | copy place =>
      rcases List.mem_append.mp member with old | copied
      · exact recorded offered old
      · exact recorded offered (List.mem_of_getElem? (Option.mem_toList.mp copied))

/-- All maps of a run hold their first offers. -/
theorem runShelf_recorded (steps : List (ShelfStep Key Value)) :
    ∀ offered ∈ runShelf steps, offered.Recorded := by
  induction steps using List.reverseRecOn with
  | nil => exact fun _ member => absurd member List.not_mem_nil
  | append_singleton steps step ih =>
      rw [runShelf, List.foldl_append]
      exact stepShelf_recorded ih step

/-- The capacity makes no difference to a step. -/
theorem stepShelf_withoutCapacity (shelf : List (OfferedMap Key Value))
    (step : ShelfStep Key Value) :
    stepShelf shelf step.withoutCapacity = stepShelf shelf step := by
  cases step <;> rfl

/-- Every map of every run holds its own first offers, offers leave the other maps alone, a copy
starts out equal to its original, and the capacities change nothing. -/
theorem runShelf_holdsFirst (steps : List (ShelfStep Key Value)) :
    (∀ offered ∈ runShelf steps, offered.HoldsFirst) ∧
    (∀ place key value other, other ≠ place →
      (stepShelf (runShelf steps) (.offer place key value))[other]? = (runShelf steps)[other]?) ∧
    (∀ place offered, (runShelf steps)[place]? = some offered →
      stepShelf (runShelf steps) (.copy place) = runShelf steps ++ [offered]) ∧
    runShelf (steps.map ShelfStep.withoutCapacity) = runShelf steps := by
  refine ⟨?_, ?_, ?_, ?_⟩
  · intro offered member
    exact (runShelf_recorded steps offered member).holdsFirst
  · intro place key value other elsewhere
    rw [stepShelf, List.getElem?_modify]
    simp [elsewhere.symm]
  · intro place offered stands
    rw [stepShelf, stands, Option.toList_some]
  · rw [runShelf, List.foldl_map, runShelf]
    simp only [stepShelf_withoutCapacity]

/-- A map and its copy take different values of one key, and each hands back what it is offered
again. -/
theorem runShelf_of_copy :
    let steps : List (ShelfStep String Int) :=
      [.withCapacity 4, .offer 0 "a" 1, .copy 0, .offer 1 "b" 2, .offer 0 "b" 3, .offer 0 "a" 4,
        .offer 1 "" 5]
    Std.TransOrd String ∧ Std.LawfulEqOrd String ∧
      (∀ offered ∈ runShelf steps, offered.HoldsFirst) ∧
      ((runShelf steps).map fun offered => offered.map.toList) =
        [[("a", 1), ("b", 3)], [("a", 1), ("b", 2), ("", 5)]] := by
  intro steps
  exact ⟨inferInstance, inferInstance, (runShelf_holdsFirst steps).1, by decide +kernel⟩

end OfferedMap

end Lexicon
