import Lexicon.Token.Kind

/-! The list of the kinds holds each kind once, at its position. -/

namespace Lexicon.Kind

/-- A kind stands in the list at its position and nowhere else. -/
theorem getElem?_all_eq_some_iff {position : Nat} {kind : Kind} :
    all[position]? = some kind ↔ position = kind.position := by
  constructor
  · intro stands
    have inside := (List.getElem?_eq_some_iff.mp stands).1
    have distinct : all.Nodup := by decide
    exact (List.getElem?_inj inside distinct).mp (stands.trans kind.all_getElem?_position.symm)
  · intro place
    rw [place]
    exact kind.all_getElem?_position

/-- In a list that begins with the kinds, the other elements stand from forty on. -/
theorem getElem?_map_all_append_eq_some_iff {Value : Type} {value : Kind → Value}
    {others : List Value} {position : Nat} {found : Value} :
    (all.map value ++ others)[position]? = some found ↔
      (∃ kind : Kind, position = kind.position ∧ value kind = found) ∨
        ∃ index, position = 40 + index ∧ others[index]? = some found := by
  rw [List.getElem?_append, List.length_map, show all.length = 40 from rfl]
  split
  · rename_i low
    rw [List.getElem?_map, Option.map_eq_some_iff]
    simp only [getElem?_all_eq_some_iff]
    constructor
    · exact .inl
    · intro either
      rcases either with kind | ⟨index, place, _⟩
      · exact kind
      · omega
  · rename_i high
    constructor
    · intro stands
      exact .inr ⟨position - 40, by omega, stands⟩
    · intro either
      rcases either with ⟨kind, rfl, _⟩ | ⟨index, rfl, stands⟩
      · exact absurd kind.position_lt high
      · rwa [Nat.add_sub_cancel_left]

/-- The handle of a kind is known by its position. -/
theorem eq_handle_iff {handle : Handle} {kind : Kind} :
    handle = kind.handle ↔ handle.position = kind.position := by
  constructor
  · intro same
    rw [same, kind.position_handle]
  · intro place
    rw [Kind.handle, ← place, Handle.ofPosition_position]

/-- The name of a kind finds this kind and no other. -/
theorem ofName?_eq_some_iff {name : String} {kind : Kind} :
    ofName? name = some kind ↔ kind.name = name := by
  constructor
  · intro found
    rw [ofName?] at found
    simpa using List.find?_some found
  · intro same
    rw [← same]
    exact kind.ofName?_name

/-- No name of a kind begins with an underscore. -/
theorem head?_name (kind : Kind) : kind.name.toList.head? ≠ some '_' := by
  cases kind <;> decide

end Lexicon.Kind
