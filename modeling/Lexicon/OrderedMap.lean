import Std.Data.TreeMap

/-! A map keeps its entries in insertion order and never replaces or removes one. -/

namespace Lexicon

/-- The entries stand in insertion order, and the index finds the position of each key. -/
structure OrderedMap (Key Value : Type) [Ord Key] where
  entries : Array (Key × Value)
  index : Std.TreeMap Key Nat
  indexed : ∀ (key : Key) (position : Nat), index[key]? = some position ↔
    entries[position]?.map Prod.fst = some key

namespace OrderedMap

variable {Key Value : Type} [Ord Key]

/-- The capacity reserves room and changes no answer. -/
def withCapacity (capacity : Nat) : OrderedMap Key Value :=
  ⟨Array.emptyWithCapacity capacity, ∅, fun _ _ => ⟨nofun, by simp⟩⟩

def empty : OrderedMap Key Value := withCapacity 0

instance : Inhabited (OrderedMap Key Value) := ⟨empty⟩

def toList (map : OrderedMap Key Value) : List (Key × Value) := map.entries.toList

def keys (map : OrderedMap Key Value) : List Key := map.toList.map Prod.fst

def values (map : OrderedMap Key Value) : List Value := map.toList.map Prod.snd

def size (map : OrderedMap Key Value) : Nat := map.entries.size

def isEmpty (map : OrderedMap Key Value) : Bool := map.entries.isEmpty

def contains (map : OrderedMap Key Value) (key : Key) : Bool := map.index.contains key

/-- The position of a key counts the entries inserted before it. -/
def position? (map : OrderedMap Key Value) (key : Key) : Option Nat := map.index[key]?

def pairAt? (map : OrderedMap Key Value) (position : Nat) : Option (Key × Value) :=
  map.entries[position]?

def get? (map : OrderedMap Key Value) (key : Key) : Option Value :=
  (map.position? key).bind fun position => (map.pairAt? position).map Prod.snd

section Insertion

variable [Std.TransOrd Key] [Std.LawfulEqOrd Key]

/-- A fresh key is appended and its position returned. A taken key hands the offered value back. -/
def tryInsert (map : OrderedMap Key Value) (key : Key) (value : Value) :
    Except Value Nat × OrderedMap Key Value :=
  if taken : key ∈ map.index then (.error value, map)
  else
    (.ok map.entries.size,
      { entries := map.entries.push (key, value)
        index := map.index.insert key map.entries.size
        indexed := by
          intro other position
          have old := map.indexed other position
          have fresh : ∀ position : Nat, map.entries[position]?.map Prod.fst ≠ some key := by
            intro position found
            exact taken (Std.TreeMap.mem_iff_isSome_getElem?.mpr
              (by rw [(map.indexed key position).mpr found]; rfl))
          rw [Std.TreeMap.getElem?_insert, Array.getElem?_push]
          by_cases same : key = other
          · subst same
            by_cases last : position = map.entries.size
            · simp [last]
            · simpa [last, Ne.symm last] using fresh position
          · by_cases last : position = map.entries.size
            · subst last
              simpa [same] using old
            · simpa [same, last] using old })

end Insertion

theorem size_eq_length (map : OrderedMap Key Value) : map.size = map.toList.length := by
  simp [size, toList]

theorem pairAt?_eq_getElem? (map : OrderedMap Key Value) (position : Nat) :
    map.pairAt? position = map.toList[position]? := by
  simp [pairAt?, toList]

/-- The position of a key is where the list of keys holds it. -/
theorem position?_eq_some_iff (map : OrderedMap Key Value) (key : Key) (position : Nat) :
    map.position? key = some position ↔ map.keys[position]? = some key := by
  simpa [position?, keys, toList] using map.indexed key position

/-- No key stands at two positions. -/
theorem nodup_keys (map : OrderedMap Key Value) : map.keys.Nodup := by
  rw [List.Nodup, List.pairwise_iff_getElem]
  intro first second firstWithin secondWithin before same
  have one := (map.position?_eq_some_iff _ first).mpr (List.getElem?_eq_getElem firstWithin)
  have two := (map.position?_eq_some_iff _ second).mpr (List.getElem?_eq_getElem secondWithin)
  rw [same, two] at one
  injection one
  omega

/-- A key has a value exactly when the pair is an entry. -/
theorem get?_eq_some_iff (map : OrderedMap Key Value) (key : Key) (value : Value) :
    map.get? key = some value ↔ (key, value) ∈ map.toList := by
  simp only [get?, Option.bind_eq_some_iff, Option.map_eq_some_iff, pairAt?_eq_getElem?,
    List.mem_iff_getElem?]
  constructor
  · rintro ⟨position, found, ⟨entryKey, entryValue⟩, entry, rfl⟩
    have key := (map.position?_eq_some_iff key position).mp found
    simp only [keys, List.getElem?_map, entry, Option.map_some, Option.some.injEq] at key
    exact ⟨position, by simp [entry, key]⟩
  · rintro ⟨position, entry⟩
    exact ⟨position, (map.position?_eq_some_iff key position).mpr (by simp [keys, entry]),
      (key, value), entry, rfl⟩

section Lookup

variable [Std.TransOrd Key]

theorem contains_eq_isSome (map : OrderedMap Key Value) (key : Key) :
    map.contains key = (map.position? key).isSome := by
  exact Std.TreeMap.contains_eq_isSome_getElem?

/-- A map contains the keys that it lists. -/
theorem contains_iff_mem_keys (map : OrderedMap Key Value) (key : Key) :
    map.contains key = true ↔ key ∈ map.keys := by
  rw [contains_eq_isSome, Option.isSome_iff_exists, List.mem_iff_getElem?]
  exact exists_congr fun position => map.position?_eq_some_iff key position

/-- A key without a value is no key of the map. -/
theorem get?_eq_none_iff (map : OrderedMap Key Value) (key : Key) :
    map.get? key = none ↔ map.contains key = false := by
  rw [Bool.eq_false_iff, ne_eq, contains_iff_mem_keys, keys, List.mem_map,
    Option.eq_none_iff_forall_ne_some]
  simp only [ne_eq, get?_eq_some_iff]
  constructor
  · intro absent found
    obtain ⟨⟨_, value⟩, member, rfl⟩ := found
    exact absent value member
  · intro absent value member
    exact absent ⟨(key, value), member, rfl⟩

variable [Std.LawfulEqOrd Key]

/-- A taken key changes nothing. -/
theorem tryInsert_of_contains {map : OrderedMap Key Value} {key : Key}
    (taken : map.contains key = true) (value : Value) :
    map.tryInsert key value = (.error value, map) := by
  have : key ∈ map.index := Std.TreeMap.contains_iff_mem.mp taken
  simp [tryInsert, this]

/-- A fresh key goes to the end, at the position that the size gives. -/
theorem tryInsert_of_not_contains {map : OrderedMap Key Value} {key : Key}
    (fresh : map.contains key = false) (value : Value) :
    (map.tryInsert key value).1 = .ok map.size ∧
      (map.tryInsert key value).2.toList = map.toList ++ [(key, value)] := by
  have : key ∉ map.index := by
    intro taken
    rw [contains, Std.TreeMap.contains_iff_mem.mpr taken] at fresh
    contradiction
  simp [tryInsert, this, toList, size]

end Lookup

end OrderedMap

end Lexicon
