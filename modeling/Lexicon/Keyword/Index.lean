import Lexicon.OrderedMap
import Lexicon.Token.Descriptor

/-! The index finds the handle of a reserved word by its spelling. -/

namespace Lexicon

/-- Each spelling has a handle, and the handles stand once more in registration order. No answer shows
an order of the spellings. -/
structure KeywordIndex where
  bySpelling : OrderedMap String Handle
  order : Array Handle
  inStep : order.toList = bySpelling.values

namespace KeywordIndex

def empty : KeywordIndex := ⟨.empty, #[], rfl⟩

instance : Inhabited KeywordIndex := ⟨empty⟩

def toList (index : KeywordIndex) : List (String × Handle) := index.bySpelling.toList

/-- A word without a handle is a plain identifier. -/
def get? (index : KeywordIndex) (spelling : String) : Option Handle :=
  index.bySpelling.get? spelling

def contains (index : KeywordIndex) (spelling : String) : Bool :=
  index.bySpelling.contains spelling

/-- The keyword handles stand in registration order. -/
def handles (index : KeywordIndex) : List Handle := index.order.toList

def size (index : KeywordIndex) : Nat := index.order.size

def isEmpty (index : KeywordIndex) : Bool := index.order.isEmpty

/-- A word that is new to the index goes to both tables. -/
def insert (index : KeywordIndex) (spelling : String) (handle : Handle)
    (fresh : index.contains spelling = false) : KeywordIndex where
  bySpelling := (index.bySpelling.tryInsert spelling handle).2
  order := index.order.push handle
  inStep := by
    rw [Array.toList_push, index.inStep, OrderedMap.values, OrderedMap.values,
      (OrderedMap.tryInsert_of_not_contains fresh handle).2, List.map_append]
    rfl

/-- The size counts the listed spellings. -/
theorem size_eq_length (index : KeywordIndex) : index.size = index.toList.length := by
  rw [size, ← Array.length_toList, index.inStep]
  exact List.length_map _

/-- A spelling is found at the handle it is listed with. -/
theorem get?_eq_some_iff (index : KeywordIndex) (spelling : String) (handle : Handle) :
    index.get? spelling = some handle ↔ (spelling, handle) ∈ index.toList :=
  index.bySpelling.get?_eq_some_iff spelling handle

/-- Both tables hold the same handles. -/
theorem handles_eq_map (index : KeywordIndex) : index.handles = index.toList.map Prod.snd :=
  index.inStep

/-- Each spelling has one handle. -/
theorem length_handles (index : KeywordIndex) : index.handles.length = index.size :=
  index.order.length_toList

/-- The handles are those that a spelling finds. -/
theorem mem_handles_iff (index : KeywordIndex) (handle : Handle) :
    handle ∈ index.handles ↔ ∃ spelling, index.get? spelling = some handle := by
  rw [handles_eq_map, List.mem_map]
  constructor
  · intro listed
    obtain ⟨⟨spelling, _⟩, member, rfl⟩ := listed
    exact ⟨spelling, (index.get?_eq_some_iff spelling _).mpr member⟩
  · intro found
    obtain ⟨spelling, found⟩ := found
    exact ⟨(spelling, handle), (index.get?_eq_some_iff spelling handle).mp found, rfl⟩

/-- A fresh spelling is listed last. -/
theorem toList_insert {index : KeywordIndex} {spelling : String}
    (fresh : index.contains spelling = false) (handle : Handle) :
    (index.insert spelling handle fresh).toList = index.toList ++ [(spelling, handle)] :=
  (OrderedMap.tryInsert_of_not_contains fresh handle).2

end KeywordIndex

end Lexicon
