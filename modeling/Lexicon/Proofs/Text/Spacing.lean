import Lexicon.Text.WhiteSpace

/-! Cutting a text at its white space gives back the words it was laid out from. -/

namespace Lexicon

/-- The separator stands before every part but the first. -/
theorem intercalate_cons {Element : Type} (separator : Element) (first : List Element)
    (others : List (List Element)) :
    [separator].intercalate (first :: others) = first ++ others.flatMap (separator :: ·) := by
  induction others generalizing first with
  | nil => simp
  | cons second others ih =>
      rw [List.intercalate_cons_cons, ih, List.flatMap_cons, List.append_assoc,
        List.singleton_append, List.cons_append]

namespace Text

/-- Only white space is blank. -/
def IsBlank (text : String) : Prop := ∀ c ∈ text.toList, isWhiteSpace c = true

instance (text : String) : Decidable (IsBlank text) :=
  decidable_of_iff (text.toList.all isWhiteSpace = true) List.all_eq_true

/-- A word has characters, and none of them is white space. -/
def IsWord (text : String) : Prop := text ≠ "" ∧ ∀ c ∈ text.toList, isWhiteSpace c = false

instance (text : String) : Decidable (IsWord text) :=
  decidable_of_iff (text ≠ "" ∧ text.toList.any isWhiteSpace = false) (by simp [IsWord])

/-- The words of a text are words. -/
theorem isWord_of_mem_words {text word : String} (member : word ∈ words text) : IsWord word := by
  rw [words, List.mem_map] at member
  obtain ⟨piece, listed, rfl⟩ := member
  obtain ⟨listed, nonempty⟩ := List.mem_filter.mp listed
  constructor
  · intro empty
    rw [← String.toList_eq_nil_iff, String.toList_ofList] at empty
    simp [empty] at nonempty
  · intro c inside
    rw [String.toList_ofList] at inside
    exact isWhiteSpace_eq_false_of_mem_splitOnP listed inside

/-- A word stands with the gap behind it. -/
structure Placed where
  word : String
  gap : String
  deriving DecidableEq, Repr

/-- The gap behind a word leads the words that follow. -/
def layOut (lead : String) : List Placed → String
  | [] => lead
  | first :: rest => lead ++ (first.word ++ layOut first.gap rest)

/-- Between two words the gap is not empty, and before and after all words it can be. -/
structure Spaced (lead : String) (placed : List Placed) : Prop where
  lead : IsBlank lead
  words : ∀ each ∈ placed, IsWord each.word
  gaps : ∀ each ∈ placed, IsBlank each.gap
  apart : ∀ each ∈ placed.dropLast, each.gap ≠ ""

instance (lead : String) (placed : List Placed) : Decidable (Spaced lead placed) :=
  decidable_of_iff
    (IsBlank lead ∧ (∀ each ∈ placed, IsWord each.word) ∧ (∀ each ∈ placed, IsBlank each.gap) ∧
      ∀ each ∈ placed.dropLast, each.gap ≠ "")
    ⟨fun ⟨lead, words, gaps, apart⟩ => ⟨lead, words, gaps, apart⟩,
      fun ⟨lead, words, gaps, apart⟩ => ⟨lead, words, gaps, apart⟩⟩

/-- The pieces of a text are its words as lists of characters. -/
def pieces (text : List Char) : List (List Char) :=
  (text.splitOnP isWhiteSpace).filter (· ≠ [])

theorem words_eq_pieces (text : String) : words text = (pieces text.toList).map String.ofList := rfl

/-- White space in front adds no piece. -/
theorem pieces_blank_append {gap : List Char} (blank : ∀ c ∈ gap, isWhiteSpace c = true)
    (rest : List Char) : pieces (gap ++ rest) = pieces rest := by
  induction gap with
  | nil => rfl
  | cons first gap ih =>
      obtain ⟨first, blank⟩ := List.forall_mem_cons.mp blank
      rw [List.cons_append, pieces, List.splitOnP_cons_eq_if_modifyHead, if_pos first,
        List.filter_cons_of_neg (by simp)]
      exact ih blank

/-- A word is the first piece when white space or nothing follows. -/
theorem pieces_word_append {word rest : List Char} (nonempty : word ≠ [])
    (solid : ∀ c ∈ word, isWhiteSpace c = false)
    (ends : ∀ c, rest.head? = some c → isWhiteSpace c = true) :
    pieces (word ++ rest) = word :: pieces rest := by
  cases rest with
  | nil =>
      rw [List.append_nil, pieces, List.splitOnP_eq_singleton solid]
      simp [pieces, nonempty]
  | cons first rest =>
      have blank := ends first rfl
      rw [pieces, List.splitOnP_append_cons_of_forall_mem solid first blank,
        List.filter_cons_of_pos (by simpa using nonempty)]
      congr 1
      have gap : ∀ c ∈ [first], isWhiteSpace c = true := List.forall_mem_singleton.mpr blank
      exact (pieces_blank_append gap rest).symm

/-- Behind its first word a spaced text is spaced. -/
theorem Spaced.tail {lead : String} {first : Placed} {rest : List Placed}
    (spaced : Spaced lead (first :: rest)) : Spaced first.gap rest where
  lead := spaced.gaps first List.mem_cons_self
  words := fun each member => spaced.words each (List.mem_cons_of_mem first member)
  gaps := fun each member => spaced.gaps each (List.mem_cons_of_mem first member)
  apart := by
    intro each member
    apply spaced.apart each
    cases rest with
    | nil => cases member
    | cons second rest => exact List.mem_cons_of_mem first member

/-- What follows a word begins with white space. -/
theorem Spaced.isWhiteSpace_head {lead : String} {first : Placed} {rest : List Placed}
    (spaced : Spaced lead (first :: rest)) {c : Char}
    (head : (layOut first.gap rest).toList.head? = some c) : isWhiteSpace c = true := by
  have blank := spaced.gaps first List.mem_cons_self
  cases rest with
  | nil => exact blank c (List.mem_of_mem_head? head)
  | cons second rest =>
      have apart : first.gap.toList ≠ [] := by
        rw [ne_eq, String.toList_eq_nil_iff]
        exact spaced.apart first List.mem_cons_self
      obtain ⟨start, others, gap⟩ := List.exists_cons_of_ne_nil apart
      rw [layOut, String.toList_append, gap, List.cons_append, List.head?_cons,
        Option.some.injEq] at head
      apply blank
      simp [gap, head]

/-- A text that is laid out by words is cut into these words. -/
theorem words_layOut {lead : String} {placed : List Placed} (spaced : Spaced lead placed) :
    words (layOut lead placed) = placed.map Placed.word := by
  induction placed generalizing lead with
  | nil =>
      have none_left := pieces_blank_append spaced.lead []
      rw [List.append_nil] at none_left
      rw [layOut, words_eq_pieces, none_left]
      rfl
  | cons first rest ih =>
      obtain ⟨nonempty, solid⟩ := spaced.words first List.mem_cons_self
      have letters : first.word.toList ≠ [] := by
        rw [ne_eq, String.toList_eq_nil_iff]
        exact nonempty
      rw [layOut, words_eq_pieces, String.toList_append, String.toList_append,
        pieces_blank_append spaced.lead,
        pieces_word_append letters solid fun _ => spaced.isWhiteSpace_head, List.map_cons,
        ← words_eq_pieces, ih spaced.tail, String.ofList_toList]
      rfl

end Text

end Lexicon
