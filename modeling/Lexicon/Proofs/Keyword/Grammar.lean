import Lexicon.Keyword.Grammar
import Lexicon.Proofs.Token.Kind
import Lexicon.Token.Consistency

/-! The names of keywords begin with an underscore, and the grammar gives consistent attributes. -/

namespace Lexicon

namespace Keyword

/-- A name is an underscore and the spelling. -/
theorem toList_name (spelling : String) : (name spelling).toList = '_' :: spelling.toList := by
  rw [name, String.toList_append]
  rfl

/-- Different spellings have different names. -/
theorem name_injective {first second : String} (same : name first = name second) :
    first = second := by
  have texts := congrArg String.toList same
  rw [toList_name, toList_name] at texts
  exact String.toList_inj.mp (List.cons.inj texts).2

/-- The attributes of the grammar break no rule, also beside a right-associative operator. -/
theorem fault?_attributes (word : String) : (attributes word).fault? true true = none := by
  unfold attributes
  split <;> rfl

/-- No word of the grammar assigns. -/
theorem has_isAssign_attributes (word : String) : (attributes word).has .isAssign = false := by
  unfold attributes
  split <;> decide

/-- Among the words of the grammar only `in` and `instanceof` have a level. -/
theorem level_attributes (word : String) :
    (attributes word).level =
      if word = "in" ∨ word = "instanceof" then some Level.relational else none := by
  unfold attributes
  split
  all_goals simp_all [Attributes.ofFlags, Attributes.binary, Attributes.plain]

/-- A text is no spelling exactly when it is empty or holds white space. -/
theorem isSpelling_eq_false_iff (text : String) :
    isSpelling text = false ↔ text = "" ∨ text.toList.any Text.isWhiteSpace = true := by
  rw [isSpelling, Bool.and_eq_false_iff, Bool.not_eq_false', Bool.not_eq_false',
    String.isEmpty_iff]

/-- A spelling has characters, and none of them is white space. -/
theorem isSpelling_eq_true_iff (text : String) :
    isSpelling text = true ↔ text ≠ "" ∧ ∀ c ∈ text.toList, Text.isWhiteSpace c = false := by
  rw [← Bool.not_eq_false, isSpelling_eq_false_iff, not_or, List.any_eq_true]
  simp only [not_exists, not_and, Bool.not_eq_true, ne_eq]

end Keyword

/-- No kind has the name of a keyword. -/
theorem Kind.name_ne_keywordName (kind : Kind) (spelling : String) :
    kind.name ≠ Keyword.name spelling := by
  intro same
  apply kind.head?_name
  rw [same, Keyword.toList_name]
  rfl

end Lexicon
