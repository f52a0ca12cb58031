/-! White space is the Unicode property White_Space. -/

namespace Lexicon.Text

/-- These are the characters with the property White_Space. -/
def isWhiteSpace (c : Char) : Bool :=
  let code := c.toNat
  (0x9 ≤ code && code ≤ 0xD) || code == 0x20 || code == 0x85 || code == 0xA0 || code == 0x1680 ||
    (0x2000 ≤ code && code ≤ 0x200A) || code == 0x2028 || code == 0x2029 || code == 0x202F ||
    code == 0x205F || code == 0x3000

/-- The words of a text are its longest runs without white space. -/
def words (text : String) : List String :=
  ((text.toList.splitOnP isWhiteSpace).filter (· ≠ [])).map String.ofList

/-- A piece between white space characters holds none of them. -/
theorem isWhiteSpace_eq_false_of_mem_splitOnP {text piece : List Char} {c : Char}
    (member : piece ∈ text.splitOnP isWhiteSpace) (inside : c ∈ piece) :
    isWhiteSpace c = false := by
  induction text generalizing piece with
  | nil =>
      simp only [List.splitOnP_nil, List.mem_singleton] at member
      simp [member] at inside
  | cons first rest ih =>
      rw [List.splitOnP_cons_eq_if_modifyHead] at member
      by_cases blank : isWhiteSpace first
      · simp only [blank, if_true, List.mem_cons] at member
        rcases member with rfl | member
        · simp at inside
        · exact ih member inside
      · cases tail : rest.splitOnP isWhiteSpace with
        | nil => exact absurd tail (List.splitOnP_ne_nil _ rest)
        | cons head others =>
            simp only [blank, tail, Bool.false_eq_true, if_false, List.modifyHead_cons,
              List.mem_cons] at member
            rcases member with rfl | member
            · rcases List.mem_cons.mp inside with rfl | inside
              · simpa using blank
              · exact ih (by simp [tail]) inside
            · exact ih (by simp [tail, member]) inside

end Lexicon.Text
