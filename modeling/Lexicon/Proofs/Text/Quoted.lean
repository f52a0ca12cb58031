import Lexicon.Catalog.Report
import Mathlib.Data.List.Basic

/-! A quoted text shows seen characters only and is that of no other text. -/

namespace Lexicon.Text

/-- The printable characters of the first block. -/
def IsPrintable (c : Char) : Prop := 0x20 ≤ c.toNat ∧ c.toNat ≤ 0x7E

instance (c : Char) : Decidable (IsPrintable c) := inferInstanceAs (Decidable (_ ∧ _))

/-- No printable character lies in an unseen range. -/
theorem unseenRanges_apart :
    unseenRanges.toList.all (fun range => range.2 < 0x20 || 0x7E < range.1) = true := by
  decide +kernel

theorem any_eq_false_of_apart {ranges : List (Nat × Nat)} {c : Char}
    (apart : ranges.all (fun range => range.2 < 0x20 || 0x7E < range.1) = true)
    (printable : IsPrintable c) :
    ranges.any (fun range => range.1 ≤ c.toNat && c.toNat ≤ range.2) = false := by
  rw [List.any_eq_false]
  intro range member
  have outside := List.all_eq_true.mp apart range member
  simp only [Bool.or_eq_true, Bool.and_eq_true, decide_eq_true_eq] at outside ⊢
  unfold IsPrintable at printable
  omega

/-- A printable character is seen. -/
theorem IsPrintable.seen {c : Char} (printable : IsPrintable c) : isUnseen c = false := by
  rw [isUnseen, ← Array.any_toList, any_eq_false_of_apart unseenRanges_apart printable, Bool.and_false]

/-- A digit of a number of a character is below sixteen. -/
theorem exists_digitChar_of_mem_toDigits {number : Nat} {c : Char}
    (digit : c ∈ Nat.toDigits 16 number) : ∃ value < 16, c = value.digitChar := by
  induction number using Nat.strongRecOn with
  | ind number ih =>
      rw [Nat.toDigits_eq_if (by decide)] at digit
      split at digit
      · rename_i small
        exact ⟨number, small, List.mem_singleton.mp digit⟩
      · rcases List.mem_append.mp digit with high | low
        · exact ih _ (Nat.div_lt_self (by omega) (by decide)) high
        · exact ⟨number % 16, Nat.mod_lt _ (by decide), List.mem_singleton.mp low⟩

theorem digitChar_inj : ∀ first < 16, ∀ second < 16,
    first.digitChar = second.digitChar → first = second := by decide

/-- A digit is printable and no brace. -/
theorem isPrintable_digitChar : ∀ value < 16,
    IsPrintable value.digitChar ∧ value.digitChar ≠ '\x7d' := by decide

/-- Different numbers have different digits. -/
theorem toDigits_inj {first second : Nat} (same : Nat.toDigits 16 first = Nat.toDigits 16 second) :
    first = second := by
  induction first using Nat.strongRecOn generalizing second with
  | ind first ih =>
      rcases Nat.lt_or_ge first 16 with short | long <;> rcases Nat.lt_or_ge second 16 with less | more
      · rw [Nat.toDigits_of_lt_base short, Nat.toDigits_of_lt_base less] at same
        exact digitChar_inj _ short _ less (List.singleton_inj.mp same)
      · rw [Nat.toDigits_of_lt_base short, Nat.toDigits_of_base_le (by decide) more] at same
        exact absurd (List.append_eq_singleton_iff.mp same.symm) (by simp [Nat.toDigits_ne_nil])
      · rw [Nat.toDigits_of_lt_base less, Nat.toDigits_of_base_le (by decide) long] at same
        exact absurd (List.append_eq_singleton_iff.mp same) (by simp [Nat.toDigits_ne_nil])
      · rw [Nat.toDigits_of_base_le (by decide) long, Nat.toDigits_of_base_le (by decide) more] at same
        obtain ⟨high, low⟩ := List.append_inj' same rfl
        have quotient := ih _ (Nat.div_lt_self (by omega) (by decide)) high
        have remainder := digitChar_inj _ (Nat.mod_lt _ (by decide)) _ (Nat.mod_lt _ (by decide))
          (List.singleton_inj.mp low)
        omega

/-- The character that a short escape stands for. -/
def ofLetter (letter : Char) : Char :=
  if letter = 't' then '\t'
  else if letter = 'r' then '\r'
  else if letter = 'n' then '\n'
  else if letter = '0' then '\x00'
  else letter

/-- The forms that a character takes in a quoted text. -/
inductive QuotedAs : Char → List Char → Prop where
  | letter {c letter : Char} (own : ofLetter letter = c) (short : letter ≠ 'u')
      (printable : IsPrintable letter) : QuotedAs c ['\\', letter]
  | number (c : Char) : QuotedAs c (numbered c)
  | itself {c : Char} (quote : c ≠ '"') (slash : c ≠ '\\') (seen : isUnseen c = false) :
      QuotedAs c [c]

/-- Every character takes one of the forms. -/
theorem quotedAs_quotedChar (c : Char) : QuotedAs c (quotedChar c) := by
  unfold quotedChar
  iterate 6
    split
    · rename_i same
      obtain rfl := eq_of_beq same
      exact .letter rfl (by decide) (by decide)
  split
  · exact .number c
  · rename_i quote slash _ _ _ _ seen
    simp only [beq_iff_eq, Bool.not_eq_true] at quote slash seen
    exact .itself quote slash seen

theorem numbered_eq (c : Char) :
    numbered c = '\\' :: 'u' :: '\x7b' :: (Nat.toDigits 16 c.toNat ++ ['\x7d']) := rfl

/-- The forms of a character are made of seen characters. -/
theorem QuotedAs.seen {c shown : Char} {form : List Char} (quotedAs : QuotedAs c form)
    (member : shown ∈ form) : isUnseen shown = false := by
  cases quotedAs with
  | letter own short printable =>
      rcases List.mem_pair.mp member with rfl | rfl
      · exact IsPrintable.seen (by decide)
      · exact printable.seen
  | number =>
      simp only [numbered_eq, List.mem_cons, List.mem_append, List.not_mem_nil, or_false] at member
      rcases member with rfl | rfl | rfl | digit | rfl
      · exact IsPrintable.seen (by decide)
      · exact IsPrintable.seen (by decide)
      · exact IsPrintable.seen (by decide)
      · obtain ⟨value, small, rfl⟩ := exists_digitChar_of_mem_toDigits digit
        exact (isPrintable_digitChar value small).1.seen
      · exact IsPrintable.seen (by decide)
  | itself quote slash seen => exact List.mem_singleton.mp member ▸ seen

/-- No brace stands among digits. -/
theorem brace_notMem_toDigits (number : Nat) : '\x7d' ∉ Nat.toDigits 16 number := by
  intro digit
  obtain ⟨value, small, same⟩ := exists_digitChar_of_mem_toDigits digit
  exact (isPrintable_digitChar value small).2 same.symm

/-- Two lists that part at the first of one element part into the same lists. -/
theorem eq_of_append_cons_eq {Element : Type} {mark : Element}
    {first second before after : List Element} (one : mark ∉ first) (two : mark ∉ second)
    (same : first ++ mark :: before = second ++ mark :: after) : first = second ∧ before = after := by
  induction first generalizing second with
  | nil =>
      cases second with
      | nil => exact ⟨rfl, (List.cons.inj same).2⟩
      | cons => exact absurd ((List.cons.inj same).1 ▸ List.mem_cons_self) two
  | cons head tail ih =>
      cases second with
      | nil => exact absurd ((List.cons.inj same).1 ▸ List.mem_cons_self) one
      | cons other others =>
          obtain ⟨rfl, tails⟩ := List.cons.inj same
          obtain ⟨rfl, rest⟩ :=
            ih (List.not_mem_of_not_mem_cons one) (List.not_mem_of_not_mem_cons two) tails
          exact ⟨rfl, rest⟩

/-- The form of a character tells where it ends. -/
theorem QuotedAs.append_inj {first second : Char} {one two before after : List Char}
    (left : QuotedAs first one) (right : QuotedAs second two)
    (same : one ++ before = two ++ after) : first = second ∧ before = after := by
  cases left with
  | letter own short =>
      cases right with
      | letter other =>
          simp only [List.cons_append, List.nil_append, List.cons.injEq, true_and] at same
          obtain ⟨rfl, rest⟩ := same
          exact ⟨own.symm.trans other, rest⟩
      | number =>
          simp only [numbered_eq, List.cons_append, List.nil_append, List.cons.injEq] at same
          exact absurd same.2.1 short
      | itself quote slash =>
          simp only [List.cons_append, List.cons.injEq] at same
          exact absurd same.1.symm slash
  | number =>
      cases right with
      | letter other short =>
          simp only [numbered_eq, List.cons_append, List.cons.injEq] at same
          exact absurd same.2.1.symm short
      | number =>
          simp only [numbered_eq, List.cons_append, List.append_assoc, List.nil_append,
            List.cons.injEq, true_and] at same
          obtain ⟨digits, rest⟩ :=
            eq_of_append_cons_eq (brace_notMem_toDigits _) (brace_notMem_toDigits _) same
          exact ⟨Char.toNat_inj.mp (toDigits_inj digits), rest⟩
      | itself quote slash =>
          simp only [numbered_eq, List.cons_append, List.cons.injEq] at same
          exact absurd same.1.symm slash
  | itself quote slash =>
      cases right with
      | letter =>
          simp only [List.cons_append, List.cons.injEq] at same
          exact absurd same.1 slash
      | number =>
          simp only [numbered_eq, List.cons_append, List.cons.injEq] at same
          exact absurd same.1 slash
      | itself =>
          simp only [List.cons_append, List.nil_append, List.cons.injEq] at same
          exact same

/-- No form of a character begins like the end of the text. -/
theorem QuotedAs.ne_quote {c : Char} {form rest before : List Char} (quotedAs : QuotedAs c form) :
    form ++ rest ≠ '"' :: before := by
  intro same
  cases quotedAs with
  | letter => exact absurd (List.cons.inj same).1 (by decide)
  | number => exact absurd (List.cons.inj same).1 (by decide)
  | itself quote => exact absurd (List.cons.inj same).1 quote

/-- Different characters are quoted differently, one after another. -/
theorem flatMap_quotedChar_inj {first second : List Char}
    (same : first.flatMap quotedChar ++ ['"'] = second.flatMap quotedChar ++ ['"']) :
    first = second := by
  induction first generalizing second with
  | nil =>
      cases second with
      | nil => rfl
      | cons c rest =>
          rw [List.flatMap_cons, List.append_assoc] at same
          exact absurd same.symm (quotedAs_quotedChar c).ne_quote
  | cons c rest ih =>
      cases second with
      | nil =>
          rw [List.flatMap_cons, List.append_assoc] at same
          exact absurd same (quotedAs_quotedChar c).ne_quote
      | cons other others =>
          rw [List.flatMap_cons, List.flatMap_cons, List.append_assoc, List.append_assoc] at same
          obtain ⟨rfl, tails⟩ := (quotedAs_quotedChar c).append_inj (quotedAs_quotedChar other) same
          rw [ih tails]

/-- Only seen characters stand in a quoted text. -/
theorem isUnseen_of_mem_quoted {text : String} {c : Char} (member : c ∈ (quoted text).toList) :
    isUnseen c = false := by
  rw [quoted, String.toList_ofList] at member
  simp only [List.mem_cons, List.mem_append, List.mem_flatMap, List.not_mem_nil, or_false] at member
  rcases member with (rfl | ⟨own, -, form⟩) | rfl
  · exact IsPrintable.seen (by decide)
  · exact (quotedAs_quotedChar own).seen form
  · exact IsPrintable.seen (by decide)

/-- Different texts are quoted differently. -/
theorem quoted_injective : Function.Injective quoted := by
  intro first second same
  have lists := congrArg String.toList same
  rw [quoted, quoted, String.toList_ofList, String.toList_ofList, List.cons_append, List.cons_append,
    List.cons.injEq] at lists
  exact String.toList_inj.mp (flatMap_quotedChar_inj lists.2)

end Lexicon.Text

namespace Lexicon.TableError

/-- The message of an invalid spelling tells the spelling. -/
theorem invalidKeyword_message_inj {first second : String} :
    message (.invalidKeyword first) = message (.invalidKeyword second) ↔ first = second := by
  refine ⟨fun same => Text.quoted_injective ?_, fun same => same ▸ rfl⟩
  exact (String.append_right_inj _).mp same

end Lexicon.TableError
