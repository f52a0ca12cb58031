import Lexicon.Json.Streaming.Number
import Lexicon.Json.Streaming.Quote
import Lexicon.Proofs.Json.Grammar
import Mathlib.Data.List.TakeWhile
import Mathlib.Tactic.Tauto

/-! The tokens of the grammar are read to their ends. -/

namespace Lexicon.Json

section Digits

/-- No digit stands at the start of the text. -/
def NoDigit (text : List Char) : Prop := ∀ c ∈ text.head?, c.isDigit = false

/-- What ends a number does not begin with a digit. -/
theorem Ended.noDigit {text : List Char} (ended : Ended text) : NoDigit text :=
  fun c first => (ended c first).1

theorem NoDigit.any_isDigit {text : List Char} (stops : NoDigit text) :
    text.head?.any Char.isDigit = false := by
  cases text with
  | nil => rfl
  | cons c rest => exact stops c rfl

theorem AllDigits.any_isDigit {digits : List Char} (all : AllDigits digits)
    (nonempty : digits ≠ []) (rest : List Char) :
    (digits ++ rest).head?.any Char.isDigit = true := by
  cases digits with
  | nil => exact absurd rfl nonempty
  | cons c digits => exact all c List.mem_cons_self

/-- Digits are taken up to where they stop. -/
theorem AllDigits.takeWhile_append {digits rest : List Char} (all : AllDigits digits)
    (stops : NoDigit rest) : (digits ++ rest).takeWhile Char.isDigit = digits := by
  rw [List.takeWhile_append_of_pos all]
  cases rest with
  | nil => simp
  | cons c rest => simp [stops c rfl]

/-- What follows the digits is left. -/
theorem AllDigits.dropWhile_append {digits rest : List Char} (all : AllDigits digits)
    (stops : NoDigit rest) : (digits ++ rest).dropWhile Char.isDigit = rest := by
  rw [List.dropWhile_append_of_pos all]
  cases rest with
  | nil => rfl
  | cons c rest => simp [stops c rfl]

/-- A power starts with its mark, and what stands after a number carries no number on. -/
theorem Power.notDigit_notPoint {power rest : List Char} (written : Power power)
    (ends : Ended rest) : ∀ c ∈ (power ++ rest).head?, c.isDigit = false ∧ c ≠ '.' := by
  intro c first
  cases written with
  | absent => exact ⟨(ends c first).1, (ends c first).2.1⟩
  | digits marked =>
      cases first
      rcases marked with rfl | rfl <;> decide

/-- What follows a whole part does not carry its digits on. -/
theorem Fraction.noDigit {fraction rest : List Char} (written : Fraction fraction)
    (stops : NoDigit rest) : NoDigit (fraction ++ rest) := by
  cases written with
  | absent => exact stops
  | digits =>
      intro c first
      cases first
      decide

/-- A whole part begins with a digit. -/
theorem Whole.first_isDigit {whole : List Char} (written : Whole whole) :
    ∃ c others, whole = c :: others ∧ c.isDigit = true := by
  cases written with
  | zero => exact ⟨'0', [], rfl, rfl⟩
  | digits digit => exact ⟨_, _, rfl, digit⟩

/-- A number starts with a minus sign or a digit. -/
theorem Number.first_isDigit {text : List Char} (written : Number text) :
    ∃ c others, text = c :: others ∧ (c = '-' ∨ c.isDigit = true) := by
  cases written with
  | parts signed first =>
      rcases signed with rfl | rfl
      · obtain ⟨c, others, rfl, digit⟩ := first.first_isDigit
        exact ⟨c, _, rfl, .inr digit⟩
      · exact ⟨'-', _, rfl, .inl rfl⟩

end Digits

namespace Streaming

section Blanks

theorem isBlank_eq_true_iff (c : Char) :
    isBlank c = true ↔ c = ' ' ∨ c = '\t' ∨ c = '\n' ∨ c = '\r' := by
  simp only [isBlank, Bool.or_eq_true, beq_iff_eq]
  tauto

/-- White space is skipped. -/
theorem skipBlank_append {blank : List Char} (blanks : Blank blank) (rest : List Char) :
    skipBlank (blank ++ rest) = skipBlank rest := by
  rw [skipBlank, skipBlank]
  exact List.dropWhile_append_of_pos fun c member => (isBlank_eq_true_iff c).mpr (blanks c member)

/-- Skipping blanks leaves nothing of blanks alone. -/
theorem skipBlank_eq_nil_iff (text : List Char) : skipBlank text = [] ↔ Blank text := by
  rw [skipBlank, List.dropWhile_eq_nil_iff]
  exact forall₂_congr fun c _ => isBlank_eq_true_iff c

end Blanks

section Numbers

/-- A whole part is read as it is written. -/
theorem readWhole_append {whole rest : List Char} (written : Whole whole) (stops : NoDigit rest)
    (ended : Cause) : readWhole ended (whole ++ rest) = .ok (whole, rest) := by
  cases written with
  | zero =>
      rw [List.singleton_append, readWhole, if_pos rfl, stops.any_isDigit]
      rfl
  | digits digit nonzero digits =>
      rw [List.cons_append, readWhole, if_neg nonzero, if_pos digit,
        digits.takeWhile_append stops, digits.dropWhile_append stops]

/-- A fraction is read to its last digit, and where it is absent nothing is read. -/
theorem readFraction_append {fraction : List Char} (written : Fraction fraction) :
    ∃ digits, ∀ rest ended, NoDigit rest → (∀ c ∈ rest.head?, c ≠ '.') →
      readFraction ended (fraction ++ rest) = .ok (digits, rest) := by
  cases written with
  | absent =>
      refine ⟨none, fun rest ended _ pointless => ?_⟩
      rw [List.nil_append, readFraction]
      intro more same
      rw [same] at pointless
      exact pointless '.' rfl rfl
  | @digits digits nonempty digit =>
      refine ⟨some digits, fun rest ended stops _ => ?_⟩
      rw [List.cons_append, readFraction, digit.any_isDigit nonempty, if_pos rfl,
        digit.takeWhile_append stops, digit.dropWhile_append stops]

/-- A digit is no sign. -/
theorem readSign_of_isDigit {c : Char} (digit : c.isDigit = true) (rest : List Char) :
    readSign (c :: rest) = (false, c :: rest) := by
  unfold readSign
  split
  · rename_i same
    cases (List.cons.inj same).1
    cases digit
  · rfl

/-- A power is read up to what ends the number. -/
theorem readPower_append {power : List Char} (written : Power power) :
    ∃ digits, ∀ rest ended, Ended rest → readPower ended (power ++ rest) = .ok (digits, rest) := by
  cases written with
  | absent =>
      refine ⟨none, fun rest ended ends => ?_⟩
      cases rest with
      | nil => rfl
      | cons c rest =>
          obtain ⟨_, _, notSmall, notLarge⟩ := ends c rfl
          unfold readPower
          exact if_neg (not_or.mpr ⟨notSmall, notLarge⟩)
  | @digits mark sign digits marked signed nonempty digit =>
      obtain ⟨first, others, rfl⟩ := List.exists_cons_of_ne_nil nonempty
      obtain ⟨one, all⟩ := List.forall_mem_cons.mp digit
      have all : AllDigits others := all
      have notPlus : first ≠ '+' := by
        rintro rfl
        cases one
      refine ⟨some (decide (sign = ['-']), first :: others), fun rest ended ends => ?_⟩
      have inside := all.takeWhile_append ends.noDigit
      have beyond := all.dropWhile_append ends.noDigit
      unfold readPower
      simp only [List.cons_append, if_pos marked, List.append_assoc]
      rcases signed with rfl | rfl | rfl
      · simp [notPlus, readSign_of_isDigit one, one, inside, beyond]
      · simp [one, inside, beyond]
      · simp [readSign, one, inside, beyond]

/-- A number is read to its end, and what follows it does not change it. -/
theorem readNumeral_append {text : List Char} (written : Number text) :
    ∃ numeral, ∀ rest ended, Ended rest →
      readNumeral ended (text ++ rest) = .ok (numeral, rest) := by
  cases written with
  | @parts sign whole fraction power signed first second third =>
      obtain ⟨digits, middle⟩ := readFraction_append second
      obtain ⟨exponent, last⟩ := readPower_append third
      have start : ∃ negative, ∀ rest, readSign (sign ++ (whole ++ rest)) =
          (negative, whole ++ rest) := by
        rcases signed with rfl | rfl
        · obtain ⟨c, others, rfl, digit⟩ := first.first_isDigit
          exact ⟨false, fun rest => readSign_of_isDigit digit _⟩
        · exact ⟨true, fun _ => rfl⟩
      obtain ⟨negative, start⟩ := start
      refine ⟨⟨negative, whole, digits, exponent⟩, fun rest ended ends => ?_⟩
      have stops := third.notDigit_notPoint ends
      have beyond : NoDigit (power ++ rest) := fun c start => (stops c start).1
      have middle := middle (power ++ rest) ended beyond fun c start => (stops c start).2
      simp only [readNumeral, List.append_assoc, start,
        readWhole_append first (second.noDigit beyond), middle, last rest ended ends, bind,
        Except.bind]
      rfl

end Numbers

section Quotations

/-- Four digits are read as their number. -/
theorem readCode_append {number : Nat} {digits : List Char} (written : Code number digits)
    (rest : List Char) : readCode (digits ++ rest) = .ok (number, rest) := by
  cases written with
  | digits one two three four => simp [readCode, one, two, three, four]

/-- The listed letters escape their characters. -/
theorem letterEscape?_of_mem {letter c : Char} (listed : (letter, c) ∈ letters) :
    letter ≠ 'u' ∧ letterEscape? letter = some c := by
  have all : ∀ entry ∈ letters, entry.1 ≠ 'u' ∧ letterEscape? entry.1 = some entry.2 := by decide
  exact all (letter, c) listed

/-- No character is a surrogate. -/
theorem not_surrogate_toNat (c : Char) :
    isHighSurrogate c.toNat = false ∧ isLowSurrogate c.toNat = false := by
  have valid : c.toNat < 0xD800 ∨ 0xDFFF < c.toNat ∧ c.toNat < 0x110000 := c.valid
  simp only [isHighSurrogate, isLowSurrogate, Bool.and_eq_false_iff, decide_eq_false_iff_not]
  omega

/-- An escape by a letter is read as its character. -/
theorem readEscape_letter {letter c : Char} (listed : (letter, c) ∈ letters) (rest : List Char) :
    readEscape (letter :: rest) = .ok (c, rest) := by
  obtain ⟨other, escapes⟩ := letterEscape?_of_mem listed
  rw [readEscape, if_neg other, escapes]

/-- An escape by a number is read as its character. -/
theorem readEscape_code {c : Char} {digits : List Char} (written : Code c.toNat digits)
    (rest : List Char) : readEscape ('u' :: (digits ++ rest)) = .ok (c, rest) := by
  obtain ⟨notHigh, notLow⟩ := not_surrogate_toNat c
  simp only [readEscape, if_true, readCode_append written, notHigh, notLow, Bool.false_eq_true,
    if_false, Char.ofNat_toNat]

/-- Two surrogates make one character. -/
theorem readEscape_pair {c : Char} {high low : Nat} {first second : List Char}
    (one : Code high first) (two : Code low second) (highest : 0xD800 ≤ high ∧ high ≤ 0xDBFF)
    (lowest : 0xDC00 ≤ low ∧ low ≤ 0xDFFF)
    (joined : c.toNat = 0x10000 + (high - 0xD800) * 0x400 + (low - 0xDC00)) (rest : List Char) :
    readEscape ('u' :: (first ++ '\\' :: 'u' :: (second ++ rest))) = .ok (c, rest) := by
  have isHigh : isHighSurrogate high = true := by
    simpa [isHighSurrogate] using highest
  have notLow : isLowSurrogate high = false := by
    simp only [isLowSurrogate, Bool.and_eq_false_iff, decide_eq_false_iff_not]
    omega
  have isLow : isLowSurrogate low = true := by
    simpa [isLowSurrogate] using lowest
  simp only [readEscape, if_true, readCode_append one, notLow, isHigh, Bool.false_eq_true,
    if_false, readLow, readCode_append two, isLow, ← joined, Char.ofNat_toNat]

/-- However a character is spelled, it is read as itself. -/
theorem readTextFrom_append {c : Char} {text : List Char} (spelled : Spells c text)
    (taken rest : List Char) :
    readTextFrom taken (text ++ rest) = readTextFrom (c :: taken) rest := by
  cases spelled with
  | plain plain =>
      obtain ⟨notQuote, notBackslash, visible⟩ := plain
      rw [List.singleton_append, readTextFrom, if_neg notQuote, if_neg notBackslash,
        if_neg (Nat.not_lt.mpr visible)]
  | letter listed => exact readTextFrom_escape (readEscape_letter listed rest) taken
  | code code => exact readTextFrom_escape (readEscape_code code rest) taken
  | pair one two highest lowest joined =>
      rw [List.append_assoc]
      exact readTextFrom_escape (readEscape_pair one two highest lowest joined rest) taken

/-- The induction is on the characters left, and those taken so far are arbitrary. -/
theorem readTextFrom_spelled {characters text : List Char} (spelled : SpellsAll characters text)
    (taken rest : List Char) :
    readTextFrom taken (text ++ '"' :: rest) =
      .ok (String.ofList (taken.reverse ++ characters), rest) := by
  induction spelled generalizing taken with
  | nil => simpa using readTextFrom_quote taken rest
  | cons first _ ih =>
      rw [List.append_assoc, readTextFrom_append first, ih]
      simp

/-- A text is read from any of its spellings. -/
theorem readText_spelled {value : String} {text : List Char}
    (spelled : SpellsAll value.toList text) (rest : List Char) :
    readText (text ++ '"' :: rest) = .ok (value, rest) := by
  simpa [readText] using readTextFrom_spelled spelled [] rest

/-- An escape is skipped as a whole. -/
theorem skipText_escape {text rest : List Char} (escape : skipEscape text = .ok rest) :
    skipText ('\\' :: text) = skipText rest := by
  rw [skipText, if_neg (by decide), if_pos rfl]
  split <;> simp_all

/-- An escape by a letter is skipped. -/
theorem skipEscape_letter {letter c : Char} (listed : (letter, c) ∈ letters) (rest : List Char) :
    skipEscape (letter :: rest) = .ok rest := by
  obtain ⟨other, escapes⟩ := letterEscape?_of_mem listed
  rw [skipEscape, if_neg other, escapes]
  rfl

/-- An escape by a number is skipped, whatever the number. -/
theorem skipEscape_code {number : Nat} {digits : List Char} (written : Code number digits)
    (rest : List Char) : skipEscape ('u' :: (digits ++ rest)) = .ok rest := by
  rw [skipEscape, if_pos rfl, readCode_append written]

/-- A mark is skipped whatever it stands for. -/
theorem skipText_append {text : List Char} (mark : Mark text) (rest : List Char) :
    skipText (text ++ rest) = skipText rest := by
  cases mark with
  | plain plain =>
      obtain ⟨notQuote, notBackslash, visible⟩ := plain
      rw [List.singleton_append, skipText, if_neg notQuote, if_neg notBackslash,
        if_neg (Nat.not_lt.mpr visible)]
  | letter listed => exact skipText_escape (skipEscape_letter listed rest)
  | code code => exact skipText_escape (skipEscape_code code rest)

/-- Marks are skipped up to the closing quote. -/
theorem skipText_marks {text : List Char} (marks : Marks text) (rest : List Char) :
    skipText (text ++ '"' :: rest) = .ok rest := by
  induction marks with
  | nil => rw [List.nil_append, skipText, if_pos rfl]
  | cons first _ ih => rw [List.append_assoc, skipText_append first, ih]

end Quotations

end Streaming

end Lexicon.Json
