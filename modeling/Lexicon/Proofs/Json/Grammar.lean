import Lexicon.Json.Quoted
import Lexicon.Json.Tree

/-! The texts of the format. -/

namespace Lexicon.Json

/-- Blanks may stand between any two tokens. -/
def Blank (text : List Char) : Prop :=
  ∀ c ∈ text, c = ' ' ∨ c = '\t' ∨ c = '\n' ∨ c = '\r'

instance (text : List Char) : Decidable (Blank text) := List.decidableBAll _ text

theorem Blank.nil : Blank [] := nofun

section Numbers

def AllDigits (text : List Char) : Prop := ∀ c ∈ text, c.isDigit = true

instance (text : List Char) : Decidable (AllDigits text) := List.decidableBAll _ text

/-- A whole part with more than one digit does not start with a zero. -/
inductive Whole : List Char → Prop where
  | zero : Whole ['0']
  | digits {first : Char} {others : List Char} (digit : first.isDigit = true)
      (nonzero : first ≠ '0') (digits : AllDigits others) : Whole (first :: others)

inductive Fraction : List Char → Prop where
  | absent : Fraction []
  | digits {digits : List Char} (nonempty : digits ≠ []) (digit : AllDigits digits) :
      Fraction ('.' :: digits)

inductive Power : List Char → Prop where
  | absent : Power []
  | digits {mark : Char} {sign digits : List Char} (marked : mark = 'e' ∨ mark = 'E')
      (signed : sign = [] ∨ sign = ['+'] ∨ sign = ['-']) (nonempty : digits ≠ [])
      (digit : AllDigits digits) : Power (mark :: (sign ++ digits))

inductive Number : List Char → Prop where
  | parts {sign whole fraction power : List Char} (signed : sign = [] ∨ sign = ['-'])
      (first : Whole whole) (second : Fraction fraction) (third : Power power) :
      Number (sign ++ (whole ++ (fraction ++ power)))

/-- No character at the start of the text carries a number on. -/
def Ended (text : List Char) : Prop :=
  ∀ c ∈ text.head?, c.isDigit = false ∧ c ≠ '.' ∧ c ≠ 'e' ∧ c ≠ 'E'

theorem Ended.nil : Ended [] := nofun

/-- A character that continues no number ends one. -/
theorem ended_cons {c : Char} (ends : c.isDigit = false ∧ c ≠ '.' ∧ c ≠ 'e' ∧ c ≠ 'E')
    (rest : List Char) : Ended (c :: rest) := by
  intro d first
  cases first
  exact ends

/-- White space before what ends a number ends it too. -/
theorem Ended.append {blank rest : List Char} (ends : Ended rest) (blanks : Blank blank) :
    Ended (blank ++ rest) := by
  cases blank with
  | nil => exact ends
  | cons c blank =>
      rcases blanks c List.mem_cons_self with rfl | rfl | rfl | rfl
      all_goals exact ended_cons (by decide) _

/-- White space ends a number. -/
theorem Blank.ended {blank : List Char} (blanks : Blank blank) : Ended blank := by
  have ends := Ended.nil.append blanks
  rwa [List.append_nil] at ends

end Numbers

section Quotations

/-- A letter after a backslash stands with the character that it escapes. -/
def letters : List (Char × Char) :=
  [('"', '"'), ('\\', '\\'), ('/', '/'), ('b', '\x08'), ('f', '\x0c'), ('n', '\n'), ('r', '\r'),
    ('t', '\t')]

/-- The number of four hexadecimal digits in either case. -/
inductive Code : Nat → List Char → Prop where
  | digits {a b c d : Char} {first second third fourth : Nat} (one : hexValue? a = some first)
      (two : hexValue? b = some second) (three : hexValue? c = some third)
      (four : hexValue? d = some fourth) :
      Code (((first * 16 + second) * 16 + third) * 16 + fourth) [a, b, c, d]

/-- A character that stands for itself is no quote, no backslash and no control character. -/
def Plain (c : Char) : Prop := c ≠ '"' ∧ c ≠ '\\' ∧ 0x20 ≤ c.toNat

instance (c : Char) : Decidable (Plain c) :=
  inferInstanceAs (Decidable (c ≠ '"' ∧ c ≠ '\\' ∧ 0x20 ≤ c.toNat))

def AllPlain (text : List Char) : Prop := ∀ c ∈ text, Plain c

instance (text : List Char) : Decidable (AllPlain text) := List.decidableBAll _ text

/-- A character is written as it is or escaped by a letter, by its number or by two surrogates. -/
inductive Spells : Char → List Char → Prop where
  | plain {c : Char} (plain : Plain c) : Spells c [c]
  | letter {letter c : Char} (listed : (letter, c) ∈ letters) : Spells c ['\\', letter]
  | code {c : Char} {digits : List Char} (code : Code c.toNat digits) :
      Spells c ('\\' :: 'u' :: digits)
  | pair {c : Char} {high low : Nat} {first second : List Char} (one : Code high first)
      (two : Code low second) (highest : 0xD800 ≤ high ∧ high ≤ 0xDBFF)
      (lowest : 0xDC00 ≤ low ∧ low ≤ 0xDFFF)
      (joined : c.toNat = 0x10000 + (high - 0xD800) * 0x400 + (low - 0xDC00)) :
      Spells c ('\\' :: 'u' :: first ++ '\\' :: 'u' :: second)

/-- The characters are written one after another. -/
inductive SpellsAll : List Char → List Char → Prop where
  | nil : SpellsAll [] []
  | cons {c : Char} {characters text others : List Char} (first : Spells c text)
      (rest : SpellsAll characters others) : SpellsAll (c :: characters) (text ++ others)

/-- The text in quotes stands for the value. -/
inductive Quotes (value : String) : List Char → Prop where
  | quoted {text : List Char} (spelled : SpellsAll value.toList text) :
      Quotes value ('"' :: (text ++ ['"']))

/-- Plain characters spell themselves. -/
theorem SpellsAll.of_plain {characters : List Char} (plain : AllPlain characters) :
    SpellsAll characters characters := by
  induction characters with
  | nil => exact .nil
  | cons c characters ih =>
      obtain ⟨first, others⟩ := List.forall_mem_cons.mp plain
      exact .cons (.plain first) (ih others)

/-- A text of plain characters is put in quotes as it is. -/
theorem Quotes.of_plain (value : String) (plain : AllPlain value.toList) :
    Quotes value ('"' :: (value.toList ++ ['"'])) :=
  .quoted (.of_plain plain)

/-- One character or escape of a quoted text, whatever it stands for. -/
inductive Mark : List Char → Prop where
  | plain {c : Char} (plain : Plain c) : Mark [c]
  | letter {letter c : Char} (listed : (letter, c) ∈ letters) : Mark ['\\', letter]
  | code {number : Nat} {digits : List Char} (code : Code number digits) :
      Mark ('\\' :: 'u' :: digits)

inductive Marks : List Char → Prop where
  | nil : Marks []
  | cons {text others : List Char} (first : Mark text) (rest : Marks others) :
      Marks (text ++ others)

/-- A quoted text that may stand for no text, since a lone surrogate is no character. -/
inductive Quoted : List Char → Prop where
  | quoted {text : List Char} (marks : Marks text) : Quoted ('"' :: (text ++ ['"']))

theorem Marks.one {text : List Char} (mark : Mark text) : Marks text := by
  have alone := Marks.cons mark .nil
  rwa [List.append_nil] at alone

/-- Marks go on after marks. -/
theorem Marks.append {first second : List Char} (one : Marks first) (two : Marks second) :
    Marks (first ++ second) := by
  induction one with
  | nil => exact two
  | cons mark _ ih =>
      rw [List.append_assoc]
      exact .cons mark ih

/-- The spelling of a character is made of marks. -/
theorem Spells.marks {c : Char} {text : List Char} (spelled : Spells c text) : Marks text := by
  cases spelled with
  | plain plain => exact .one (.plain plain)
  | letter listed => exact .one (.letter listed)
  | code code => exact .one (.code code)
  | pair one two => exact .append (.one (.code one)) (.one (.code two))

/-- The spelling of a text is made of marks. -/
theorem SpellsAll.marks {characters text : List Char} (spelled : SpellsAll characters text) :
    Marks text := by
  induction spelled with
  | nil => exact .nil
  | cons first _ ih => exact .append first.marks ih

/-- What stands for a string is well formed. -/
theorem Quotes.toQuoted {value : String} {text : List Char} (quotes : Quotes value text) :
    Quoted text := by
  cases quotes with
  | quoted spelled => exact .quoted spelled.marks

/-- Plain characters are marks. -/
theorem Marks.of_plain {text : List Char} (plain : AllPlain text) : Marks text := by
  induction text with
  | nil => exact .nil
  | cons c text ih =>
      obtain ⟨first, others⟩ := List.forall_mem_cons.mp plain
      exact .cons (.plain first) (ih others)

/-- Plain characters between quotes are a quoted text. -/
theorem Quoted.of_plain {text : List Char} (plain : AllPlain text) :
    Quoted ('"' :: (text ++ ['"'])) :=
  .quoted (.of_plain plain)

/-- The number of a control character has four digits. -/
theorem code_of_lt {number : Nat} (control : number < 0x20) :
    Code number ['0', '0', hexDigit (number / 16), hexDigit (number % 16)] := by
  have joined : ((0 * 16 + 0) * 16 + number / 16) * 16 + number % 16 = number := by omega
  have code : Code (((0 * 16 + 0) * 16 + number / 16) * 16 + number % 16)
      ['0', '0', hexDigit (number / 16), hexDigit (number % 16)] :=
    .digits rfl rfl (hexValue?_hexDigit (by omega)) (hexValue?_hexDigit (by omega))
  rwa [joined] at code

/-- A character is written in one of its spellings. -/
theorem spells_writeChar (c : Char) : Spells c (writeChar c) := by
  unfold writeChar
  iterate 7
    split
    · subst c
      exact .letter (by decide)
  split
  · rename_i control
    exact .code (code_of_lt control)
  · rename_i notQuote notBackslash _ _ _ _ _ seen
    exact .plain ⟨notQuote, notBackslash, Nat.not_lt.mp seen⟩

/-- A text is written in one of its spellings. -/
theorem spellsAll_flatMap_writeChar (characters : List Char) :
    SpellsAll characters (characters.flatMap writeChar) := by
  induction characters with
  | nil => exact .nil
  | cons c characters ih => exact .cons (spells_writeChar c) ih

/-- However it is escaped, a written text stands for itself. -/
theorem quotes_writeText (value : String) : Quotes value (writeText value) :=
  .quoted (spellsAll_flatMap_writeChar value.toList)

end Quotations

section Values

/-- An element is a value with the blanks around it, and a member is a key with an element. -/
inductive Phrase where
  | value (tree : Tree)
  | element (tree : Tree)
  | elements (trees : List Tree)
  | member (member : List Char × Tree)
  | members (members : List (List Char × Tree))

/-- The texts of each phrase of the grammar. -/
inductive Writes : Phrase → List Char → Prop where
  | null : Writes (.value .null) ['n', 'u', 'l', 'l']
  | true : Writes (.value (.boolean true)) ['t', 'r', 'u', 'e']
  | false : Writes (.value (.boolean false)) ['f', 'a', 'l', 's', 'e']
  | number {text : List Char} (number : Number text) : Writes (.value (.number text)) text
  | text {text : List Char} (quoted : Quoted text) : Writes (.value (.text text)) text
  | emptyList {text : List Char} (blank : Blank text) :
      Writes (.value (.list [])) ('[' :: (text ++ [']']))
  | list {trees : List Tree} {text : List Char} (elements : Writes (.elements trees) text) :
      Writes (.value (.list trees)) ('[' :: (text ++ [']']))
  | emptyObject {text : List Char} (blank : Blank text) :
      Writes (.value (.object [])) ('{' :: (text ++ ['}']))
  | object {members : List (List Char × Tree)} {text : List Char}
      (written : Writes (.members members) text) :
      Writes (.value (.object members)) ('{' :: (text ++ ['}']))
  | element {tree : Tree} {before text after : List Char} (lead : Blank before)
      (value : Writes (.value tree) text) (trail : Blank after) :
      Writes (.element tree) (before ++ (text ++ after))
  | lastElement {tree : Tree} {text : List Char} (element : Writes (.element tree) text) :
      Writes (.elements [tree]) text
  | moreElements {tree : Tree} {trees : List Tree} {text others : List Char}
      (element : Writes (.element tree) text) (rest : Writes (.elements trees) others) :
      Writes (.elements (tree :: trees)) (text ++ ',' :: others)
  | member {tree : Tree} {before key after text : List Char} (lead : Blank before)
      (name : Quoted key) (trail : Blank after) (element : Writes (.element tree) text) :
      Writes (.member (key, tree)) (before ++ (key ++ (after ++ ':' :: text)))
  | lastMember {member : List Char × Tree} {text : List Char}
      (written : Writes (.member member) text) : Writes (.members [member]) text
  | moreMembers {member : List Char × Tree} {members : List (List Char × Tree)}
      {text others : List Char} (written : Writes (.member member) text)
      (rest : Writes (.members members) others) :
      Writes (.members (member :: members)) (text ++ ',' :: others)

/-- No number stands in the value. -/
inductive Tree.Numberless : Tree → Prop where
  | null : Numberless .null
  | boolean (value : Bool) : Numberless (.boolean value)
  | text (written : List Char) : Numberless (.text written)
  | list {elements : List Tree} (inside : ∀ element ∈ elements, Numberless element) :
      Numberless (.list elements)
  | object {members : List (List Char × Tree)}
      (inside : ∀ member ∈ members, Numberless member.2) : Numberless (.object members)

end Values

end Lexicon.Json
