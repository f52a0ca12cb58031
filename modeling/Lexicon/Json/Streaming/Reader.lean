import Lexicon.Json.Streaming.Sequence
import Lexicon.Json.Streaming.Skip

/-! A reader for each shape. -/

namespace Lexicon.Json.Streaming

/-- A reader takes something off the start of the text. -/
structure Reader (Value : Type) where
  run : List Char → Read Value
  shorter {text rest : List Char} {value : Value} :
    run text = .ok (value, rest) → rest.length < text.length

namespace Reader

def text : Reader String := ⟨readString, length_lt_of_readString⟩

variable {Value Item Choice Record Field : Type} {Content : Field → Type}

section Optional

theorem length_lt_of_readOptional (reader : Reader Value) {text rest : List Char}
    {value : Option Value} (done : readOptional reader.run text = .ok (value, rest)) :
    rest.length < text.length := by
  have blank := length_skipBlank_le
  have ident {letters text rest : List Char} := @length_le_of_readIdent letters text rest
  have inside {text rest : List Char} {value : Value} := @reader.shorter text rest value
  unfold readOptional at done
  grind

def optional (reader : Reader Value) : Reader (Option Value) :=
  ⟨readOptional reader.run, reader.length_lt_of_readOptional⟩

end Optional

section Lists

/-- The items taken so far stand in reverse. -/
def readItemsFrom (item : Reader Item) (first : Bool) (taken : List Item) (text : List Char) :
    Read (List Item) :=
  match _ : nextElement first text with
  | .error failure => .error failure
  | .ok (false, rest) => .ok (taken.reverse, rest)
  | .ok (true, element) =>
      match _ : item.run element with
      | .error failure => .error failure
      | .ok (value, rest) => item.readItemsFrom false (value :: taken) rest
termination_by text.length
decreasing_by exact Nat.lt_of_lt_of_le (item.shorter ‹_›) (length_le_of_nextElement ‹_›)

def readItems (item : Reader Item) (text : List Char) : Read (List Item) :=
  match skipBlank text with
  | '[' :: rest => item.readItemsFrom true [] rest
  | other => .error (mismatch "a sequence" other)

theorem length_le_of_readItemsFrom {item : Reader Item} {first : Bool} {taken items : List Item}
    {text rest : List Char} (read : item.readItemsFrom first taken text = .ok (items, rest)) :
    rest.length ≤ text.length := by
  fun_induction item.readItemsFrom first taken text with
  | case1 => contradiction
  | case2 first taken text unread next =>
      simp only [Except.ok.injEq, Prod.mk.injEq] at read
      exact read.2 ▸ length_le_of_nextElement next
  | case3 => contradiction
  | case4 first taken text element next value unread done ih =>
      have := ih read
      have := item.shorter done
      have := length_le_of_nextElement next
      omega

/-- A list takes its brackets at least. -/
theorem length_lt_of_readItems {item : Reader Item} {text rest : List Char} {items : List Item}
    (read : item.readItems text = .ok (items, rest)) : rest.length < text.length := by
  have blank := length_skipBlank_le
  have inside {text rest : List Char} :=
    @length_le_of_readItemsFrom Item item true [] items text rest
  unfold readItems at read
  grind

def list (item : Reader Item) : Reader (List Item) := ⟨item.readItems, length_lt_of_readItems⟩

end Lists

end Reader

section Names

/-- A letter behind an underscore becomes a capital, and the underscore goes. -/
def joinWords : List Char → List Char
  | '_' :: c :: rest => c.toUpper :: joinWords rest
  | c :: rest => c :: joinWords rest
  | [] => []

def rename : Rename → String → String
  | .camelCase, identifier => String.ofList (joinWords identifier.toList)
  | .lowercase, identifier => String.ofList (identifier.toList.map Char.toLower)

end Names

section Choices

variable {Choice : Type} (enumeration : Enumeration Choice)

def variantNames : List String :=
  enumeration.variants.map fun variant => rename enumeration.rule (enumeration.identifier variant)

def namedVariant (name : String) (unread : List Char) : Read Choice :=
  match enumeration.variant? rename name with
  | some variant => .ok (variant, unread)
  | none => .error (.here (.unknownVariant name (variantNames enumeration)) unread)

/-- The word null is the only value of a member whose key says everything. -/
def readUnit (text : List Char) : Except Failure (List Char) :=
  match skipBlank text with
  | 'n' :: rest => readIdent ['u', 'l', 'l'] rest
  | other => .error (mismatch "unit" other)

/-- The colon, the word null and the closing bracket follow the key of the object form. -/
def closeObject (text : List Char) : Except Failure (List Char) :=
  match readColon text with
  | .error failure => .error failure
  | .ok value =>
      match readUnit value with
      | .error failure => .error failure
      | .ok rest =>
          match skipBlank rest with
          | [] => .error (.here .endInObject [])
          | '}' :: unread => .ok unread
          | unread => .error (.here .valueExpected unread)

/-- The name of a variant is read after its opening quote. -/
def readName (text : List Char) : Read Choice :=
  match readText text with
  | .error failure => .error failure
  | .ok (name, unread) => namedVariant enumeration name unread

/-- The object form has one member, whose key is the name. -/
def readObject (text : List Char) : Read Choice :=
  match skipBlank text with
  | [] => .error (.next .endInObject [])
  | '}' :: rest => .error (.next .valueExpected ('}' :: rest))
  | '"' :: rest =>
      match readName enumeration rest with
      | .error failure => .error failure
      | .ok (variant, unread) =>
          match closeObject unread with
          | .error failure => .error failure
          | .ok last => .ok (variant, last)
  | other => .error (.next .keyExpected other)

/-- A variant is its name or an object with its name as a key. -/
def readVariant (text : List Char) : Read Choice :=
  match skipBlank text with
  | [] => .error (.next .endInValue [])
  | '"' :: rest => readName enumeration rest
  | '{' :: rest => readObject enumeration rest
  | other => .error (.next .valueExpected other)

theorem length_le_of_readUnit {text rest : List Char} (done : readUnit text = .ok rest) :
    rest.length ≤ text.length := by
  have blank := length_skipBlank_le
  have ident {letters text rest : List Char} := @length_le_of_readIdent letters text rest
  unfold readUnit at done
  grind

theorem length_lt_of_closeObject {text rest : List Char} (done : closeObject text = .ok rest) :
    rest.length < text.length := by
  have blank := length_skipBlank_le
  have colon {text rest : List Char} := @length_lt_of_readColon text rest
  have unit {text rest : List Char} := @length_le_of_readUnit text rest
  unfold closeObject at done
  grind

variable {enumeration}

theorem length_lt_of_readName {text rest : List Char} {variant : Choice}
    (done : readName enumeration text = .ok (variant, rest)) : rest.length < text.length := by
  have inside {text rest : List Char} {value : String} := @length_lt_of_readText text rest value
  unfold readName namedVariant at done
  grind

theorem length_lt_of_readObject {text rest : List Char} {variant : Choice}
    (done : readObject enumeration text = .ok (variant, rest)) : rest.length < text.length := by
  have blank := length_skipBlank_le
  have name {text rest : List Char} {variant : Choice} :=
    @length_lt_of_readName Choice enumeration text rest variant
  have close {text rest : List Char} := @length_lt_of_closeObject text rest
  unfold readObject at done
  grind

/-- A variant takes its name at least. -/
theorem length_lt_of_readVariant {text rest : List Char} {variant : Choice}
    (done : readVariant enumeration text = .ok (variant, rest)) : rest.length < text.length := by
  have blank := length_skipBlank_le
  have name {text rest : List Char} {variant : Choice} :=
    @length_lt_of_readName Choice enumeration text rest variant
  have object {text rest : List Char} {variant : Choice} :=
    @length_lt_of_readObject Choice enumeration text rest variant
  unfold readVariant at done
  grind

def Reader.choice (enumeration : Enumeration Choice) : Reader Choice :=
  ⟨readVariant enumeration, length_lt_of_readVariant⟩

end Choices

section Records

variable {Record Field : Type} [DecidableEq Field] {Content : Field → Type}
  (declaration : Declaration Record Field Content)
  (contents : (field : Field) → Reader (Content field))

/-- A repeated field is reported after the bracket of the object, if that follows. -/
def afterObject (text : List Char) : List Char :=
  match skipBlank text with
  | '}' :: rest => rest
  | other => other

/-- A member is read after the opening quote of its key. -/
def readMember (draft : Draft Content) (text : List Char) : Read (Draft Content) :=
  match readText text with
  | .error failure => .error failure
  | .ok (key, unread) =>
      match declaration.field? rename key with
      | none =>
          match readColon unread with
          | .error failure => .error failure
          | .ok value =>
              match skipValue value with
              | .error failure => .error failure
              | .ok rest => .ok (draft, rest)
      | some field =>
          if (draft field).isSome then
            .error (.here (.duplicateField key) (afterObject unread))
          else
            match readColon unread with
            | .error failure => .error failure
            | .ok value =>
                match (contents field).optional.run value with
                | .error failure => .error failure
                | .ok (content, rest) => .ok (draft.set field content, rest)

/-- A member takes its key at least. -/
theorem length_lt_of_readMember {draft next : Draft Content} {text rest : List Char}
    (done : readMember declaration contents draft text = .ok (next, rest)) :
    rest.length < text.length := by
  have key {text rest : List Char} {value : String} := @length_lt_of_readText text rest value
  have colon {text rest : List Char} := @length_lt_of_readColon text rest
  have skipped {text rest : List Char} := @length_lt_of_skipValue text rest
  have field (field : Field) {text rest : List Char} {content : Option (Content field)} :=
    @(contents field).optional.shorter text rest content
  unfold readMember at done
  grind

/-- Members are read until the closing bracket. -/
def readMembers (first : Bool) (draft : Draft Content) (text : List Char) : Read Record :=
  match _ : nextMember first text with
  | .error failure => .error failure
  | .ok (false, rest) => .ok (declaration.complete draft, rest)
  | .ok (true, member) =>
      match _ : readMember declaration contents draft member with
      | .error failure => .error failure
      | .ok (next, rest) => readMembers false next rest
termination_by text.length
decreasing_by
  exact Nat.lt_trans (length_lt_of_readMember declaration contents ‹_›) (length_lt_of_nextMember ‹_›)

/-- The list form must hold every field. -/
def listForm : String :=
  let count := declaration.fields.length
  "struct " ++ declaration.title ++ " with " ++ toString count ++
    (if count = 1 then " element" else " elements")

/-- Each field takes the next element. -/
def readPlaces (draft : Draft Content) (count : Nat) :
    List Field → List Char → Read (Draft Content)
  | [], text => .ok (draft, text)
  | field :: fields, text =>
      match nextElement (count = 0) text with
      | .error failure => .error failure
      | .ok (false, rest) => .error (.here (.wrongLength count (listForm declaration)) rest)
      | .ok (true, element) =>
          match (contents field).optional.run element with
          | .error failure => .error failure
          | .ok (content, rest) => readPlaces (draft.set field content) (count + 1) fields rest

/-- The list form is read after its opening bracket. -/
def readPositions (text : List Char) : Read Record :=
  match readPlaces declaration contents Draft.empty 0 declaration.fields text with
  | .error failure => .error failure
  | .ok (draft, rest) =>
      match closeList rest with
      | .error failure => .error failure
      | .ok last => .ok (declaration.complete draft, last)

/-- A record is an object or a list. -/
def readRecord (text : List Char) : Read Record :=
  match skipBlank text with
  | '{' :: rest => readMembers declaration contents true Draft.empty rest
  | '[' :: rest => readPositions declaration contents rest
  | other => .error (mismatch ("struct " ++ declaration.title) other)

variable {declaration contents}

theorem length_le_of_readMembers {first : Bool} {draft : Draft Content} {text rest : List Char}
    {record : Record}
    (done : readMembers declaration contents first draft text = .ok (record, rest)) :
    rest.length ≤ text.length := by
  fun_induction readMembers declaration contents first draft text with
  | case1 => contradiction
  | case2 first draft text unread next =>
      simp only [Except.ok.injEq, Prod.mk.injEq] at done
      exact done.2 ▸ Nat.le_of_lt (length_lt_of_nextMember next)
  | case3 => contradiction
  | case4 first draft text member next taken unread read ih =>
      have := ih done
      have := length_lt_of_readMember declaration contents read
      have := length_lt_of_nextMember next
      omega

theorem length_le_of_closeList {text rest : List Char} (done : closeList text = .ok rest) :
    rest.length ≤ text.length := by
  have blank := length_skipBlank_le
  unfold closeList at done
  grind

theorem length_le_of_readPlaces {draft last : Draft Content} {count : Nat} {fields : List Field}
    {text rest : List Char}
    (done : readPlaces declaration contents draft count fields text = .ok (last, rest)) :
    rest.length ≤ text.length := by
  fun_induction readPlaces declaration contents draft count fields text with
  | case1 =>
      simp only [Except.ok.injEq, Prod.mk.injEq] at done
      exact Nat.le_of_eq (congrArg List.length done.2).symm
  | case2 => contradiction
  | case3 => contradiction
  | case4 => contradiction
  | case5 draft count field fields text element next content unread read ih =>
      have := ih done
      have := (contents field).optional.shorter read
      have := length_le_of_nextElement next
      omega

/-- A record takes its brackets at least. -/
theorem length_lt_of_readRecord {text rest : List Char} {record : Record}
    (done : readRecord declaration contents text = .ok (record, rest)) :
    rest.length < text.length := by
  have blank := length_skipBlank_le
  have members {first : Bool} {draft : Draft Content} {text rest : List Char} {record : Record} :=
    @length_le_of_readMembers Record Field _ Content declaration contents first draft text rest
      record
  have places {draft last : Draft Content} {count : Nat} {fields : List Field}
      {text rest : List Char} :=
    @length_le_of_readPlaces Record Field _ Content declaration contents draft last count fields
      text rest
  have close {text rest : List Char} := @length_le_of_closeList text rest
  unfold readRecord readPositions at done
  grind

def Reader.record (declaration : Declaration Record Field Content)
    (contents : (field : Field) → Reader (Content field)) : Reader Record :=
  ⟨readRecord declaration contents, length_lt_of_readRecord⟩

end Records

def reader {Value : Type} : Shape Value → Reader Value
  | .text => .text
  | .list item => .list (reader item)
  | .optional value => .optional (reader value)
  | .choice enumeration => .choice enumeration
  | @Shape.record _ _ _ _ declaration contents =>
      .record declaration fun field => reader (contents field)

end Lexicon.Json.Streaming
