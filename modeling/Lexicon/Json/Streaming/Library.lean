import Lexicon.Json.Streaming.Reader

/-! A library that reads texts from left to right and writes them without blanks. -/

namespace Lexicon.Json.Streaming

section Writing

def writeNull : List Char := ['n', 'u', 'l', 'l']

def write {Value : Type} : Shape Value → Value → List Char
  | .text, value => writeText value
  | .list item, values => '[' :: [','].intercalate (values.map (write item)) ++ [']']
  | .optional _, none => writeNull
  | .optional value, some present => write value present
  | .choice enumeration, variant =>
      writeText (rename enumeration.rule (enumeration.identifier variant))
  | @Shape.record _ _ _ _ declaration contents, value =>
      '{' :: [','].intercalate (declaration.fields.map fun field =>
        writeText (rename declaration.rule (declaration.identifier field)) ++
          ':' :: (declaration.content value field).elim writeNull (write (contents field))) ++ ['}']

end Writing

section Visiting

/-- The category of the fault that a value of the wrong type meets. -/
def refusal : Tree → Category
  | .number written | .text written => (mismatch "" written).cause.category
  | _ => .data

/-- A quoted text that holds a lone surrogate stands for no string. -/
def visitText : Tree → Except Category String
  | .text written => ((readString written).mapError (·.cause.category)).map Prod.fst
  | other => .error (refusal other)

def visitList {Item : Type} (item : Tree → Except Category Item) :
    Tree → Except Category (List Item)
  | .list elements => elements.mapM item
  | other => .error (refusal other)

def visitOptional {Value : Type} (value : Tree → Except Category Value) :
    Tree → Except Category (Option Value)
  | .null => .ok none
  | other => (value other).map some

def visitUnit : Tree → Except Category Unit
  | .null => .ok ()
  | other => .error (refusal other)

def visitName {Choice : Type} (enumeration : Enumeration Choice) (written : List Char) :
    Except Category Choice :=
  (visitText (.text written)).bind fun name =>
    match enumeration.variant? rename name with
    | some variant => .ok variant
    | none => .error .data

/-- The object form has one member, whose value is null. -/
def visitChoice {Choice : Type} (enumeration : Enumeration Choice) :
    Tree → Except Category Choice
  | .text written => visitName enumeration written
  | .object ((key, value) :: others) =>
      (visitName enumeration key).bind fun variant =>
        (visitUnit value).bind fun _ => if others.isEmpty then .ok variant else .error .grammar
  | _ => .error .grammar

variable {Record Field : Type} [DecidableEq Field] {Content : Field → Type}
  (declaration : Declaration Record Field Content)
  (contents : (field : Field) → Tree → Except Category (Content field))

/-- The value of an unknown member is not looked at, and that of a repeated field neither. -/
def takeMember (draft : Draft Content) (member : List Char × Tree) :
    Except Category (Draft Content) :=
  (visitText (.text member.1)).bind fun name =>
    match declaration.field? rename name with
    | none => .ok draft
    | some field =>
        if (draft field).isSome then .error .data
        else (visitOptional (contents field) member.2).map (draft.set field)

def takePlace (taken : Draft Content × List Tree) (field : Field) :
    Except Category (Draft Content × List Tree) :=
  match taken.2 with
  | [] => .error .data
  | element :: others =>
      (visitOptional (contents field) element).map fun content =>
        (taken.1.set field content, others)

/-- The members are taken in their order, and the elements in the order of the fields. -/
def visitRecord : Tree → Except Category Record
  | .object members =>
      (members.foldlM (takeMember declaration contents) Draft.empty).map declaration.complete
  | .list elements =>
      (declaration.fields.foldlM (takePlace contents) (Draft.empty, elements)).bind fun taken =>
        if taken.2.isEmpty then .ok (declaration.complete taken.1) else .error .grammar
  | other => .error (refusal other)

end Visiting

/-- What a shape makes of a value agrees with what its reader makes of the text. -/
def visit {Value : Type} : Shape Value → Tree → Except Category Value
  | .text => visitText
  | .list item => visitList (visit item)
  | .optional value => visitOptional (visit value)
  | .choice enumeration => visitChoice enumeration
  | @Shape.record _ _ _ _ declaration contents =>
      visitRecord declaration fun field => visit (contents field)

def library : Library where
  Error := Error
  category := Error.category
  message := Error.message
  rename := rename
  fromText shape text := readAll (reader shape).run text.toList
  toText shape value := String.ofList (write shape value)
  read shape text := ((reader shape).run text).mapError (·.cause.category)
  visit := visit
  takeMember declaration contents := takeMember declaration fun field => visit (contents field)
  takePlace _ contents := takePlace fun field => visit (contents field)

end Lexicon.Json.Streaming
