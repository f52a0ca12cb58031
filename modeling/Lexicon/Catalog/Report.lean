import Lexicon.Token.Consistency
import Lexicon.Token.Descriptor

/-! A report tells how a change of the tables went and which events it emitted. -/

namespace Lexicon

/-- A table error is a fault in a definition, and no table changes by a failed definition. -/
inductive TableError where
  | duplicateName (name : String)
  | duplicateKeyword (spelling : String)
  | invalidKeyword (spelling : String)
  | invalidLevel (name : String) (level : UInt8)
  | inconsistentFlags (name : String) (reason : Inconsistency)
  | tooManyTokens (name : String)
  | hookAttached (label : String)
  deriving DecidableEq, Repr

namespace TableError

def ofFault (name : String) : AttributeFault → TableError
  | .levelZero => .invalidLevel name 0
  | .inconsistent reason => .inconsistentFlags name reason

def message : TableError → String
  | .duplicateName name => "token type `" ++ name ++ "` is already defined"
  | .duplicateKeyword spelling => "reserved word `" ++ spelling ++ "` is already registered"
  | .invalidKeyword spelling => "invalid reserved word " ++ Text.quoted spelling
  | .invalidLevel name level =>
      "token type `" ++ name ++ "` has invalid precedence " ++ toString level.toNat ++
        "; binary precedence starts at 1"
  | .inconsistentFlags name reason =>
      "token type `" ++ name ++ "` has inconsistent flags: " ++ reason.reason
  | .tooManyTokens name => "cannot define `" ++ name ++ "`: the catalog is full"
  | .hookAttached label => "token type `" ++ label ++ "` already has a context hook attached"

end TableError

/-- Severity grows from trace to warning. -/
inductive Severity where
  | trace
  | debug
  | warning
  deriving DecidableEq, Repr

/-- An event records one step of building the tables. -/
inductive Event where
  | defined (name label : String) (handle : Handle)
  | registered (spelling : String) (handle : Handle)
  | finished (tokens keywords : Nat)
  | rejected (name : String) (error : TableError)
  | repeated (spelling : String)
  deriving DecidableEq, Repr

namespace Event

def severity : Event → Severity
  | .defined .. | .registered .. => .trace
  | .finished .. => .debug
  | .rejected .. | .repeated .. => .warning

def message : Event → String
  | .defined .. => "defined token type"
  | .registered .. => "registered keyword"
  | .finished .. => "token registry initialised"
  | .rejected .. => "rejected token type definition"
  | .repeated .. => "duplicate reserved word"

end Event

/-- The result is of one change, and the events are those of that change alone. -/
structure Report (Result : Type) where
  result : Except TableError Result
  events : Array Event

namespace Report

variable {Result : Type}

def success (result : Result) (event : Event) : Report Result := ⟨.ok result, #[event]⟩

/-- A failure can pass without an event. -/
def silent (error : TableError) : Report Result := ⟨.error error, #[]⟩

def failure (error : TableError) (event : Event) : Report Result := ⟨.error error, #[event]⟩

end Report

end Lexicon
