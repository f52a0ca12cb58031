import Lexicon.Json.Library
import Lexicon.Options.Shape

/-! Options are loaded from a text or from a file. -/

namespace Lexicon

/-- The library refuses a text for an error of its own, and the system a file with a message. -/
inductive LoadFault (TextError : Type) where
  | text (error : TextError)
  | file (message : String)
  deriving DecidableEq, Repr

namespace Options

open Json

variable (library : Library)

def ofText (text : String) : Except (LoadFault library.Error) Options :=
  (library.fromText shape text).mapError .text

/-- The system answers a path with the text of the file or with a message. -/
def ofPath (textAt : String → Except String String) (path : String) :
    Except (LoadFault library.Error) Options :=
  match textAt path with
  | .error message => .error (.file message)
  | .ok text => ofText library text

def write (options : Options) : String := library.toText shape options

end Options

def LoadFault.message (library : Json.Library) : LoadFault library.Error → String
  | .text error => "invalid registry options: " ++ library.message error
  | .file message => "cannot read registry options: " ++ message

end Lexicon
