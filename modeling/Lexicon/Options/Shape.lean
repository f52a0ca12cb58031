import Lexicon.Json.Shape
import Lexicon.Options.Basic

/-! How options and editions are declared to a library of texts. -/

namespace Lexicon

open Json

namespace Edition

def identifier : Edition → String
  | .es5 => "Es5"
  | .es2015 => "Es2015"

def enumeration : Enumeration Edition where
  rule := .lowercase
  variants := [.es5, .es2015]
  identifier := identifier

end Edition

inductive Field where
  | edition
  | keywords
  | extraKeywords
  deriving DecidableEq, Repr

namespace Field

/-- The fields stand in the order of their declaration. -/
def all : List Field := [.edition, .keywords, .extraKeywords]

def identifier : Field → String
  | .edition => "ecma_version"
  | .keywords => "keywords"
  | .extraKeywords => "extra_keywords"

/-- A field holds values of its own type, or none. -/
def Content : Field → Type
  | .edition => Edition
  | .keywords | .extraKeywords => List String

def shape : (field : Field) → Shape field.Content
  | .edition => .choice Edition.enumeration
  | .keywords | .extraKeywords => .list .text

end Field

namespace Options

def content (options : Options) : (field : Field) → Option field.Content
  | .edition => options.edition
  | .keywords => options.keywords
  | .extraKeywords => options.extraKeywords

def ofContents (contents : (field : Field) → Option field.Content) : Options :=
  ⟨contents .edition, contents .keywords, contents .extraKeywords⟩

def declaration : Declaration Options Field Field.Content where
  title := "RegistryOptions"
  rule := .camelCase
  fields := Field.all
  identifier := Field.identifier
  make := ofContents
  content := content

def shape : Shape Options := .record declaration Field.shape

end Options

end Lexicon
