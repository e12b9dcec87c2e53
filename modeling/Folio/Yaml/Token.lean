import Folio.Yaml.Cursor

/-!
# Tokens of a settings text

The words that the structure of a text is made of. Collections that are laid out by indentation have
a start and an end that no character shows; collections between brackets have their brackets.
-/

set_option autoImplicit false
set_option relaxedAutoImplicit false

namespace Folio.Yaml

/-- A tag as it is written: a suffix, behind a handle unless the suffix is the whole tag. -/
structure TagText where
  handle : Option String
  suffix : String
  deriving DecidableEq, Repr

/-- A directive. -/
inductive Directive
  | version (major minor : Nat)
  | handle (handle start : String)
  | reserved
  deriving DecidableEq, Repr

/-- A token. -/
inductive Token
  | directive (content : Directive)
  | documentStart
  | documentEnd
  /-- The start of a sequence that is laid out by indentation. -/
  | sequenceStart
  /-- The start of a mapping that is laid out by indentation. -/
  | mappingStart
  /-- The end of a collection that is laid out by indentation. -/
  | layoutEnd
  | listOpen
  | listClose
  | mapOpen
  | mapClose
  | comma
  | entry
  | key
  | value
  | alias (name : String)
  | anchor (name : String)
  | tag (text : TagText)
  | scalar (text : String) (plain : Bool)
  deriving DecidableEq, Repr

end Folio.Yaml
