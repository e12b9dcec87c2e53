import Folio.Text.Quoted

/-!
# Why building a document fails

The causes for which a change to a document, or the work around it, comes to a halt, and the text
that reports each cause.
-/

set_option autoImplicit false
set_option relaxedAutoImplicit false

namespace Folio

/-- The stages of a conversion whose failures are reported as such. -/
inductive Stage
  | reading
  | creation
  | packaging
  deriving DecidableEq, Repr

/-- A cause of failure. -/
inductive Failure
  /-- A text holds a character that XML cannot hold. -/
  | incompatibleText
  /-- A part of a colour is not a hexadecimal number. -/
  | badHexNumber (text : String)
  /-- A part of a colour is a number outside 0 to 255. -/
  | badColorPart
  /-- A length does not fit its attribute. -/
  | lengthOutOfRange (least most value : Int)
  /-- An integer is too large for a binary64 number. -/
  | hugeInteger
  /-- The quotient of two integers is too large for a binary64 number. -/
  | hugeQuotient
  /-- A length is infinite. -/
  | infiniteLength
  /-- A path holds a NUL character. -/
  | nulInPath
  /-- The links on the way of a path lead in a circle. -/
  | linkCircle (path : String)
  /-- A service that the document is built with fails with its own message. -/
  | service (message : String)
  /-- The network client fails in a way that a fetch does not expect. -/
  | client (message : String)
  /-- The settings of the shared fetcher are refused. -/
  | settings (message : String)
  /-- A stage of the conversion fails. -/
  | conversion (stage : Stage) (message : String)
  deriving DecidableEq, Repr

namespace Stage

/-- What a stage does, as an infinitive. -/
def task : Stage → String
  | reading => "parse Markdown"
  | creation => "create document package"
  | packaging => "package document"

end Stage

namespace Failure

/-- The text that reports a failure. -/
def message : Failure → String
  | incompatibleText =>
    "All strings must be XML compatible: Unicode or ASCII, no NULL bytes or control characters"
  | badHexNumber text =>
    "invalid literal for int() with base 16: " ++ String.ofList ((quoted text).toList.take 200)
  | badColorPart => "RGBColor() takes three integer values 0-255"
  | lengthOutOfRange least most value =>
    "value must be in range " ++ toString least ++ " to " ++ toString most ++ " inclusive, got "
      ++ toString value
  | hugeInteger => "int too large to convert to float"
  | hugeQuotient => "integer division result too large for a float"
  | infiniteLength => "cannot convert float infinity to integer"
  | nulInPath => "embedded null byte"
  | linkCircle path => "Symlink loop from " ++ quoted path
  | service message => message
  | client message => message
  | settings message => message
  | conversion stage message => "Failed to " ++ stage.task ++ ": " ++ message

end Failure

/-- A change that may stop half way: what it leaves behind, and why it stopped if it did. -/
abbrev Change (α : Type) := α → α × Option Failure

namespace Change

variable {α : Type}

/-- A change that cannot fail. -/
def always (f : α → α) : Change α := fun x => (f x, none)

/-- A change that leaves everything as it is and stops. -/
def stop (why : Failure) : Change α := fun x => (x, some why)

/-- One change after another; the second is not begun if the first stops. -/
def andThen (first second : Change α) : Change α := fun x =>
  match first x with
  | (y, none) => second y
  | (y, some e) => (y, some e)

/-- Changes one after another, up to the first that stops. -/
def all : List (Change α) → Change α
  | [] => fun x => (x, none)
  | c :: cs => andThen c (all cs)

/-- A change that is made only under a condition. -/
def when (condition : Bool) (c : Change α) : Change α := fun x =>
  if condition then c x else (x, none)

@[simp] theorem all_nil (x : α) : all [] x = (x, none) := rfl

@[simp] theorem all_cons (c : Change α) (cs : List (Change α)) (x : α) :
    all (c :: cs) x = andThen c (all cs) x := rfl

@[simp] theorem always_apply (f : α → α) (x : α) : always f x = (f x, none) := rfl

end Change

end Folio
