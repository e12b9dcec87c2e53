import Folio.Text.Cut
import Folio.Text.Digit

/-!
# Command-line arguments

A command line has one input, and options around it. The name of a long option may be cut short and
may carry its value behind an equals sign; a short option may carry its value right behind its
letter. What follows two hyphens is not an option, and neither is a text that is empty, is one hyphen,
looks like a negative number or holds a space, unless it is the name of an option.

Arguments are first told apart (`Argument.ofText?`) and then taken in order (`Arguments.take`), so
that an ambiguous name is a fault wherever it stands, and help is given if it is asked for before any
other fault.
-/

set_option autoImplicit false
set_option relaxedAutoImplicit false

namespace Folio

/-- An option. -/
inductive CommandOption
  | help
  | output
  | config
  | verbose
  deriving DecidableEq, Repr

namespace CommandOption

/-- The spellings of the options, without abbreviations. -/
def spellings : List (String × CommandOption) :=
  [("-h", help), ("--help", help), ("-o", output), ("--output", output), ("--config", config),
   ("--verbose", verbose)]

end CommandOption

/-- What stands in the same text behind the name of an option: a value behind an equals sign, or
whatever follows the letter of a short option. -/
inductive Attachment
  | nothing
  | value (text : String)
  | letters (text : List Char)
  deriving DecidableEq, Repr

/-- A part of a command line: two hyphens, an option, an option that does not exist, or anything
else. -/
inductive Argument
  | plain (text : String)
  | separator
  | option (option : CommandOption) (attached : Attachment)
  | unknown
  deriving DecidableEq, Repr

namespace Argument

/-- The options whose spellings start with a text. -/
def abbreviated (cs : List Char) : List CommandOption :=
  (CommandOption.spellings.filter fun s => cs.isPrefixOf s.1.toList).map (·.2)

/-- Whether a text looks like a negative number. -/
def isNegativeNumber (cs : List Char) : Bool :=
  let body := cs.drop 1
  let body := if body.getLast? = some '\n' then body.dropLast else body
  let isDigit := fun c => (decimalValue? c).isSome
  let (whole, fraction) := (body.takeWhile isDigit, body.dropWhile isDigit)
  match fraction with
  | [] => !whole.isEmpty
  | '.' :: digits => !digits.isEmpty && digits.all isDigit
  | _ => false

/-- A text that starts with a hyphen and names no option. -/
def other (cs : List Char) : Argument :=
  if isNegativeNumber cs || cs.contains ' ' then plain (String.ofList cs) else unknown

/-- A text that starts with two hyphens and is longer; none if the name in it is ambiguous. -/
def long? (cs : List Char) : Option Argument :=
  let (name, rest) := cutAt (· = '=') cs
  match abbreviated name, rest with
  | [], _ => some (other cs)
  | [found], [] => some (.option found .nothing)
  | [found], _ :: value => some (.option found (.value (String.ofList value)))
  | _, _ => none

/-- A text that starts with one hyphen and is longer. An equals sign behind the letter does not
count. -/
def short (cs : List Char) : Argument :=
  match CommandOption.spellings.lookup (String.ofList (cs.take 2)), cs.drop 2 with
  | none, _ => other cs
  | some found, [] => .option found .nothing
  | some found, '=' :: letters => .option found (.letters letters)
  | some found, letters => .option found (.letters letters)

/-- What a text in front of two hyphens is; none if it is ambiguous. -/
def ofText? (text : String) : Option Argument :=
  match text.toList with
  | ['-', '-'] => some .separator
  | '-' :: '-' :: cs => long? ('-' :: '-' :: cs)
  | '-' :: c :: cs => some (short ('-' :: c :: cs))
  | _ => some (plain text)

/-- The arguments that texts are; none if one is ambiguous. -/
def ofTexts? : List String → Option (List Argument)
  | [] => some []
  | text :: texts =>
    match ofText? text with
    | none => none
    | some .separator => some (.separator :: texts.map plain)
    | some argument => (ofTexts? texts).map (argument :: ·)

end Argument

/-- What a command line says. -/
structure Arguments where
  input : String
  output : Option String := none
  config : Option String := none
  verbose : Bool := false
  deriving DecidableEq, Repr

/-- What a command line asks for: a run, help, or nothing that is understood. -/
inductive Command
  | run (arguments : Arguments)
  | help
  | misused
  deriving DecidableEq, Repr

namespace Arguments

/-- What has been taken from a command line. `excess` tells whether something had no place. -/
structure Taken where
  input : Option String := none
  output : Option String := none
  config : Option String := none
  verbose : Bool := false
  excess : Bool := false

/-- What has been taken with the value of an option. -/
def Taken.set (t : Taken) (option : CommandOption) (value : String) : Taken :=
  match option with
  | .output => { t with output := some value }
  | .config => { t with config := some value }
  | .verbose => t
  | .help => t

/-- What the letters behind the short option for help ask for, where a plain text may follow: other
short options, the last of which may have a value. -/
def clustered (followed : Bool) : List Char → Command
  | [] => .misused
  | ['h'] => .help
  | 'h' :: rest => clustered followed rest
  | 'o' :: rest => if rest.isEmpty && !followed then .misused else .help
  | _ :: _ => .misused

/-- Takes the arguments in order. -/
def take (t : Taken) : List Argument → Command
  | [] =>
    match t.input with
    | none => .misused
    | some input => if t.excess then .misused else .run ⟨input, t.output, t.config, t.verbose⟩
  | .unknown :: rest => take { t with excess := true } rest
  | .plain text :: .separator :: rest =>
    if t.input.isSome then take { t with excess := true } rest
    else take { t with input := some text } rest
  | .plain text :: rest =>
    if t.input.isSome then take { t with excess := true } rest
    else take { t with input := some text } rest
  | .separator :: .plain text :: rest =>
    if t.input.isSome then take { t with excess := true } rest
    else take { t with input := some text } rest
  | .separator :: rest => take { t with excess := true } rest
  | .option .help .nothing :: _ => .help
  | .option .help (.letters letters) :: rest =>
    clustered (match rest with
      | .plain _ :: _ => true
      | _ => false) letters
  | .option .help (.value _) :: _ => .misused
  | .option .verbose .nothing :: rest => take { t with verbose := true } rest
  | .option .verbose _ :: _ => .misused
  | .option option (.value value) :: rest => take (t.set option value) rest
  | .option option (.letters letters) :: rest => take (t.set option (String.ofList letters)) rest
  | .option option .nothing :: .plain value :: rest => take (t.set option value) rest
  | .option _ .nothing :: _ => .misused

end Arguments

/-- What a command line asks for. -/
def Command.ofTexts (texts : List String) : Command :=
  match Argument.ofTexts? texts with
  | none => .misused
  | some arguments => Arguments.take {} arguments

end Folio
