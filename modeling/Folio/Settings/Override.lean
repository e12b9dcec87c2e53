import Folio.Number.Numeral
import Folio.Settings.Entries
import Folio.Settings.Fault
import Folio.Settings.Field
import Folio.Word.Color

/-!
# Changing settings

Settings are changed by a list of names with values. Every name has to be that of a setting; the
values are converted in the order of the list, a number from anything that spells one, a colour from
a text, a text from any value; and the settings that result are checked as a whole.
-/

set_option autoImplicit false
set_option relaxedAutoImplicit false

namespace Folio

/-! ### Converting values -/

/-- The text of ASCII bytes; none if a byte is no ASCII character. -/
def asciiText? (content : List UInt8) : Option String :=
  if content.all fun b => b.toNat < 0x80 then
    some (String.ofList (content.map fun b => Char.ofNat b.toNat))
  else none

/-- The number that a value gives, if it gives one at all; the inner result is missing for an
integer that is too large. -/
def Value.number? : Value → Option (Option Binary64)
  | .bool b => some (some (.ofBool b))
  | .int n => some (Binary64.ofInt? n)
  | .float x => some (some x)
  | .text s => (readNumber? s).map some
  | .bytes content => (asciiText? content).bind fun s => (readNumber? s).map some
  | _ => none

/-- The form of a value for a message. -/
def Value.formOrFault (v : Value) : Except SettingsFault String :=
  match v.form? with
  | some form => .ok form
  | none => .error .textTooLong

/-- A converted value for a setting. -/
inductive Assignment
  | number (f : NumberField) (value : Binary64)
  | color (f : ColorField) (value : String)
  | text (f : TextField) (value : String)
  deriving DecidableEq, Repr

/-- Settings with one of them assigned. -/
def Assignment.apply (s : Settings) : Assignment → Settings
  | number f value => f.set s value
  | color f value => f.set s value
  | text f value => f.set s value

/-- Converts a value for a setting. -/
def convertValue (field : Field) (v : Value) : Except SettingsFault Assignment :=
  match field with
  | .number f =>
    match v.number? with
    | some (some x) => .ok (.number f x)
    | some none => .error .hugeInteger
    | none => v.formOrFault.bind fun form => .error (.noNumber f.name form)
  | .color f =>
    match v with
    | .text s => .ok (.color f (trimmed s))
    | _ => v.formOrFault.bind fun form => .error (.noColor f.name form)
  | .text f =>
    match v.text? with
    | some s => .ok (.text f s)
    | none => .error .textTooLong

/-! ### Checking settings -/

/-- Settings that pass all checks, or the first fault. -/
def checkSettings (s : Settings) : Except SettingsFault Settings :=
  if s.fetchTimeout.isNonPositive then .error .timeoutNotPositive
  else if s.imageWidth.isNonPositive || s.imageHeight.isNonPositive then
    .error .extentNotPositive
  else
    match ColorField.all.find? fun f => !Word.isHexColor (f.get s) with
    | some f => .error (.badColor f.name (f.get s))
    | none => .ok s

/-! ### Overrides -/

/-- The setting that a value names. -/
def Value.field? : Value → Option Field
  | .text s => Field.ofName? s
  | _ => none

/-- The text that a name is. -/
def Value.nameText? : Value → Option String
  | .text s => some s
  | _ => none

/-- The fault of names that are not those of settings: numbers are put in order and texts too, but
neither can be joined with the other, nor can numbers be joined at all. -/
def unknownFault (names : List Value) : SettingsFault :=
  match names.mapM Value.nameText? with
  | some texts => .unknownNames (texts.mergeSort fun a b => decide (a ≤ b))
  | none =>
    match names.mapM Value.fraction?, names with
    | some fractions, _ =>
      let ordered := (names.zip fractions).mergeSort fun a b =>
        decide (a.2.1 * b.2.2 ≤ b.2.1 * a.2.2)
      .nameNoText ((ordered.head?.map (·.1.kindName)).getD "")
    | none, first :: second :: _ =>
      if first.kindName = second.kindName then .nameNoText first.kindName
      else .namesNotComparable second.kindName first.kindName
    | none, _ => .nameNoText ((names.head?.map Value.kindName).getD "")

/-- The converted values of overrides whose names are those of settings. -/
def assignments (entries : Entries) : Except SettingsFault (List Assignment) :=
  entries.mapM fun e =>
    match e.1.field? with
    | some field => convertValue field e.2
    | none => .error (unknownFault [e.1])

/-- Settings with overrides applied and checked. -/
def Settings.withOverrides (s : Settings) (entries : Entries) : Except SettingsFault Settings :=
  match (entries.map (·.1)).filter fun name => name.field?.isNone with
  | [] => do checkSettings ((← assignments entries).foldl Assignment.apply s)
  | unknown => .error (unknownFault unknown)

/-! ### The environment -/

/-- Environment variables. -/
abbrev Environment := List (String × String)

/-- The trimmed value of a variable, empty if it is not set. -/
def Environment.get (env : Environment) (name : String) : String :=
  trimmed (((env.find? fun e => e.1 = name).map (·.2)).getD "")

/-- The variable that gives the time limit for fetching an image, in seconds. -/
def Environment.timeoutName : String := "MARKDOCX_FETCH_TIMEOUT_S"

/-- The variable that gives the name under which images are fetched. -/
def Environment.agentName : String := "MARKDOCX_USER_AGENT"

/-- The settings that an environment gives. -/
def Settings.ofEnvironment (env : Environment) : Except SettingsFault Settings := do
  let timeout := env.get Environment.timeoutName
  let agent := env.get Environment.agentName
  let s : Settings := {}
  let s ← if timeout = "" then .ok s
    else match readNumber? timeout with
      | some x => .ok { s with fetchTimeout := x }
      | none => .error (.timeoutNoNumber timeout)
  checkSettings (if agent = "" then s else { s with userAgent := agent })

end Folio
