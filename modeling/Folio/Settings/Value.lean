import Folio.Number.Shortest
import Folio.Text.Quoted

/-!
# Values of settings

The values that a settings file or a caller can give to a setting, and the text of a value: plain for
a text itself, in a form that shows its kind inside of other values and in messages. A number whose
decimal form would have more than `digitLimit` digits has no text.
-/

set_option autoImplicit false
set_option relaxedAutoImplicit false

namespace Folio

/-- A day of the calendar. -/
structure Day where
  year : Nat
  month : Nat
  day : Nat
  deriving DecidableEq, Repr

/-- A moment of a day; its offset from universal time, if known, is in minutes. -/
structure Moment where
  date : Day
  hour : Nat
  minute : Nat
  second : Nat
  microsecond : Nat
  offset : Option Int
  deriving DecidableEq, Repr

/-- A value of a setting. -/
inductive Value
  | null
  | bool (b : Bool)
  | int (n : Int)
  | float (x : Binary64)
  | text (s : String)
  | bytes (content : List UInt8)
  | date (day : Day)
  | moment (time : Moment)
  | list (items : List Value)
  | pair (first second : Value)
  | set (items : List Value)
  | map (entries : List (Value × Value))
  /-- The list or mapping around this value, which holds itself. -/
  | enclosing (isMapping : Bool)
  deriving Inhabited

namespace Value

/-- The most digits that a number may have to be written. -/
def digitLimit : Nat := 4300

/-- The decimal digits of an integer, unless there are too many. -/
def intText? (n : Int) : Option String :=
  let digits := Nat.toDigits 10 n.natAbs
  if digitLimit < digits.length then none
  else some (String.ofList (if n < 0 then '-' :: digits else digits))

/-- The name of the kind of a value. -/
def kindName : Value → String
  | null => "NoneType"
  | bool _ => "bool"
  | int _ => "int"
  | float _ => "float"
  | text _ => "str"
  | bytes _ => "bytes"
  | date _ => "datetime.date"
  | moment _ => "datetime.datetime"
  | list _ => "list"
  | pair _ _ => "tuple"
  | set _ => "set"
  | map _ => "dict"
  | enclosing isMapping => if isMapping then "dict" else "list"

/-- A byte as it stands between quotes. -/
def quotedByte (quote : Char) (b : UInt8) : List Char :=
  let c := Char.ofNat b.toNat
  if c = quote || c = '\\' then ['\\', c]
  else if c = '\t' then ['\\', 't']
  else if c = '\n' then ['\\', 'n']
  else if c = '\r' then ['\\', 'r']
  else if 0x20 ≤ b.toNat && b.toNat < 0x7f then [c]
  else '\\' :: 'x' :: hexDigits 2 b.toNat

/-- Bytes between quotes, with a mark in front. -/
def quotedBytes (content : List UInt8) : String :=
  let quote := quoteFor (content.map fun b => Char.ofNat b.toNat)
  String.ofList ('b' :: quote :: (content.flatMap (quotedByte quote) ++ [quote]))

/-- A number with zeros in front up to a width. -/
def zeroPadded (width n : Nat) : String := String.ofList (Binary64.padded width n)

/-- The form of a difference of times in minutes: whole days, rounded down, and seconds. -/
def differenceForm (minutes : Int) : String :=
  let days := minutes / 1440
  let seconds := (minutes % 1440) * 60
  let parts := (if days = 0 then [] else ["days=" ++ toString days]) ++
    (if seconds = 0 then [] else ["seconds=" ++ toString seconds])
  "datetime.timedelta(" ++ ", ".intercalate parts ++ ")"

/-- The form of an offset from universal time. -/
def offsetForm (minutes : Int) : String :=
  if minutes = 0 then "datetime.timezone.utc"
  else "datetime.timezone(" ++ differenceForm minutes ++ ")"

/-- The form of a day that shows its kind. -/
def dayForm (d : Day) : String :=
  "datetime.date(" ++ ", ".intercalate ([d.year, d.month, d.day].map toString) ++ ")"

/-- The form of a moment that shows its kind; seconds and their parts are left out when they are
zero. -/
def momentForm (m : Moment) : String :=
  let numbers := [m.date.year, m.date.month, m.date.day, m.hour, m.minute] ++
    (if m.second = 0 && m.microsecond = 0 then []
      else if m.microsecond = 0 then [m.second] else [m.second, m.microsecond])
  let zone := (m.offset.map fun o => ", tzinfo=" ++ offsetForm o).getD ""
  "datetime.datetime(" ++ ", ".intercalate (numbers.map toString) ++ zone ++ ")"

/-- A day as text. -/
def dayText (d : Day) : String :=
  zeroPadded 4 d.year ++ "-" ++ zeroPadded 2 d.month ++ "-" ++ zeroPadded 2 d.day

/-- An offset from universal time as text. -/
def offsetText (minutes : Int) : String :=
  (if minutes < 0 then "-" else "+") ++ zeroPadded 2 (minutes.natAbs / 60) ++ ":" ++
    zeroPadded 2 (minutes.natAbs % 60)

/-- A moment as text. -/
def momentText (m : Moment) : String :=
  dayText m.date ++ " " ++ zeroPadded 2 m.hour ++ ":" ++ zeroPadded 2 m.minute ++ ":" ++
    zeroPadded 2 m.second ++
    (if m.microsecond = 0 then "" else "." ++ zeroPadded 6 m.microsecond) ++
    (m.offset.map offsetText).getD ""

mutual

/-- The form of a value that shows its kind; none if it holds a number that is too long. -/
def form? : Value → Option String
  | null => some "None"
  | bool b => some (if b then "True" else "False")
  | int n => intText? n
  | float x => some x.text
  | text s => some (quoted s)
  | bytes content => some (quotedBytes content)
  | date d => some (dayForm d)
  | moment m => some (momentForm m)
  | list items => (forms? items).map fun fs => "[" ++ ", ".intercalate fs ++ "]"
  | pair a b => do
    let first ← form? a
    let second ← form? b
    return "(" ++ first ++ ", " ++ second ++ ")"
  | set [] => some "set()"
  | set items => (forms? items).map fun fs => "\x7b" ++ ", ".intercalate fs ++ "\x7d"
  | map entries => (entryForms? entries).map fun fs => "\x7b" ++ ", ".intercalate fs ++ "\x7d"
  | enclosing isMapping => some (if isMapping then "\x7b...\x7d" else "[...]")

/-- The forms of values in order. -/
def forms? : List Value → Option (List String)
  | [] => some []
  | v :: vs => do
    let first ← form? v
    let rest ← forms? vs
    return first :: rest

/-- The forms of the entries of a mapping in order. -/
def entryForms? : List (Value × Value) → Option (List String)
  | [] => some []
  | (k, v) :: entries => do
    let key ← form? k
    let value ← form? v
    let rest ← entryForms? entries
    return (key ++ ": " ++ value) :: rest

end

/-- The text of a value. -/
def text? : Value → Option String
  | text s => some s
  | date d => some (dayText d)
  | moment m => some (momentText m)
  | v => v.form?

/-- Whether a value counts as no value at all: nothing, false, zero, or empty. -/
def isEmpty : Value → Bool
  | null => true
  | bool b => !b
  | int n => n = 0
  | float (.finite _ m _) => m = 0
  | float _ => false
  | text s => s.isEmpty
  | bytes content => content.isEmpty
  | list items => items.isEmpty
  | set items => items.isEmpty
  | map entries => entries.isEmpty
  | date _ => false
  | moment _ => false
  | pair _ _ => false
  | enclosing _ => false

end Value

end Folio
