import Folio.Settings.Value

/-!
# Why a settings text gives no value

Most texts that give no value are malformed: they break a rule of the notation, or they ask for a
kind of value that does not exist or does not fit. The other causes lie in a single scalar whose text
is no value of its kind.
-/

set_option autoImplicit false
set_option relaxedAutoImplicit false

namespace Folio.Yaml

/-- A part of a moment that has a range of its own. -/
inductive TimePart
  | year (value : Nat)
  | month
  | day
  | hour
  | minute
  | second
  deriving DecidableEq, Repr

/-- Why a text gives no value. -/
inductive Fault
  /-- The text breaks a rule of the notation. -/
  | malformed
  /-- An escape asks for a code point beyond the last. -/
  | beyondUnicode (code : Nat)
  /-- A text is no truth value. -/
  | noTruth (text : String)
  /-- A text is no integer in a base. -/
  | noInteger (base : Nat) (text : String)
  /-- A text is no number. -/
  | noNumber (text : String)
  /-- A number has no digits at all. -/
  | noDigits
  /-- An integer has too many digits. -/
  | tooManyDigits (count : Nat)
  /-- A factor is too large for a binary64 number. -/
  | hugeFactor
  /-- A text is no moment. -/
  | noMoment
  /-- A part of a moment is out of its range. -/
  | outOfRange (part : TimePart)
  /-- An offset from universal time, in minutes, is a day or more. -/
  | longOffset (minutes : Int)
  deriving DecidableEq, Repr

namespace TimePart

/-- The text that reports a part out of its range. -/
def message : TimePart → String
  | year value => "year " ++ toString value ++ " is out of range"
  | month => "month must be in 1..12"
  | day => "day is out of range for month"
  | hour => "hour must be in 0..23"
  | minute => "minute must be in 0..59"
  | second => "second must be in 0..59"

end TimePart

/-- The text that reports why a text gives no value. -/
def Fault.message : Fault → String
  | malformed => "malformed"
  | beyondUnicode code =>
    if code < twoTo 31 then "chr() arg not in range(0x110000)"
    else "Python int too large to convert to C int"
  | noTruth text => quoted text
  | noInteger base text =>
    "invalid literal for int() with base " ++ toString base ++ ": " ++
      String.ofList ((quoted text).toList.take 200)
  | noNumber text => "could not convert string to float: " ++ quoted text
  | noDigits => "string index out of range"
  | tooManyDigits count =>
    "Exceeds the limit (4300 digits) for integer string conversion: value has " ++ toString count ++
      " digits; use sys.set_int_max_str_digits() to increase the limit"
  | hugeFactor => "int too large to convert to float"
  | noMoment => "'NoneType' object has no attribute 'groupdict'"
  | outOfRange part => part.message
  | longOffset minutes =>
    "offset must be a timedelta strictly between -timedelta(hours=24) and timedelta(hours=24), not "
      ++ Value.differenceForm minutes ++ "."

end Folio.Yaml
