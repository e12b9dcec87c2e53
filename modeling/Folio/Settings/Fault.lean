import Folio.Path.Tree
import Folio.Text.Utf8
import Folio.Yaml.Fault

/-!
# Why settings are refused

Most causes are told to the user as faults of the settings. The others stop the program
(`SettingsFault.isReported`).
-/

set_option autoImplicit false
set_option relaxedAutoImplicit false

namespace Folio

/-- Why settings are refused. -/
inductive SettingsFault
  | timeoutNoNumber (text : String)
  | unknownNames (names : List String)
  | noNumber (name form : String)
  | noColor (name form : String)
  | timeoutNotPositive
  | extentNotPositive
  | badColor (name text : String)
  | unreadable (path : String) (fault : FileFault)
  | badSource (path : String)
  | noMapping
  /-- A number has too many digits to be written. -/
  | textTooLong
  | hugeInteger
  | nameNoText (kind : String)
  | namesNotComparable (first second : String)
  /-- A path starts with a home directory that is not known. -/
  | noHome
  | nulInPath
  | undecodable (fault : Utf8Fault)
  /-- A scalar of a settings file has no value. -/
  | noValue (fault : Yaml.Fault)
  deriving DecidableEq, Repr

namespace SettingsFault

/-- The text that reports why settings are refused. -/
def message : SettingsFault → String
  | timeoutNoNumber text => "MARKDOCX_FETCH_TIMEOUT_S must be a number, got " ++ quoted text
  | unknownNames names => "Unknown configuration keys: " ++ ", ".intercalate names
  | noNumber name form => name ++ " must be a number, got " ++ form
  | noColor name form =>
    name ++ " must be a quoted hex colour such as \"0563C1\", got " ++ form
  | timeoutNotPositive => "fetch_timeout_s must be positive"
  | extentNotPositive => "image extent must be positive"
  | badColor name text => name ++ " must be six hex digits (RRGGBB), got " ++ quoted text
  | unreadable path fault => "Cannot read config file " ++ path ++ ": " ++ fault.message path
  | badSource path => "Invalid YAML in " ++ path
  | noMapping => "Config root must be a mapping of setting names to values."
  | textTooLong =>
    "Exceeds the limit (4300 digits) for integer string conversion; use " ++
      "sys.set_int_max_str_digits() to increase the limit"
  | hugeInteger => "int too large to convert to float"
  | nameNoText kind => "sequence item 0: expected str instance, " ++ kind ++ " found"
  | namesNotComparable first second =>
    "'<' not supported between instances of '" ++ first ++ "' and '" ++ second ++ "'"
  | noHome => "Could not determine home directory."
  | nulInPath => "embedded null byte"
  | undecodable fault => fault.message
  | noValue fault => fault.message

/-- Whether a cause is told to the user as a fault of the settings. -/
def isReported : SettingsFault → Bool
  | textTooLong => false
  | hugeInteger => false
  | nameNoText _ => false
  | namesNotComparable _ _ => false
  | noHome => false
  | nulInPath => false
  | undecodable _ => false
  | noValue _ => false
  | _ => true

end SettingsFault

end Folio
