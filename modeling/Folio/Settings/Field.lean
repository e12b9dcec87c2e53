import Folio.Settings.Basic

/-!
# The settings by name

Each setting has a name, takes a number, a colour or any text, and is one field of `Settings`.
-/

set_option autoImplicit false
set_option relaxedAutoImplicit false

namespace Folio

/-- A setting that takes a number. -/
inductive NumberField
  | fetchTimeout
  | imageWidth
  | imageHeight
  deriving DecidableEq, Repr

/-- A setting that takes a colour. -/
inductive ColorField
  | link
  | code
  | codeShade
  | headerShade
  | rule
  | caption
  deriving DecidableEq, Repr

/-- A setting that takes any text. -/
inductive TextField
  | userAgent
  | codeFont
  deriving DecidableEq, Repr

/-- A setting. -/
inductive Field
  | number (f : NumberField)
  | color (f : ColorField)
  | text (f : TextField)
  deriving DecidableEq, Repr

namespace ColorField

/-- The colours in the order in which they are checked. -/
def all : List ColorField := [link, code, codeShade, headerShade, rule, caption]

/-- The name of a colour. -/
def name : ColorField → String
  | link => "link_color"
  | code => "code_color"
  | codeShade => "code_shade"
  | headerShade => "header_shade"
  | rule => "rule_color"
  | caption => "caption_color"

/-- The colour in some settings. -/
def get (s : Settings) : ColorField → String
  | link => s.linkColor
  | code => s.codeColor
  | codeShade => s.codeShade
  | headerShade => s.headerShade
  | rule => s.ruleColor
  | caption => s.captionColor

/-- Settings with a colour changed. -/
def set (s : Settings) (value : String) : ColorField → Settings
  | link => { s with linkColor := value }
  | code => { s with codeColor := value }
  | codeShade => { s with codeShade := value }
  | headerShade => { s with headerShade := value }
  | rule => { s with ruleColor := value }
  | caption => { s with captionColor := value }

end ColorField

namespace NumberField

/-- The name of a number. -/
def name : NumberField → String
  | fetchTimeout => "fetch_timeout_s"
  | imageWidth => "image_width_in"
  | imageHeight => "image_height_in"

/-- The number in some settings. -/
def get (s : Settings) : NumberField → Binary64
  | fetchTimeout => s.fetchTimeout
  | imageWidth => s.imageWidth
  | imageHeight => s.imageHeight

/-- Settings with a number changed. -/
def set (s : Settings) (value : Binary64) : NumberField → Settings
  | fetchTimeout => { s with fetchTimeout := value }
  | imageWidth => { s with imageWidth := value }
  | imageHeight => { s with imageHeight := value }

end NumberField

namespace TextField

/-- The name of a text. -/
def name : TextField → String
  | userAgent => "user_agent"
  | codeFont => "code_font"

/-- The text in some settings. -/
def get (s : Settings) : TextField → String
  | userAgent => s.userAgent
  | codeFont => s.codeFont

/-- Settings with a text changed. -/
def set (s : Settings) (value : String) : TextField → Settings
  | userAgent => { s with userAgent := value }
  | codeFont => { s with codeFont := value }

end TextField

namespace Field

/-- All settings in their order. -/
def all : List Field :=
  [.number .fetchTimeout, .text .userAgent, .text .codeFont, .color .link, .color .code,
   .color .codeShade, .color .headerShade, .color .rule, .color .caption, .number .imageWidth,
   .number .imageHeight]

/-- The name of a setting. -/
def name : Field → String
  | number f => f.name
  | color f => f.name
  | text f => f.name

/-- The setting with a name. -/
def ofName? (name : String) : Option Field := all.find? fun f => f.name = name

end Field

end Folio
