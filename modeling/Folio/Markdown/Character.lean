import Folio.Text.Digit
import Folio.Text.Punctuation

/-!
# Characters of Markdown

The classes of characters that the rules of Markdown speak of.
-/

set_option autoImplicit false
set_option relaxedAutoImplicit false

namespace Folio.Markdown

/-- Whether a character indents: a space or a tab. -/
def isIndent (c : Char) : Bool := c = ' ' || c = '\t'

/-- The code points of the characters that count as white space. -/
def gapRanges : Ranges :=
  [(0x9, 0xd), (0x20, 0x20), (0xa0, 0xa0), (0x1680, 0x1680), (0x2000, 0x200a), (0x202f, 0x202f),
   (0x205f, 0x205f), (0x3000, 0x3000)]

/-- Whether a character counts as white space beside a delimiter of emphasis, and at the ends of the
content of a block. -/
def isGap (c : Char) : Bool := gapRanges.contains c

/-- A text without the white space at its ends. -/
def withoutGaps (cs : List Char) : List Char :=
  ((cs.dropWhile isGap).reverse.dropWhile isGap).reverse

/-- Whether a character may start something other than plain text. -/
def isSignal (c : Char) : Bool :=
  c ∈ ['\n', '!', '#', '$', '%', '&', '*', '+', '-', ':', '<', '=', '>', '@', '[', '\\', ']', '^',
    '_', '`', '\x7b', '\x7d', '~']

/-- Whether a character is a letter or a digit of ASCII. -/
def isAsciiWord (c : Char) : Bool := isAsciiLetter c || isAsciiDigit c

end Folio.Markdown
