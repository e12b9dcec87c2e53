import Folio.Text.Blank
import Folio.Text.Cut
import Folio.Text.Digit

/-!
# HTML in Markdown

What counts as HTML: an opening or closing tag, a comment, a processing instruction, a declaration
or a section of character data. Each function that reads something returns what follows it. A line
that starts with HTML may start a block of HTML, of which there are seven sorts that differ in how
the block ends (`htmlBlock?`).
-/

set_option autoImplicit false
set_option relaxedAutoImplicit false

namespace Folio.Markdown

/-- What follows the first occurrence of a text. -/
def afterFirst? (needle : List Char) : List Char → Option (List Char)
  | [] => if needle.isEmpty then some [] else none
  | c :: cs =>
    match afterStart? needle (c :: cs) with
    | some rest => some rest
    | none => afterFirst? needle cs

/-- What follows a tag name and blanks after it are not part of: letters, digits and hyphens behind
a letter. -/
def afterTagName? : List Char → Option (List Char)
  | [] => none
  | c :: cs =>
    if isAsciiLetter c then
      some (cs.dropWhile fun d => isAsciiLetter d || isAsciiDigit d || d = '-')
    else none

/-! ### Opening tags

What stands behind the name of an opening tag is read character by character. A blank outside ASCII
may separate attributes and may also stand in a value without quotes, and a slash may belong to such
a value or end the tag, so there can be several places in the grammar of a tag that reading may have
come to (`TagPlace`). All of them are followed, and the tag ends as soon as one of them has come to
its end. Inside of quotation marks there is only one. -/

/-- Whether a character may start the name of an attribute. -/
def isNameStart (c : Char) : Bool := isAsciiLetter c || c = '_' || c = ':'

/-- Whether a character may stand in the name of an attribute. -/
def isNameChar (c : Char) : Bool := isNameStart c || isAsciiDigit c || c = '.' || c = '-'

/-- Whether a character may stand in an attribute value without quotes. -/
def isUnquotedChar (c : Char) : Bool :=
  0x20 < c.toNat && !("\"'=<>`".toList.contains c)

/-- A place in an opening tag: right behind its name or a value in quotes, behind the blanks in front
of an attribute, in the name of an attribute, behind blanks that follow such a name, between an equals
sign and the value, in a value without quotes, in a value between two marks, behind the slash at the
end, and behind the tag. -/
inductive TagPlace
  | settled
  | apart
  | name
  | named
  | assigned
  | bare
  | quoted (mark : Char)
  | slash
  | closed
  deriving DecidableEq, Repr

namespace TagPlace

/-- Where a character leads that may end a tag. -/
def ending (c : Char) : List TagPlace :=
  if c = '/' then [slash] else if c = '>' then [closed] else []

/-- The places that a character leads to. -/
def next (c : Char) : TagPlace → List TagPlace
  | settled => if isBlank c then [apart] else ending c
  | apart => if isBlank c then [apart] else if isNameStart c then [name] else ending c
  | name =>
    if isNameChar c then [name] else if c = '=' then [assigned]
    else if isBlank c then [named] else ending c
  | named =>
    if isBlank c then [named] else if c = '=' then [assigned]
    else if isNameStart c then [name] else ending c
  | assigned =>
    if c = '"' || c = '\'' then [quoted c]
    else (if isBlank c then [assigned] else []) ++ (if isUnquotedChar c then [bare] else [])
  | bare =>
    (if isUnquotedChar c then [bare] else []) ++ (if isBlank c then [apart] else []) ++ ending c
  | quoted mark => if c = mark then [settled] else [quoted mark]
  | slash => if c = '>' then [closed] else []
  | closed => []

/-- What follows an opening tag, from places in it on. -/
def after? (places : List TagPlace) : List Char → Option (List Char)
  | [] => none
  | c :: cs =>
    let places := (places.flatMap (next c)).eraseDups
    if places.contains closed then some cs
    else if places.isEmpty then none
    else after? places cs

end TagPlace

/-- What follows an opening tag, whose first angle bracket has been read. -/
def afterOpeningTag? (cs : List Char) : Option (List Char) :=
  (afterTagName? cs).bind (TagPlace.after? [.settled])

/-- What follows a closing tag, whose first angle bracket and slash have been read. -/
def afterClosingTag? (cs : List Char) : Option (List Char) := do
  let rest ← afterTagName? cs
  match rest.dropWhile isBlank with
  | '>' :: rest => some rest
  | _ => none

/-- What follows an opening or closing tag. -/
def afterTag? : List Char → Option (List Char)
  | '<' :: '/' :: cs => afterClosingTag? cs
  | '<' :: cs => afterOpeningTag? cs
  | _ => none

/-- What follows the inside of a comment and the end of it: there is an end only where two hyphens
with an angle bracket follow a part of the inside that ends in no hyphen. -/
def afterComment? : List Char → Option (List Char)
  | '-' :: '-' :: '>' :: rest => some rest
  | '-' :: '-' :: _ :: rest => afterComment? rest
  | '-' :: c :: rest => if c = '-' then none else afterComment? rest
  | ['-'] => none
  | _ :: rest => afterComment? rest
  | [] => none

/-- What follows HTML, if a text starts with it. -/
def afterHtml? : List Char → Option (List Char)
  | '<' :: '!' :: '-' :: '-' :: '>' :: rest => some rest
  | '<' :: '!' :: '-' :: '-' :: '-' :: '>' :: rest => some rest
  | '<' :: '!' :: '-' :: '-' :: rest => afterComment? rest
  | '<' :: '?' :: rest => afterFirst? ['?', '>'] rest
  | '<' :: '!' :: rest =>
    match afterStart? "[CDATA[".toList rest with
    | some inside => afterFirst? "]]>".toList inside
    | none =>
      match rest with
      | c :: inside => if isAsciiLetter c then afterFirst? ['>'] inside else none
      | [] => none
  | cs => afterTag? cs

/-! ### Blocks -/

/-- How a block of HTML ends: behind the first line that holds one of some texts, or in front of the
first blank line. -/
inductive HtmlEnd
  | holding (texts : List String)
  | blank
  deriving DecidableEq, Repr

/-- Names of tags that start a block of HTML which holds its text as it is. -/
def verbatimTags : List String := ["script", "pre", "style", "textarea"]

/-- Names of tags that start a block of HTML on a line of their own. -/
def blockTags : List String :=
  ["address", "article", "aside", "base", "basefont", "blockquote", "body", "caption", "center",
   "col", "colgroup", "dd", "details", "dialog", "dir", "div", "dl", "dt", "fieldset",
   "figcaption", "figure", "footer", "form", "frame", "frameset", "h1", "h2", "h3", "h4", "h5",
   "h6", "head", "header", "hr", "html", "iframe", "legend", "li", "link", "main", "menu",
   "menuitem", "nav", "noframes", "ol", "optgroup", "option", "p", "param", "search", "section",
   "summary", "table", "tbody", "td", "tfoot", "th", "thead", "title", "tr", "track", "ul"]

/-- Whether a text is empty or starts with a blank of ASCII or with a closing angle bracket. -/
def endsTagName : List Char → Bool
  | [] => true
  | c :: _ => c = ' ' || ('\t' ≤ c && c ≤ '\r') || c = '>'

/-- Whether a text starts with one of some names, in any case of the letters of ASCII, and what
follows the name passes a test. -/
def startsWithName (names : List String) (test : List Char → Bool) (cs : List Char) : Bool :=
  names.any fun name =>
    match afterStart? name.toList ((cs.take name.length).map Char.toLower) with
    | some _ => test (cs.drop name.length)
    | none => false

/-- How the block of HTML ends that a line starts, if it starts one, and whether that block may come
right behind a line of a paragraph. -/
def htmlBlock? (line : List Char) : Option (HtmlEnd × Bool) :=
  match line with
  | '<' :: rest =>
    if startsWithName verbatimTags endsTagName rest then
      some (.holding (verbatimTags.map fun name => "</" ++ name ++ ">"), true)
    else if ['!', '-', '-'].isPrefixOf rest then some (.holding ["-->"], true)
    else if ['?'].isPrefixOf rest then some (.holding ["?>"], true)
    else if rest.head? = some '!' && (rest[1]?.any isAsciiLetter) then
      some (.holding [">"], true)
    else if "![CDATA[".toList.isPrefixOf rest then some (.holding ["]]>"], true)
    else
      let name := match rest with
        | '/' :: name => name
        | name => name
      if startsWithName blockTags (fun cs => endsTagName cs || ['/', '>'].isPrefixOf cs) name then
        some (.blank, true)
      else
        match afterTag? line with
        | some behind => if behind.all isBlank then some (.blank, false) else none
        | none => none
  | _ => none

/-- Whether a line is one behind or in front of which a block of HTML ends. -/
def HtmlEnd.isReached (e : HtmlEnd) (line : List Char) : Bool :=
  match e with
  | holding texts =>
    let folded := line.map Char.toLower
    texts.any fun text => holdsText text.toList folded
  | blank => line.isEmpty

end Folio.Markdown
