import Std.Data.HashMap
import Folio.Markdown.LinkPart
import Folio.Markdown.Tag
import Folio.Markdown.Token
import Folio.Text.Blank
import Folio.Text.Case

/-!
# Spans of inline content

What starts at a place of a text and where it stops: plain characters, a line break, an escaped
character, code, a link, an image, a bare URL, HTML, or a character reference (`span?`). Emphasis is
not a span, since where it ends shows only once the whole text has been read.

The label of a link is found by skipping spans up to the closing bracket, so spans and labels are
found by mutual recursion. Spans within labels within labels are looked at down to a fixed depth,
below which the rest of the text is taken for one span. What has been skipped once is remembered
(`Skipped`).
-/

set_option autoImplicit false
set_option relaxedAutoImplicit false

namespace Folio.Markdown

/-- What a label refers to: a URL and a title, which is empty if there is none. -/
structure Reference where
  url : String
  title : String
  deriving DecidableEq, Repr

/-- References by the keys of their labels. -/
abbrev References := List (String × Reference)

/-- The form in which labels are compared: blanks at the ends are dropped and blanks in between are
one space each, and letter case does not count. -/
def labelKey (label : List Char) : String :=
  caseKey (String.ofList (collapse (trimChars label)))
where
  /-- Every run of blanks brought to one space. -/
  collapse : List Char → List Char
    | [] => []
    | c :: cs =>
      if isBlank c then
        if (cs.head?.map isBlank).getD false then collapse cs else ' ' :: collapse cs
      else c :: collapse cs

/-- The kinds of spans. Links and images tell where their labels start and stop. -/
inductive SpanKind
  | plain (chars : List Char)
  | newline
  | hardBreak
  | special (chars : List Char)
  | code (chars : List Char)
  | link (start stop : Nat) (url title : String)
  | image (start stop : Nat) (url title : String)
  | bareUrl (url shown : String)
  | html
  deriving Repr

/-- A span and where it stops. -/
structure Span where
  kind : SpanKind
  stop : Nat
  deriving Repr

/-- The places behind the spans that have been skipped, by the places at which these start. -/
abbrev Skipped := Std.HashMap Nat Nat

/-- A text to be read, and the references that its links may use. -/
structure Source where
  chars : Array Char
  references : References

namespace Source

/-- The character at a place, or a NUL behind the end. -/
def charAt (s : Source) (i : Nat) : Char := s.chars.getD i '\x00'

/-- The characters between two places. -/
def slice (s : Source) (i j : Nat) : List Char := (s.chars.extract i j).toList

/-- The first place from `i` on, and before `stop`, whose character fails a test. -/
def skipWhile (s : Source) (test : Char → Bool) (stop i : Nat) : Nat :=
  if i < stop then if test (s.charAt i) then skipWhile s test stop (i + 1) else i else i
termination_by stop - i

/-! ### Spans without labels -/

/-- The place behind the spaces and tabs from a place on. -/
def skipIndent (s : Source) (stop i : Nat) : Nat := s.skipWhile isIndent stop i

/-- The place behind the spaces, tabs and line feeds from a place on. -/
def skipGap (s : Source) (stop i : Nat) : Nat :=
  s.skipWhile (fun c => isIndent c || c = '\n') stop i

/-- The span at a backslash. In front of a line feed it is a hard line break, and in front of any
other character that is not punctuation of ASCII it stands for itself. -/
def escape? (s : Source) (stop i : Nat) : Option Span :=
  if stop ≤ i + 1 then none
  else
    let c := s.charAt (i + 1)
    if c = '\n' then some ⟨.hardBreak, s.skipIndent stop (i + 2)⟩
    else some ⟨.special (if isAsciiPunctuation c then [c] else ['\\', c]), i + 2⟩

/-- Where a run of backticks of a length starts and stops, from a place on. -/
def closingTicks? (s : Source) (stop length : Nat) (i : Nat) : Option (Nat × Nat) :=
  let start := s.skipWhile (· ≠ '`') s.chars.size i
  let next := s.skipWhile (· = '`') stop (start + 1)
  if _ : i < s.chars.size then
    if s.chars.size ≤ start then none
    else if next - start = length then some (start, next)
    else closingTicks? s stop length (max next (i + 1))
  else none
termination_by s.chars.size - i

/-- The text of a code span: line feeds become spaces, and one space at either end is dropped if
both are there and the text is not blank. -/
def codeText (cs : List Char) : List Char :=
  let cs := cs.map fun c => if c = '\n' then ' ' else c
  if cs.head? = some ' ' && cs.getLast? = some ' ' && !cs.all isBlank then (cs.drop 1).dropLast
  else cs

/-- The span at a backtick: code up to the next run of the same length, or the run itself. -/
def code (s : Source) (stop i : Nat) : Span :=
  let inside := s.skipWhile (· = '`') stop i
  match s.closingTicks? stop (inside - i) inside with
  | some (last, next) => ⟨.code (codeText (s.slice inside last)), next⟩
  | none => ⟨.plain (List.replicate (inside - i) '`'), inside⟩

/-- Whether a text is the scheme of a bare URL: a letter and up to 31 letters, digits and marks, at
least one of them. -/
def isBareScheme (cs : List Char) : Bool :=
  2 ≤ cs.length && cs.length ≤ 32 && (cs.head?.map isAsciiLetter).getD false &&
    cs.all fun c => isAsciiWord c || c = '+' || c = '.' || c = '-'

/-- Whether a text is a bare URL. -/
def isBareUrl (cs : List Char) : Bool :=
  match cutAt (· = ':') cs with
  | (scheme, _ :: rest) => isBareScheme scheme && rest.all fun c => 0x20 < c.toNat
  | (_, []) => false

/-- Whether a text is one of the labels of the domain of a mail address. -/
def isMailLabel (cs : List Char) : Bool :=
  cs.length ≤ 63 && (cs.head?.map isAsciiWord).getD false &&
    (cs.getLast?.map isAsciiWord).getD false && cs.all fun c => isAsciiWord c || c = '-'

/-- Whether a text is a mail address. -/
def isMailAddress (cs : List Char) : Bool :=
  match cutAt (· = '@') cs with
  | (name, _ :: domain) =>
    !name.isEmpty &&
      (name.all fun c => isAsciiWord c || ".!#$%&'*+/=?^_`\x7b|\x7d~-".toList.contains c) &&
      (splitOnChar '.' domain).all isMailLabel
  | (_, []) => false

/-- The span of a bare URL or a mail address in angle brackets. -/
def bareUrl? (s : Source) (stop i : Nat) : Option Span :=
  let last := s.skipWhile (fun c => c ≠ '<' && c ≠ '>') stop (i + 1)
  if last < stop && s.charAt last = '>' then
    let text := s.slice (i + 1) last
    let target :=
      if isBareUrl text then some (destinationUrl text)
      else if isMailAddress text then some (destinationUrl ("mailto:".toList ++ text))
      else none
    match target with
    | some url =>
      if isAllowedUrl url then
        some ⟨.bareUrl (String.ofList url) (String.ofList (shownUrl text)), last + 1⟩
      else none
    | none => none
  else none

/-- The span of HTML. -/
def html? (s : Source) (stop i : Nat) : Option Span :=
  if stop ≤ i + 2 then none
  else
    (afterHtml? (s.slice i s.chars.size)).map fun rest => ⟨.html, s.chars.size - rest.length⟩

/-- The span of a character reference. -/
def reference? (s : Source) (stop i : Nat) : Option Span :=
  if stop ≤ i + 1 then none
  else
    match referenceBody? (s.slice (i + 1) (i + 35)) with
    | none => none
    | some (body, _) =>
      let found := fun chars : List Char => some (⟨.special chars, i + body.length + 2⟩ : Span)
      match body with
      | '#' :: digits =>
        match referenceNumber? 7 6 digits with
        | some n => found [if isReferable n then Char.ofNat n else '\ufffd']
        | none => none
      | name =>
        match namedCharacter? (String.ofList name) with
        | some value => found value.toList
        | none => none

/-! ### Labels -/

/-- What stands in the parentheses behind a label: the URL and the title, and the place behind what
has been read. -/
structure Parenthesized where
  url : List Char := []
  title : List Char := []
  stop : Nat

/-- Reads the parentheses that open at a place, as far as possible; none if the text ends first. -/
def parenthesized? (s : Source) (stop i : Nat) : Option Parenthesized :=
  let i := s.skipGap stop (i + 1)
  if stop ≤ i then none
  else
    match destination? (s.slice i stop) with
    | none => some { stop := i }
    | some (written, rest) =>
      let url := destinationUrl written
      if isAllowedUrl url then
        let behind := stop - rest.length
        let j := s.skipGap stop behind
        match if behind < j && j < stop then title? (s.slice j stop) else none with
        | some (title, rest) =>
          some { url, title, stop := s.skipGap stop (stop - rest.length) }
        | none => some { url, stop := j }
      else some { stop := i }

/-- Whether the text has a character at a place in front of `stop`. -/
def has (s : Source) (c : Char) (stop i : Nat) : Bool := i < stop && s.charAt i = c

/-- The reference for a label, if there is one. -/
def lookUp? (s : Source) (label : List Char) : Option Reference :=
  s.references.lookup (labelKey label)

mutual

/-- The span at a place, at some depth of labels. -/
def span? (s : Source) (depth stop i : Nat) : StateM Skipped (Option Span) :=
  match s.charAt i with
  | '\n' => return some ⟨.newline, s.skipIndent stop (i + 1)⟩
  | '\\' => return s.escape? stop i
  | '`' => return some (s.code stop i)
  | '[' => do
    match ← label? s depth stop true 1 (i + 1) with
    | none => return none
    | some last =>
      let found := fun (url title : String) (k : Nat) =>
        some (⟨.link (i + 1) last url title, k⟩ : Span)
      let direct := if s.has '(' stop (last + 1) then s.parenthesized? stop (last + 1) else none
      match direct with
      | some p =>
        if s.has ')' stop p.stop then
          return found (String.ofList p.url) (String.ofList p.title) (p.stop + 1)
        else return (← referred? s depth stop (i + 1) last (p.stop + 1)).bind fun r => found r.1.url r.1.title r.2
      | none =>
        if s.has '(' stop (last + 1) then return none
        else return (← referred? s depth stop (i + 1) last (last + 1)).bind fun r => found r.1.url r.1.title r.2
  | '!' => do
    if s.charAt (i + 1) ≠ '[' || stop ≤ i + 1 then return none
    match ← label? s depth stop false 1 (i + 2) with
    | none => return none
    | some last =>
      let found := fun (url title : String) (k : Nat) =>
        some (⟨.image (i + 2) last url title, k⟩ : Span)
      if s.has '(' stop (last + 1) then
        match s.parenthesized? stop (last + 1) with
        | some p =>
          if s.has ')' stop p.stop then
            return found (String.ofList p.url) (String.ofList p.title) (p.stop + 1)
          else return none
        | none => return none
      else return (← referred? s depth stop (i + 2) last (last + 1)).bind fun r => found r.1.url r.1.title r.2
  | '<' => return (s.bareUrl? stop i).or (s.html? stop i)
  | '&' => return s.reference? stop i
  | c =>
    if isSignal c then return none
    else
      let next := s.skipWhile (!isSignal ·) stop i
      return some ⟨.plain (s.slice i next), next⟩
termination_by (mostNested - depth, 3, 0)

/-- The reference that a label refers to, and the place behind the second label, if there is one
at `i`: an empty or missing second label stands for the first. -/
def referred? (s : Source) (depth stop first last i : Nat) :
    StateM Skipped (Option (Reference × Nat)) := do
  if s.references.isEmpty then return none
  let second ← if s.has '[' stop i then label? s depth stop false 1 (i + 1) else pure none
  let (label, next) := match second with
    | some j => (s.slice (i + 1) j, j + 1)
    | none => ([], last + 1)
  return (s.lookUp? (if label.isEmpty then s.slice first last else label)).map fun r => (r, next)
termination_by (mostNested - depth, 2, 0)

/-- The place of the bracket that closes a label, of which `opened` brackets are open at a place. In
the label of a link there can be no other link. -/
def label? (s : Source) (depth stop : Nat) (ofLink : Bool) (opened i : Nat) :
    StateM Skipped (Option Nat) := do
  if h : i < stop then
    let c := s.charAt i
    if c = ']' && opened = 1 then return some i
    let opened := if c = ']' then opened - 1 else opened
    let next ← skip s depth stop i
    if h' : i < next then
      if c = '[' then
        if next = i + 1 then label? s depth stop ofLink (opened + 1) next
        else if ofLink then return none
        else label? s depth stop ofLink opened next
      else label? s depth stop ofLink opened next
    else return none
  else return none
termination_by (mostNested - depth, 1, stop - i)

/-- The place behind the span, or behind the single character, at a place. -/
def skip (s : Source) (depth stop i : Nat) : StateM Skipped Nat := do
  match (← get)[i]? with
  | some next => return next
  | none =>
    let next ←
      if h : depth < mostNested then do
        match ← span? s (depth + 1) stop i with
        | some found => pure found.stop
        | none => pure (i + 1)
      else pure (stop + 1)
    modify (·.insert i next)
    return next
termination_by (mostNested - depth, 0, 0)

end

end Source

end Folio.Markdown
