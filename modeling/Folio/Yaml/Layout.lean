import Folio.Yaml.Property
import Folio.Yaml.Scalar.Block
import Folio.Yaml.Scalar.Plain

/-!
# Reading tokens

The tokens of a text depend on its layout. A value at a deeper column opens a collection, and a token
at a column to the left closes it. A key is known as such only when the colon behind it is read, so
the place of a token that can be a key is remembered, one for each pair of brackets around it, and
the tokens that mark the key are inserted there later. A key stands on one line and is at most
`keyLength` characters long.
-/

set_option autoImplicit false
set_option relaxedAutoImplicit false

namespace Folio.Yaml

/-- A token that can turn out to be a key: how many tokens come before it, where it starts, and
whether nothing but a key can stand there. -/
structure PossibleKey where
  before : Nat
  required : Bool
  index : Nat
  line : Nat
  column : Nat
  deriving Repr

/-- What has been read: the place, the tokens with the newest first, the token that can be a key for
each pair of brackets from the innermost and for the text outside of them, the columns of the open
collections from the innermost, and whether a key may start here. -/
structure Layout where
  cursor : Cursor
  tokens : List Token := []
  keys : List (Option PossibleKey) := [none]
  columns : List Nat := []
  keyAllowed : Bool := true

namespace Layout

/-- How far behind the start of a key its colon may stand. -/
def keyLength : Nat := 1024

/-- Whether the place is between brackets. -/
def isBracketed (l : Layout) : Bool := 1 < l.keys.length

/-- The column to which text in the innermost collection is indented. -/
def indent (l : Layout) : Nat := (l.columns.head?.map (· + 1)).getD 0

/-- A layout with one more token. -/
def push (l : Layout) (token : Token) : Layout := { l with tokens := token :: l.tokens }

/-- A layout with a token put in behind the first so many. -/
def insert (l : Layout) (before : Nat) (token : Token) : Layout :=
  let newer := l.tokens.length - before
  { l with tokens := l.tokens.take newer ++ token :: l.tokens.drop newer }

/-- A layout in which a token has been read up to a place, and whether a key may start behind it. -/
def readTo (l : Layout) (cursor : Cursor) (keyAllowed : Bool) (token : Token) : Layout :=
  { l.push token with cursor, keyAllowed }

/-- Whether a token can no longer be a key, because its colon would be too far away. -/
def isStale (c : Cursor) (k : PossibleKey) : Bool :=
  k.line ≠ c.line || decide (keyLength < c.index - k.index)

/-- A layout without the tokens that can no longer be keys. -/
def dropStale (l : Layout) : Except Fault Layout :=
  if l.keys.any fun key => key.any fun k => isStale l.cursor k && k.required then
    .error .malformed
  else .ok { l with keys := l.keys.map fun key => key.filter fun k => !isStale l.cursor k }

/-- A layout with another token, or none, as the one that can be a key between the innermost
brackets. -/
def setKey (l : Layout) (key : Option PossibleKey) : Layout :=
  { l with keys := key :: l.keys.drop 1 }

/-- The token that can be a key between the innermost brackets. -/
def possibleKey? (l : Layout) : Option PossibleKey := l.keys.head?.getD none

/-- A layout in which nothing can be a key between the innermost brackets. -/
def forgetKey (l : Layout) : Except Fault Layout :=
  if l.possibleKey?.any (·.required) then .error .malformed else .ok (l.setKey none)

/-- A layout in which the next token is the one that can be a key. -/
def noteKey (l : Layout) : Except Fault Layout :=
  if l.keyAllowed then do
    let l ← l.forgetKey
    let required := !l.isBracketed && l.columns.head? = some l.cursor.column
    .ok (l.setKey (some
      ⟨l.tokens.length, required, l.cursor.index, l.cursor.line, l.cursor.column⟩))
  else .ok l

/-- A layout in which the collections that stay open satisfy a test on their columns. Between
brackets the layout does not matter. -/
def close (l : Layout) (stays : Nat → Bool) : Layout :=
  if l.isBracketed then l
  else
    let closed := (l.columns.takeWhile (!stays ·)).length
    { l with
      columns := l.columns.drop closed
      tokens := List.replicate closed .layoutEnd ++ l.tokens }

/-- A layout in which all collections are closed and no key can follow. -/
def closeAll (l : Layout) : Except Fault Layout := do
  let l ← (l.close fun _ => false).forgetKey
  .ok { l with keyAllowed := false }

/-- A layout with a collection open at a column; its start is put in behind the first so many
tokens unless a collection is open there already. -/
def openAt (l : Layout) (column before : Nat) (start : Token) : Layout :=
  if l.columns.head?.all (· < column) then
    { l.insert before start with columns := column :: l.columns }
  else l

/-- A layout at the start of the next token: spaces, comments and line breaks have been passed. -/
def skipGap (l : Layout) : Layout :=
  let c := l.cursor.skipWhile (· = ' ')
  let c := if c.sees (· = '#') then c.skipWhile (!isBreak ·) else c
  if c.sees isBreak then
    if _shorter : c.lineBreak.2.rest.length < l.cursor.rest.length then
      skipGap { l with cursor := c.lineBreak.2, keyAllowed := l.keyAllowed || !l.isBracketed }
    else { l with cursor := c }
  else { l with cursor := c }
termination_by l.cursor.rest.length

/-! ### Tokens -/

/-- The mark of a document. -/
def documentMark (l : Layout) (token : Token) : Except Fault Layout := do
  .ok ((← l.closeAll).readTo (l.cursor.skip 3) false token)

/-- A directive. -/
def directive (l : Layout) : Except Fault Layout := do
  let l ← l.closeAll
  let (content, c) ← l.cursor.directive
  .ok (l.readTo c false (.directive content))

/-- An opening bracket. -/
def openBracket (l : Layout) (token : Token) : Except Fault Layout := do
  let l ← l.noteKey
  .ok { l.readTo l.cursor.next true token with keys := none :: l.keys }

/-- A closing bracket, which has to stand between brackets. -/
def closeBracket (l : Layout) (token : Token) : Except Fault Layout :=
  if l.isBracketed then do
    let l ← l.forgetKey
    .ok { l.readTo l.cursor.next false token with keys := l.keys.drop 1 }
  else .error .malformed

/-- A comma. -/
def comma (l : Layout) : Except Fault Layout := do
  let l ← l.forgetKey
  .ok (l.readTo l.cursor.next true .comma)

/-- The mark of an entry of a sequence. -/
def entry (l : Layout) : Except Fault Layout := do
  if !l.isBracketed && !l.keyAllowed then .error .malformed
  else
    let l := if l.isBracketed then l else l.openAt l.cursor.column l.tokens.length .sequenceStart
    let l ← l.forgetKey
    .ok (l.readTo l.cursor.next true .entry)

/-- The mark of a key. -/
def key (l : Layout) : Except Fault Layout := do
  if !l.isBracketed && !l.keyAllowed then .error .malformed
  else
    let l := if l.isBracketed then l else l.openAt l.cursor.column l.tokens.length .mappingStart
    let l ← l.forgetKey
    .ok (l.readTo l.cursor.next (!l.isBracketed) .key)

/-- The colon before a value. -/
def value (l : Layout) : Except Fault Layout :=
  match l.possibleKey? with
  | some k =>
    let l := (l.setKey none).insert k.before .key
    let l := if l.isBracketed then l else l.openAt k.column k.before .mappingStart
    .ok (l.readTo l.cursor.next false .value)
  | none =>
    if l.isBracketed then .ok (l.readTo l.cursor.next false .value)
    else if !l.keyAllowed then .error .malformed
    else
      let l := l.openAt l.cursor.column l.tokens.length .mappingStart
      .ok (l.readTo l.cursor.next true .value)

/-- A token that can be a key, as a function reads it. -/
def keyLike (l : Layout) (read : Cursor → Except Fault (Token × Cursor)) : Except Fault Layout := do
  let l ← l.noteKey
  let (token, c) ← read l.cursor
  .ok (l.readTo c false token)

/-- A block scalar. -/
def blockScalar (l : Layout) (folds : Bool) : Except Fault Layout := do
  let l ← l.forgetKey
  let (text, c) ← BlockScalar.read folds l.indent l.cursor
  .ok (l.readTo c true (.scalar (String.ofList text) false))

/-- A quoted scalar. -/
def quotedScalar (l : Layout) (quote : Char) : Except Fault Layout :=
  l.keyLike fun c =>
    (Quoted.read quote c).map fun (text, c) => (.scalar (String.ofList text) false, c)

/-- A plain scalar. A key may start behind it if a line break does. -/
def plainScalar (l : Layout) : Except Fault Layout := do
  let l ← l.noteKey
  let found ← Plain.read l.isBracketed l.indent l.cursor
  .ok (l.readTo found.behind found.broken (.scalar (String.ofList found.text) true))

/-- Whether a plain scalar can start with a text. -/
def startsPlain (bracketed : Bool) : List Char → Bool
  | [] => false
  | c :: rest =>
    !(isGap c || "-?:,[]#&*!|>'\"%@`".toList.contains c || c = '{' || c = '}') ||
      (!endsWith isGap rest && (c = '-' || (!bracketed && (c = '?' || c = ':'))))

/-- A layout with the token at its place read, where there is one. -/
def token (l : Layout) : Except Fault Layout :=
  let c := l.cursor
  let first := c.rest.head?.getD ' '
  let alone := endsWith isGap (c.rest.drop 1)
  if first = '%' && c.column = 0 then l.directive
  else if c.isAtMark '-' then l.documentMark .documentStart
  else if c.isAtMark '.' then l.documentMark .documentEnd
  else if first = '[' then l.openBracket .listOpen
  else if first = '{' then l.openBracket .mapOpen
  else if first = ']' then l.closeBracket .listClose
  else if first = '}' then l.closeBracket .mapClose
  else if first = ',' then l.comma
  else if first = '-' && alone then l.entry
  else if first = '?' && (l.isBracketed || alone) then l.key
  else if first = ':' && (l.isBracketed || alone) then l.value
  else if first = '*' then l.keyLike fun c => c.anchorName.map fun (name, c) => (.alias name, c)
  else if first = '&' then l.keyLike fun c => c.anchorName.map fun (name, c) => (.anchor name, c)
  else if first = '!' then l.keyLike fun c => c.tag.map fun (text, c) => (.tag text, c)
  else if (first = '|' || first = '>') && !l.isBracketed then l.blockScalar (first = '>')
  else if first = '\'' || first = '"' then l.quotedScalar first
  else if startsPlain l.isBracketed c.rest then l.plainScalar
  else .error .malformed

/-- The tokens of the text from a layout on, with those that have been read. -/
def read (l : Layout) : Except Fault (List Token) := do
  let here ← l.skipGap.dropStale
  let here := here.close (· ≤ here.cursor.column)
  if here.cursor.rest.isEmpty then
    .ok (← here.closeAll).tokens.reverse
  else
    let behind ← here.token
    if _shorter : behind.cursor.rest.length < l.cursor.rest.length then behind.read
    else .error .malformed
termination_by l.cursor.rest.length

end Layout

/-- The tokens of a text. A byte-order mark at the start does not count. -/
def tokens (text : List Char) : Except Fault (List Token) :=
  if text.all allowedRanges.contains then
    let start : Cursor := ⟨text, 0, 0, 0⟩
    Layout.read { cursor := if start.sees (· = '\ufeff') then start.next else start }
  else .error .malformed

end Folio.Yaml
