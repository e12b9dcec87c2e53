import Folio.Markdown.Character
import Folio.Markdown.Token

/-!
# Delimiters of emphasis

Asterisks and underscores come in runs. A run may open emphasis, close it, or both, depending on the
characters on its two sides (`Flank.ofSides`). Closing delimiters are paired with the nearest opening
ones that fit (`paired`), and two pairs of which one lies directly within the other are one pair of
strong emphasis. Delimiters without a partner are plain text.
-/

set_option autoImplicit false
set_option relaxedAutoImplicit false

namespace Folio.Markdown

/-- Whether a run of delimiters may open or close emphasis. -/
structure Flank where
  opens : Bool
  closes : Bool
  deriving DecidableEq, Repr

/-- What a run between two characters may do. Within a word, only asterisks may open or close. -/
def Flank.ofSides (before after : Char) (withinWord : Bool) : Flank :=
  let gapBefore := isGap before
  let gapAfter := isGap after
  let markBefore := isPunctuation before
  let markAfter := isPunctuation after
  let left := !(gapAfter || (markAfter && !(gapBefore || markBefore)))
  let right := !(gapBefore || (markBefore && !(gapAfter || markAfter)))
  ⟨left && (withinWord || !right || markBefore), right && (withinWord || !left || markAfter)⟩

/-- One delimiter of a run: its character, the length of the run, its place among the pieces of the
text, what it may do, and the delimiter that closes the emphasis it opens. -/
structure Delimiter where
  mark : Char
  length : Nat
  place : Nat
  opens : Bool
  closes : Bool
  partner : Option Nat := none
  deriving Inhabited, Repr

/-- Whether two delimiters cannot be partners because one of their runs may both open and close and
the lengths of the runs add up to a multiple of three, without both being one. -/
def isOddMatch (opener closer : Delimiter) : Bool :=
  (opener.closes || closer.opens) && (opener.length + closer.length) % 3 = 0 &&
    (opener.length % 3 ≠ 0 || closer.length % 3 ≠ 0)

/-- How far the pairing has come: the delimiters; for each of them how many in front of it need not
be looked at; for each sort of closing delimiter the place below which there is no partner; the start
of the run that is being looked at; and the place of the delimiter before. -/
structure Pairing where
  delimiters : Array Delimiter
  jumps : Array Nat := #[]
  bottoms : List ((Char × Bool × Nat) × Nat) := []
  header : Nat := 0
  last : Option Nat := none

namespace Pairing

/-- The sort of a closing delimiter. -/
def sort (d : Delimiter) : Char × Bool × Nat := (d.mark, d.opens, d.length % 3)

/-- The nearest delimiter among the first `below` that can be the partner of a closing one. -/
def opener? (p : Pairing) (closer : Delimiter) (bottom below : Nat) : Option Nat :=
  if below ≤ bottom then none
  else
    let i := below - 1
    let o := p.delimiters.getD i default
    if o.mark = closer.mark && o.opens && o.partner.isNone && !isOddMatch o closer then some i
    else opener? p closer bottom (i - p.jumps.getD i 0)
termination_by below
decreasing_by omega

/-- The pairing after one more delimiter. -/
def next (p : Pairing) (i : Nat) : Pairing :=
  let closer := p.delimiters.getD i default
  let adjacent := (p.delimiters.getD p.header default).mark = closer.mark &&
    p.last.map (· + 1) = some closer.place
  let header := if adjacent then p.header else i
  let p := { p with jumps := p.jumps.push 0, header, last := some closer.place }
  if !closer.closes then p
  else
    let bottom := (p.bottoms.lookup (sort closer)).getD 0
    let start := header - p.jumps.getD header 0
    match p.opener? closer bottom start with
    | some o =>
      let skipped :=
        if 0 < o && !(p.delimiters.getD (o - 1) default).opens then p.jumps.getD (o - 1) 0 + 1 else 0
      { p with
        jumps := (p.jumps.setIfInBounds i (i - o + skipped)).setIfInBounds o skipped
        delimiters :=
          (p.delimiters.modify i fun d => { d with opens := false }).modify o fun d =>
            { d with partner := some i, closes := false }
        last := none }
    | none => if start = 0 then p else { p with bottoms := (sort closer, start) :: p.bottoms }

end Pairing

/-- Delimiters with the partners of those that open emphasis. -/
def paired (ds : Array Delimiter) : Array Delimiter :=
  ((List.range ds.size).foldl Pairing.next { delimiters := ds }).delimiters

/-- What becomes of a delimiter: it opens or closes emphasis, or is used up by the strong emphasis of
its neighbour. -/
inductive DelimiterUse
  | opening (strong : Bool)
  | closing (strong : Bool)
  | spent
  deriving DecidableEq, Repr

/-- Whether the delimiter before the `i`-th makes strong emphasis together with it. -/
def isStrong (ds : Array Delimiter) (i partner : Nat) : Bool :=
  0 < i &&
    let d := ds.getD i default
    let outer := ds.getD (i - 1) default
    outer.partner = some (partner + 1) && outer.mark = d.mark && outer.place + 1 = d.place &&
      (ds.getD (partner + 1) default).place = (ds.getD partner default).place + 1

/-- What becomes of the first `n` of paired delimiters and of their partners, by their places. -/
def uses (ds : Array Delimiter) : (n : Nat) → List (Nat × DelimiterUse)
  | 0 => []
  | n + 1 =>
    match (ds.getD n default).partner with
    | none => uses ds n
    | some partner =>
      let place := fun i => (ds.getD i default).place
      if isStrong ds n partner then
        (place n, .opening true) :: (place partner, .closing true) :: (place (n - 1), .spent) ::
          (place (partner + 1), .spent) :: uses ds (n - 1)
      else (place n, .opening false) :: (place partner, .closing false) :: uses ds n

/-- A piece of inline content: a token, or a delimiter of emphasis that may become one. -/
inductive Piece
  | token (t : Token)
  | delimiter (mark : Char) (length : Nat) (flank : Flank)

/-- The delimiters among pieces. -/
def delimitersOf (pieces : List Piece) : Array Delimiter :=
  (pieces.zipIdx.filterMap fun
    | (.delimiter mark length flank, place) =>
      some { mark, length, place, opens := flank.opens, closes := flank.closes }
    | (.token _, _) => none).toArray

/-- A token of plain text. -/
def textToken (content : String) : Token := { kind := .text, content }

/-- The token that a delimiter becomes. -/
def delimiterToken (mark : Char) : Option DelimiterUse → Token
  | some (.opening strong) => { kind := if strong then .strongOpen else .emphasisOpen }
  | some (.closing strong) => { kind := if strong then .strongClose else .emphasisClose }
  | some .spent => textToken ""
  | none => textToken (String.singleton mark)

/-- Tokens with neighbouring plain texts made one. -/
def joinTexts : List Token → List Token
  | [] => []
  | t :: ts =>
    match joinTexts ts with
    | next :: rest =>
      if t.kind = .text && next.kind = .text then textToken (t.content ++ next.content) :: rest
      else t :: next :: rest
    | [] => [t]

/-- Tokens in which escaped characters and character references are plain text. -/
def withoutSpecials (ts : List Token) : List Token :=
  joinTexts (ts.map fun t => if t.kind = .specialText then textToken t.content else t)

/-- The tokens that pieces of inline content become. -/
def resolve (pieces : List Piece) : List Token :=
  let ds := paired (delimitersOf pieces)
  let used := uses ds ds.size
  joinTexts (pieces.zipIdx.map fun
    | (.token t, _) => t
    | (.delimiter mark _ _, place) => delimiterToken mark (used.lookup place))

end Folio.Markdown
