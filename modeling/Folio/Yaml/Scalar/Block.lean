import Folio.Yaml.Cursor

/-!
# Block scalars

A block scalar is a header and the lines below it, without their common indentation. The header says
whether line breaks are kept or folded, which line breaks at the end stay, and how far the lines are
indented if that is not to be read off the first of them.
-/

set_option autoImplicit false
set_option relaxedAutoImplicit false

namespace Folio.Yaml.BlockScalar

/-- What stays of the line breaks at the end of a scalar. -/
inductive Ending
  | stripped
  | clipped
  | kept
  deriving DecidableEq, Repr

/-- What a header says: how the scalar ends, and the indentation if it is given. -/
structure Header where
  ending : Ending := .clipped
  indentation : Option Nat := none

/-- The ending that a sign asks for. -/
def ending? : List Char → Option Ending
  | '+' :: _ => some .kept
  | '-' :: _ => some .stripped
  | _ => none

/-- The indentation that a digit asks for. -/
def digit? : List Char → Option Nat
  | c :: _ => if isAsciiDigit c then some (c.toNat - 0x30) else none
  | [] => none

/-- The header at a place, and the place of the line below it. -/
def header (c : Cursor) : Except Fault (Header × Cursor) := do
  let early := ending? c.rest
  let c := if early.isSome then c.next else c
  let indentation := digit? c.rest
  let c := if indentation.isSome then c.next else c
  let late := if early.isSome || indentation.isNone then none else ending? c.rest
  let c := if late.isSome then c.next else c
  if indentation = some 0 || !endsWith (fun x => x = ' ' || isBreak x) c.rest then
    .error .malformed
  else
    let c ← c.skipLineEnd
    .ok (⟨(early.or late).getD .clipped, indentation⟩, c)

/-- The place behind the indentation of a line, which is at most so many columns. -/
def skipIndentation (indent : Nat) (c : Cursor) : Cursor :=
  c.skip (min (indent - c.column) (c.rest.takeWhile (· = ' ')).length)

/-- The line breaks of the empty lines at a place, and the place behind them and the indentation of
the next line. -/
def emptyLines (indent : Nat) (c : Cursor) : Except Fault (List Char × Cursor) := do
  let (lineBreaks, c) ← c.pieces fun c =>
    let c := skipIndentation indent c
    if c.sees isBreak then .ok (some c.lineBreak) else .ok none
  .ok (lineBreaks, skipIndentation indent c)

/-- The most spaces that stand next to each other. -/
def longestRun (cs : List Char) : Nat :=
  (cs.foldl (fun (run, longest) x =>
    if x = ' ' then (run + 1, max longest (run + 1)) else (0, longest)) ((0, 0) : Nat × Nat)).2

/-- The lines of a scalar: their text without the last line break, that line break, the line breaks
of the empty lines behind it, and the place behind all of them. -/
structure Lines where
  text : List Char
  last : List Char
  trailing : List Char
  behind : Cursor

/-- What stands between a line and the next that is not empty, apart from the empty lines. -/
def joint (folds : Bool) (line lineBreak empties next : List Char) : List Char :=
  let startsText := fun cs : List Char => !(cs.head?.map isSpacing).getD false
  if folds && lineBreak = ['\n'] && startsText line && startsText next then
    if empties.isEmpty then [' '] else []
  else lineBreak

/-- The lines from a place on, which is at their indentation. -/
def lines (folds : Bool) (indent : Nat) (c : Cursor) : Except Fault Lines :=
  let line := c.rest.takeWhile (!isBreak ·)
  let (lineBreak, behind) := (c.skip line.length).lineBreak
  match emptyLines indent behind with
  | .error fault => .error fault
  | .ok (empties, next) =>
    if next.column = indent && !next.rest.isEmpty then
      if _shorter : next.rest.length < c.rest.length then do
        let more ← lines folds indent next
        .ok { more with
          text := line ++ joint folds line lineBreak empties next.rest ++ empties ++ more.text }
      else .error .malformed
    else .ok ⟨line, lineBreak, empties, next⟩
termination_by c.rest.length

/-- The text of a block scalar, read from the place of its mark, and the place behind it. The lines
have to be indented at least to a column. -/
def read (folds : Bool) (least : Nat) (c : Cursor) : Except Fault (List Char × Cursor) := do
  let (header, c) ← header c.next
  let least := max least 1
  let blank := c.rest.takeWhile fun x => x = ' ' || isBreak x
  let indent := match header.indentation with
    | some width => least + width - 1
    | none => max least (longestRun blank)
  let (empties, c) ←
    if header.indentation.isSome then emptyLines indent c
    else .ok ((blank.filter isBreak).map fun x => if x = '\x85' then '\n' else x, c.skip blank.length)
  let found ←
    if c.column = indent && !c.rest.isEmpty then
      (lines folds indent c).map fun found => { found with text := empties ++ found.text }
    else .ok ⟨[], [], empties, c⟩
  .ok (found.text ++ (if header.ending = .stripped then [] else found.last) ++
    (if header.ending = .kept then found.trailing else []), found.behind)

end Folio.Yaml.BlockScalar
