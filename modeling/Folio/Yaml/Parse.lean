import Folio.Settings.Entries
import Folio.Yaml.Layout
import Folio.Yaml.Merge
import Folio.Yaml.Scalar.Convert

/-!
# The value of a settings text

The tree of a text is turned into a value from its root downwards: first the scalars of a collection,
then what is in the collections among its items. So of several faults the one nearest to the root
counts, and of those at one depth the first. `Outcome` keeps the depth of a fault for that.
-/

set_option autoImplicit false
set_option relaxedAutoImplicit false

namespace Folio.Yaml

/-- What turning a tree into a value gives; a fault comes with its depth. -/
abbrev Outcome := Except (Nat × Fault)

namespace Outcome

variable {α β γ : Type}

/-- The outcome of two parts. -/
def both (combine : α → β → γ) : Outcome α → Outcome β → Outcome γ
  | .ok x, .ok y => .ok (combine x y)
  | .error e, .ok _ => .error e
  | .ok _, .error e => .error e
  | .error e, .error f => .error (if e.1 ≤ f.1 then e else f)

/-- An outcome at a depth. -/
def atDepth (depth : Nat) : Except Fault α → Outcome α
  | .ok x => .ok x
  | .error fault => .error (depth, fault)

/-- A value that has to be a key at a depth. A collection is none, whatever is in it. -/
def asKey (depth : Nat) : Outcome Value → Outcome Value
  | .ok v => if v.key?.isSome then .ok v else .error (depth, .malformed)
  | .error e => .error (if e.1 = depth then e else (depth, .malformed))

end Outcome

namespace Node

/-- Whether a key asks for the text that a mapping has as a scalar. -/
def isDefault : Node → Bool
  | scalar .default _ => true
  | sequence .default _ => true
  | mapping .default _ => true
  | _ => false

mutual

/-- The text of a scalar, or of a mapping that gives itself a text. -/
def scalarText? : Node → Option String
  | scalar _ text => some text
  | mapping _ entries => defaultText? entries
  | sequence _ _ => none
  | enclosing _ => none

/-- The text of the first entry that gives a mapping a text. -/
def defaultText? : List (Node × Node) → Option String
  | [] => none
  | (key, value) :: entries => if key.isDefault then value.scalarText? else defaultText? entries

end

/-- The value of a tree that is to be a scalar of a kind. -/
def scalarOf (kind : Kind) (text : Option String) : Except Fault Value :=
  match text with
  | some text => scalarValue kind text
  | none => .error .malformed

/-- The kinds of collections; what is wrong in them shows one step deeper than the collection. -/
def isCollectionKind (kind : Kind) : Bool :=
  [Kind.sequence, .mapping, .set, .orderedMap, .pairs].contains kind

/-- The depth at which a tree turns out not to be of a kind. -/
def misfitDepth (depth : Nat) (kind : Kind) : Nat :=
  if isCollectionKind kind then depth + 1 else depth

mutual

/-- The value of a tree at a depth. -/
def value (depth : Nat) : Node → Outcome Value
  | scalar kind text => .atDepth (misfitDepth depth kind) (scalarValue kind text)
  | sequence kind items =>
    match kind with
    | .sequence => (itemValues (depth + 1) items).map .list
    | .orderedMap => (pairValues (depth + 1) items).map .list
    | .pairs => (pairValues (depth + 1) items).map .list
    | _ => .error (misfitDepth depth kind, .malformed)
  | mapping kind entries =>
    match kind with
    | .mapping => (entryValues (depth + 1) entries).map fun es => .map (Entries.ofList es)
    | .set => (entryValues (depth + 1) entries).map fun es => .set ((Entries.ofList es).map (·.1))
    | _ =>
      if isCollectionKind kind then .error (depth + 1, .malformed)
      else .atDepth depth (scalarOf kind (defaultText? entries))
  | enclosing isMapping => .ok (.enclosing isMapping)

/-- The values of items at a depth. -/
def itemValues (depth : Nat) : List Node → Outcome (List Value)
  | [] => .ok []
  | item :: items => .both List.cons (item.value depth) (itemValues depth items)

/-- The entries of a mapping at a depth. The key that gives a mapping a text is a text among others
here. -/
def entryValues (depth : Nat) : List (Node × Node) → Outcome (List (Value × Value))
  | [] => .ok []
  | (key, v) :: entries =>
    let key := match key with
      | scalar .default text => .ok (.text text)
      | key => .asKey depth (key.value depth)
    .both List.cons (.both Prod.mk key (v.value depth)) (entryValues depth entries)

/-- The pairs of items at a depth, each of which is a mapping with one entry. -/
def pairValues (depth : Nat) : List Node → Outcome (List Value)
  | [] => .ok []
  | .mapping _ [(key, v)] :: items =>
    .both List.cons (.both .pair (key.value depth) (v.value depth)) (pairValues depth items)
  | _ :: _ => .error (depth, .malformed)

end

end Node

/-- The value of a text. A text without a document has the value null. -/
def parse (text : List Char) : Except Fault Value := do
  match ← nodeOf (← tokens text) with
  | none => .ok .null
  | some node => (node.merged.value 0).mapError (·.2)

end Folio.Yaml
