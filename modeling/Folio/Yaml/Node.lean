import Folio.Yaml.Kind
import Folio.Yaml.Token

/-!
# Trees of a settings text

A text is read from its tokens into a tree whose leaves are scalars. An alias is replaced by the tree
that its anchor names; within that tree itself it stands for the collection around it. Each loop of
the grammar reads at least one token in a turn, so that a multiple of the number of tokens bounds the
depth of the calls.
-/

set_option autoImplicit false
set_option relaxedAutoImplicit false

namespace Folio.Yaml

/-- A tree. -/
inductive Node
  | scalar (kind : Kind) (text : String)
  | sequence (kind : Kind) (items : List Node)
  | mapping (kind : Kind) (entries : List (Node × Node))
  /-- The sequence or mapping around this place that an alias names. -/
  | enclosing (isMapping : Bool)
  deriving Inhabited

/-- The tree of a place where nothing is written. -/
def Node.empty : Node := .scalar .null ""

/-- What is left to read, the trees that anchors name, and what the handles of tags stand for. -/
structure Reading where
  tokens : List Token
  anchors : List (String × Node) := []
  handles : List (String × String) := []

/-- Reading a part of a text. -/
abbrev Reader := StateT Reading (Except Fault)

namespace Reader

/-- Stops with a malformed text. -/
def fail {α : Type} : Reader α := fun _ => .error .malformed

/-- The next token, which is not taken. -/
def peek : Reader (Option Token) := do return (← get).tokens.head?

/-- Takes the next token. -/
def drop : Reader Unit := modify fun r => { r with tokens := r.tokens.drop 1 }

/-- Takes the next token if it is a given one, and tells whether it is. -/
def take? (token : Token) : Reader Bool := do
  if (← peek) = some token then
    drop
    return true
  else return false

/-- Takes the next token, which has to be a given one. -/
def take (token : Token) : Reader Unit := do
  if !(← take? token) then fail

/-- Whether the next token is one of some. -/
def sees (ts : List Token) : Reader Bool := do return ((← peek).map ts.contains).getD false

/-- The anchor at a place. -/
def anchor? : Reader (Option String) := do
  match ← peek with
  | some (.anchor name) =>
    drop
    return some name
  | _ => return none

/-- The tag at a place. A handle has to be one that stands for something. -/
def tag? : Reader (Option String) := do
  match ← peek with
  | some (.tag text) =>
    drop
    match text.handle with
    | none => return some text.suffix
    | some handle =>
      match (← get).handles.lookup handle with
      | some start => return some (start ++ text.suffix)
      | none => fail
  | _ => return none

/-- The anchor and the tag at a place, in either order. -/
def properties : Reader (Option String × Option String) := do
  match ← anchor? with
  | some name => return (some name, ← tag?)
  | none =>
    let tag ← tag?
    return (← anchor?, tag)

/-- Lets an anchor name a tree. -/
def name (anchor : Option String) (node : Node) : Reader Unit :=
  match anchor with
  | none => return
  | some name => modify fun r => { r with anchors := (name, node) :: r.anchors }

/-- A tree that may have an anchor, which names the collection around it while it is read. -/
def named (anchor : Option String) (isMapping : Bool) (read : Reader Node) : Reader Node := do
  name anchor (.enclosing isMapping)
  let node ← read
  name anchor node
  return node

/-- Whether a tag says nothing about the kind of a value. -/
def isOpen (tag : Option String) : Bool := tag.all (· = "!")

/-- The kind that a tag gives, or another if it gives none. -/
def kindOr (tag : Option String) (other : Kind) : Kind :=
  if isOpen tag then other else (tag.map Kind.ofTag).getD other

/-- The kind of a scalar by its tag, its text, and whether it is plain. -/
def scalarKind (tag : Option String) (text : String) (plain : Bool) : Kind :=
  kindOr tag (if plain || tag.isSome then .ofText text else .text)

mutual

/-- A tree. Collections that are laid out by indentation stand only where `laidOut` allows them, and
entries without an indentation of their own where `entries` does. -/
def node : (fuel : Nat) → (laidOut entries : Bool) → Reader Node
  | 0, _, _ => fail
  | fuel + 1, laidOut, entries => do
    match ← peek with
    | some (.alias name) =>
      drop
      match (← get).anchors.lookup name with
      | some found => return found
      | none => fail
    | _ =>
      let (anchor, tag) ← properties
      let anchors := (← get).anchors
      if anchor.any fun name => (anchors.lookup name).isSome then fail
      else if entries && (← sees [.entry]) then
        named anchor false (return .sequence (kindOr tag .sequence) (← looseItems fuel))
      else
        match ← peek with
        | some (.scalar text plain) =>
          drop
          let found := Node.scalar (scalarKind tag text plain) text
          name anchor found
          return found
        | some .listOpen =>
          drop
          named anchor false (return .sequence (kindOr tag .sequence) (← listItems fuel true))
        | some .mapOpen =>
          drop
          named anchor true (return .mapping (kindOr tag .mapping) (← mapEntries fuel true))
        | token =>
          if laidOut && token = some .sequenceStart then
            drop
            named anchor false (return .sequence (kindOr tag .sequence) (← items fuel))
          else if laidOut && token = some .mappingStart then
            drop
            named anchor true (return .mapping (kindOr tag .mapping) (← keyedEntries fuel))
          else if anchor.isSome || tag.isSome then
            let found := Node.scalar (scalarKind tag "" true) ""
            name anchor found
            return found
          else fail

/-- A tree, or an empty one if one of some tokens follows. -/
def nodeUnless : (fuel : Nat) → (ends : List Token) → (laidOut entries : Bool) → Reader Node
  | 0, _, _, _ => fail
  | fuel + 1, ends, laidOut, entries => do
    if ← sees ends then return .empty else node fuel laidOut entries

/-- The items of a sequence that is laid out by indentation, and its end. -/
def items : (fuel : Nat) → Reader (List Node)
  | 0 => fail
  | fuel + 1 => do
    if ← take? .entry then
      let item ← nodeUnless fuel [.entry, .layoutEnd] true false
      return item :: (← items fuel)
    else
      take .layoutEnd
      return []

/-- The items of a sequence without an indentation of its own. -/
def looseItems : (fuel : Nat) → Reader (List Node)
  | 0 => fail
  | fuel + 1 => do
    if ← take? .entry then
      let item ← nodeUnless fuel [.entry, .key, .value, .layoutEnd] true false
      return item :: (← looseItems fuel)
    else return []

/-- The value behind a key, or an empty one if there is no colon. -/
def valueUnless : (fuel : Nat) → (ends : List Token) → (laidOut : Bool) → Reader Node
  | 0, _, _ => fail
  | fuel + 1, ends, laidOut => do
    if ← take? .value then nodeUnless fuel ends laidOut laidOut else return .empty

/-- The entries of a mapping that is laid out by indentation, and its end. -/
def keyedEntries : (fuel : Nat) → Reader (List (Node × Node))
  | 0 => fail
  | fuel + 1 => do
    if ← take? .key then
      let key ← nodeUnless fuel [.key, .value, .layoutEnd] true true
      let value ← valueUnless fuel [.key, .value, .layoutEnd] true
      return (key, value) :: (← keyedEntries fuel)
    else
      take .layoutEnd
      return []

/-- The items of a sequence between brackets, and the closing bracket. A key with its value is a
mapping of one entry. -/
def listItems : (fuel : Nat) → (first : Bool) → Reader (List Node)
  | 0, _ => fail
  | fuel + 1, first => do
    if ← take? .listClose then return []
    else
      if !first then take .comma
      if ← take? .key then
        let key ← nodeUnless fuel [.value, .comma, .listClose] false false
        let value ← valueUnless fuel [.comma, .listClose] false
        return .mapping .mapping [(key, value)] :: (← listItems fuel false)
      else if ← take? .listClose then return []
      else
        let item ← node fuel false false
        return item :: (← listItems fuel false)

/-- The entries of a mapping between brackets, and the closing bracket. A value without a colon is a
key. -/
def mapEntries : (fuel : Nat) → (first : Bool) → Reader (List (Node × Node))
  | 0, _ => fail
  | fuel + 1, first => do
    if ← take? .mapClose then return []
    else
      if !first then take .comma
      if ← take? .key then
        let key ← nodeUnless fuel [.value, .comma, .mapClose] false false
        let value ← valueUnless fuel [.comma, .mapClose] false
        return (key, value) :: (← mapEntries fuel false)
      else if ← take? .mapClose then return []
      else
        let key ← node fuel false false
        return (key, .empty) :: (← mapEntries fuel false)

end

/-- What the handles of tags stand for unless a directive says otherwise. -/
def standardHandles : List (String × String) := [("!", "!"), ("!!", Kind.tagStart)]

/-- What directives let handles stand for. There is at most one version, the first, and one meaning
of each handle. -/
def handleMeanings (directives : List Directive) : Except Fault (List (String × String)) :=
  let versions := directives.filterMap fun
    | .version major _ => some major
    | _ => none
  let handles := directives.filterMap fun
    | .handle handle start => some (handle, start)
    | _ => none
  if versions.length ≤ 1 && versions.all (· = 1) && decide (handles.map (·.1)).Nodup then
    .ok (handles ++ standardHandles)
  else .error .malformed

/-- The directives at the start of a text. -/
def leadingDirectives : List Token → List Directive
  | .directive content :: rest => content :: leadingDirectives rest
  | _ => []

/-- The tree of a document whose content comes next, if it has any. -/
def content (fuel : Nat) : Reader Node := do
  match ← peek with
  | none => return .empty
  | some .documentStart => return .empty
  | some .documentEnd => return .empty
  | some (.directive _) => return .empty
  | _ => node fuel true false

/-- The tree of a text, unless there is no document in it. -/
def document (fuel : Nat) : Reader (Option Node) := do
  match ← peek with
  | none => return none
  | token =>
    let directives := leadingDirectives (← get).tokens
    let found ←
      if token = some .documentStart || !directives.isEmpty then
        let handles ← handleMeanings directives
        modify fun r => { r with tokens := r.tokens.drop directives.length, handles }
        take .documentStart
        content fuel
      else node fuel true false
    if (← get).tokens.all (· = .documentEnd) then return some found else fail

end Reader

/-- The tree that tokens give, unless they hold no document. -/
def nodeOf (ts : List Token) : Except Fault (Option Node) :=
  ((Reader.document (4 * ts.length + 4)).run
    { tokens := ts, handles := Reader.standardHandles }).map (·.1)

end Folio.Yaml
