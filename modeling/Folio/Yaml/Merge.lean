import Folio.Yaml.Node

/-!
# Merging mappings

A merge is an entry of a mapping whose value is another mapping, or several, with entries to take
over. Merged entries stand before the mapping's own, so that its own entries win; among several
mappings the first wins.
-/

set_option autoImplicit false
set_option relaxedAutoImplicit false

namespace Folio.Yaml.Node

/-- Whether a key asks for a merge. -/
def isMerge : Node → Bool
  | scalar .merge _ => true
  | sequence .merge _ => true
  | mapping .merge _ => true
  | _ => false

/-- The entries of a mapping. A mapping that is to be merged into itself gives nothing new. -/
def entries? : Node → Option (List (Node × Node))
  | mapping _ entries => some entries
  | enclosing true => some []
  | _ => none

/-- The entries that a merge takes over, if its value allows it. -/
def mergedFrom? : Node → Option (List (Node × Node))
  | sequence _ items => (items.reverse.mapM entries?).map List.flatten
  | node => node.entries?

/-- The entries of a mapping with its merges replaced by what they take over. A merge that is not
possible stays alone. -/
def withMerges (entries : List (Node × Node)) : List (Node × Node) :=
  let (merges, own) := entries.partition fun e => e.1.isMerge
  match merges.mapM fun e => e.2.mergedFrom? with
  | some taken => taken.flatten ++ own
  | none => (merges.take 1)

mutual

/-- A tree in which no mapping has merges, apart from those that are not possible. -/
def merged : Node → Node
  | scalar kind text => scalar kind text
  | sequence kind items => sequence kind (mergedItems items)
  | mapping kind entries => mapping kind (withMerges (mergedEntries entries))
  | enclosing isMapping => enclosing isMapping

/-- Trees without merges. -/
def mergedItems : List Node → List Node
  | [] => []
  | node :: nodes => node.merged :: mergedItems nodes

/-- Entries whose keys and values are without merges. -/
def mergedEntries : List (Node × Node) → List (Node × Node)
  | [] => []
  | (key, value) :: entries => (key.merged, value.merged) :: mergedEntries entries

end

end Folio.Yaml.Node
