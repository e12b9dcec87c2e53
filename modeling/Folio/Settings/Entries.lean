import Folio.Settings.Value

/-!
# Mappings

A mapping is a list of entries in which each key occurs once. Two keys are the same if they have the
same `Value.key?`: numbers are compared by what they are worth and not by their kind, so that one and
true are the same key. Collections cannot be keys.
-/

set_option autoImplicit false
set_option relaxedAutoImplicit false

namespace Folio

/-- What makes two keys the same. A number is a fraction in lowest terms. -/
inductive Key
  | null
  | number (value : Int × Nat)
  | infinite (negative : Bool)
  | nan
  | text (s : String)
  | bytes (content : List UInt8)
  | date (day : Day)
  | moment (time : Moment)
  deriving DecidableEq, Repr

/-- A number times a power of two as a fraction in lowest terms. -/
def lowestTerms (n : Int) (e : Int) : Int × Nat :=
  let r := Binary64.shifted n.natAbs 1 e
  let g := Nat.gcd r.1 r.2
  (if n < 0 then -((r.1 / g : Nat) : Int) else (r.1 / g : Nat), r.2 / g)

namespace Value

/-- The exact value of a finite number. -/
def fraction? : Value → Option (Int × Nat)
  | bool b => some (lowestTerms b.toNat 0)
  | int n => some (lowestTerms n 0)
  | float (.finite negative m e) => some (lowestTerms (if negative then -(m : Int) else m) e)
  | _ => none

/-- What a value is as a key; nothing for a value that cannot be one. -/
def key? : Value → Option Key
  | null => some .null
  | text s => some (.text s)
  | bytes content => some (.bytes content)
  | date day => some (.date day)
  | moment time => some (.moment time)
  | float .nan => some .nan
  | float (.infinite negative) => some (.infinite negative)
  | v => v.fraction?.map .number

/-- Whether two values are the same key. -/
def isSameKey (v w : Value) : Bool := v.key?.isSome && decide (v.key? = w.key?)

end Value

/-- Keys with values, each key once. -/
abbrev Entries := List (Value × Value)

namespace Entries

/-- A mapping with one more entry; a key that is there keeps its place. -/
def put (entries : Entries) (key value : Value) : Entries :=
  if entries.any fun e => e.1.isSameKey key then
    entries.map fun e => if e.1.isSameKey key then (e.1, value) else e
  else entries ++ [(key, value)]

/-- The mapping of a list in which keys may be repeated; the last value of a key counts. -/
def ofList (entries : List (Value × Value)) : Entries :=
  entries.foldl (fun es e => es.put e.1 e.2) []

end Entries

end Folio
