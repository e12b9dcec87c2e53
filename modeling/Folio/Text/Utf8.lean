import Folio.Number.Power
import Folio.Text.Digit

/-!
# Reading UTF-8

The text that bytes stand for, or the first place where they stand for none. A character is a first
byte and as many continuation bytes as the first byte asks for; the first of them has a narrower
range behind some first bytes, so that no character has two spellings and surrogates have none.
-/

set_option autoImplicit false
set_option relaxedAutoImplicit false

namespace Folio

/-- Why bytes stand for no character. -/
inductive Utf8Cause
  | badStart
  | badContinuation
  | incomplete
  deriving DecidableEq, Repr

/-- Bytes that stand for no character: the first of them, its position, how many there are, and
why. -/
structure Utf8Fault where
  first : UInt8
  position : Nat
  length : Nat
  cause : Utf8Cause
  deriving DecidableEq, Repr

/-- The text that reports a cause. -/
def Utf8Cause.message : Utf8Cause → String
  | badStart => "invalid start byte"
  | badContinuation => "invalid continuation byte"
  | incomplete => "unexpected end of data"

/-- The text that reports bytes that stand for no character. -/
def Utf8Fault.message (fault : Utf8Fault) : String :=
  let place :=
    if fault.length = 1 then
      "byte 0x" ++ String.ofList (hexDigits 2 fault.first.toNat) ++ " in position " ++
        toString fault.position
    else
      "bytes in position " ++ toString fault.position ++ "-" ++
        toString (fault.position + fault.length - 1)
  "'utf-8' codec can't decode " ++ place ++ ": " ++ fault.cause.message

namespace Utf8

/-- How many bytes follow a first byte; none if no character starts with it. -/
def following? (first : Nat) : Option Nat :=
  if first < 0x80 then some 0
  else if first < 0xc2 then none
  else if first < 0xe0 then some 1
  else if first < 0xf0 then some 2
  else if first < 0xf5 then some 3
  else none

/-- The least and the greatest byte that may follow a first byte. -/
def secondRange (first : Nat) : Nat × Nat :=
  if first = 0xe0 then (0xa0, 0xbf)
  else if first = 0xed then (0x80, 0x9f)
  else if first = 0xf0 then (0x90, 0xbf)
  else if first = 0xf4 then (0x80, 0x8f)
  else (0x80, 0xbf)

/-- How many of the bytes behind a first byte fit it, counted from the first of them. -/
def fitting (first : Nat) : List UInt8 → Nat
  | [] => 0
  | second :: rest =>
    let (low, high) := secondRange first
    if low ≤ second.toNat && second.toNat ≤ high then
      1 + (rest.takeWhile fun b => b.toNat / 0x40 = 2).length
    else 0

/-- The character of a first byte and its continuation bytes. -/
def character (first : Nat) (continuation : List UInt8) : Char :=
  let n := continuation.length
  let lead := if n = 0 then first else first % twoTo (6 - n)
  Char.ofNat (continuation.foldl (fun v b => v * 0x40 + b.toNat % 0x40) lead)

/-- The characters that bytes stand for, behind characters that have been read already and are given
in reverse. -/
def decodeFrom (read : List Char) (position : Nat) : List UInt8 → Except Utf8Fault (List Char)
  | [] => .ok read.reverse
  | first :: rest =>
    match following? first.toNat with
    | none => .error ⟨first, position, 1, .badStart⟩
    | some n =>
      let fit := fitting first.toNat (rest.take n)
      if fit = n then
        decodeFrom (character first.toNat (rest.take n) :: read) (position + n + 1) (rest.drop n)
      else
        .error ⟨first, position, fit + 1,
          if rest.length = fit then .incomplete else .badContinuation⟩
termination_by bytes => bytes.length
decreasing_by simp only [List.length_drop, List.length_cons]; omega

end Utf8

/-- The text that bytes stand for. -/
def readUtf8 (bytes : List UInt8) : Except Utf8Fault (List Char) := Utf8.decodeFrom [] 0 bytes

/-- A text with every line ending brought to a line feed. -/
def withLineFeeds : List Char → List Char
  | [] => []
  | '\r' :: '\n' :: cs => '\n' :: withLineFeeds cs
  | '\r' :: cs => '\n' :: withLineFeeds cs
  | c :: cs => c :: withLineFeeds cs

end Folio
