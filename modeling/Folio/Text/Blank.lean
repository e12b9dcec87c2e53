import Folio.Text.Range

/-!
# Blank characters and trimming

`Char.isBlank` is the class of characters that trimming removes: the characters with the Unicode
property White_Space together with the four information separators U+001C to U+001F.
`trimmed` removes them from both ends of a text. What it leaves neither starts nor ends with one
(`trimChars_head`, `trimChars_last`), and trimming twice is trimming once (`trimChars_idem`).
-/

set_option autoImplicit false
set_option relaxedAutoImplicit false

namespace Folio

/-- The code points that count as blank. -/
def blankRanges : Ranges :=
  [(0x9, 0xd), (0x1c, 0x20), (0x85, 0x85), (0xa0, 0xa0), (0x1680, 0x1680), (0x2000, 0x200a),
   (0x2028, 0x2029), (0x202f, 0x202f), (0x205f, 0x205f), (0x3000, 0x3000)]

/-- Whether a character is blank. -/
def isBlank (c : Char) : Bool := blankRanges.contains c

/-- A list of characters without the blank ones at its start. -/
def trimStart (cs : List Char) : List Char := cs.dropWhile isBlank

/-- A list of characters without the blank ones at its end. -/
def trimEnd (cs : List Char) : List Char := (cs.reverse.dropWhile isBlank).reverse

/-- A list of characters without the blank ones at either end. -/
def trimChars (cs : List Char) : List Char := trimEnd (trimStart cs)

/-- A text without the blank characters at either end. -/
def trimmed (s : String) : String := String.ofList (trimChars s.toList)

/-- Whether a text holds nothing but blank characters. -/
def isBlankText (s : String) : Bool := s.toList.all isBlank

@[simp] theorem trimStart_nil : trimStart [] = [] := rfl

@[simp] theorem trimEnd_nil : trimEnd [] = [] := rfl

@[simp] theorem trimChars_nil : trimChars [] = [] := rfl

@[simp] theorem toList_trimmed (s : String) : (trimmed s).toList = trimChars s.toList := by
  simp [trimmed]

/-! ### What trimming leaves -/

theorem trimStart_head {cs : List Char} {c : Char} (h : (trimStart cs).head? = some c) :
    isBlank c = false := by
  have hn := List.head?_dropWhile_not isBlank cs
  rw [trimStart] at h
  rw [h] at hn
  simpa using hn

theorem trimEnd_last {cs : List Char} {c : Char} (h : (trimEnd cs).getLast? = some c) :
    isBlank c = false := by
  rw [trimEnd, List.getLast?_reverse] at h
  exact trimStart_head h

/-- Trimming the end leaves the start of a list. -/
theorem trimEnd_isPrefix (cs : List Char) : trimEnd cs <+: cs := by
  have hs := List.reverse_prefix.2 (List.dropWhile_suffix (l := cs.reverse) isBlank)
  rwa [List.reverse_reverse] at hs

/-- A list that does not start with a blank character loses nothing at its start. -/
theorem trimStart_of_head {cs : List Char} (h : ∀ c, cs.head? = some c → isBlank c = false) :
    trimStart cs = cs := by
  cases cs with
  | nil => rfl
  | cons c cs => exact List.dropWhile_cons_of_neg (by simp [h c rfl])

/-- A list that does not end with a blank character loses nothing at its end. -/
theorem trimEnd_of_last {cs : List Char} (h : ∀ c, cs.getLast? = some c → isBlank c = false) :
    trimEnd cs = cs := by
  have hs : trimStart cs.reverse = cs.reverse :=
    trimStart_of_head fun c hc => h c (by rw [← hc, List.head?_reverse])
  rw [trimEnd, ← trimStart, hs, List.reverse_reverse]

/-- A trimmed list does not start with a blank character. -/
theorem trimChars_head {cs : List Char} {c : Char} (h : (trimChars cs).head? = some c) :
    isBlank c = false := by
  obtain ⟨rest, hr⟩ := trimEnd_isPrefix (trimStart cs)
  have hc : (trimStart cs).head? = some c := by
    rw [← hr, ← trimChars, List.head?_append, h]
    rfl
  exact trimStart_head hc

/-- A trimmed list does not end with a blank character. -/
theorem trimChars_last {cs : List Char} {c : Char} (h : (trimChars cs).getLast? = some c) :
    isBlank c = false :=
  trimEnd_last h

/-- Trimming twice is trimming once. -/
theorem trimChars_idem (cs : List Char) : trimChars (trimChars cs) = trimChars cs := by
  have hs : trimStart (trimChars cs) = trimChars cs := trimStart_of_head fun _ => trimChars_head
  have he : trimEnd (trimChars cs) = trimChars cs := trimEnd_of_last fun _ => trimChars_last
  rw [trimChars, hs, he]

end Folio
