/-!
# Cutting text

Splitting a list of characters at a separator, and looking for a sequence of characters in it. The
pieces of `splitOnChar` joined with the separator are the list again (`joinWith_splitOnChar`), and
pieces that are joined without holding it are told apart again (`splitOnChar_joinWith`).
-/

set_option autoImplicit false
set_option relaxedAutoImplicit false

namespace Folio

/-- The pieces between the occurrences of a separator, at least one. -/
def splitOnChar (sep : Char) : List Char → List (List Char)
  | [] => [[]]
  | c :: cs =>
    if c = sep then [] :: splitOnChar sep cs
    else
      match splitOnChar sep cs with
      | [] => [[c]]
      | piece :: pieces => (c :: piece) :: pieces

/-- The pieces of a list joined by a separator. -/
def joinWith (sep : Char) : List (List Char) → List Char
  | [] => []
  | [piece] => piece
  | piece :: pieces => piece ++ sep :: joinWith sep pieces

theorem splitOnChar_ne_nil (sep : Char) (cs : List Char) : splitOnChar sep cs ≠ [] := by
  cases cs with
  | nil => simp [splitOnChar]
  | cons c cs => unfold splitOnChar; split <;> (try split) <;> simp

/-- Joining the pieces with the separator gives the list back. -/
theorem joinWith_splitOnChar (sep : Char) (cs : List Char) :
    joinWith sep (splitOnChar sep cs) = cs := by
  induction cs with
  | nil => rfl
  | cons c cs ih =>
    unfold splitOnChar
    cases h : splitOnChar sep cs with
    | nil => exact absurd h (splitOnChar_ne_nil sep cs)
    | cons piece pieces =>
      rw [h] at ih
      split
      · next hc => simp [joinWith, ih, hc]
      · cases pieces with
        | nil => simpa [joinWith] using ih
        | cons p ps => simpa [joinWith] using ih

/-- A piece without the separator is split off at the separator behind it. -/
theorem splitOnChar_append_sep {sep : Char} {piece : List Char} (h : sep ∉ piece)
    (rest : List Char) : splitOnChar sep (piece ++ sep :: rest) = piece :: splitOnChar sep rest := by
  induction piece with
  | nil => simp [splitOnChar]
  | cons c cs ih =>
    rw [List.mem_cons, not_or] at h
    rw [List.cons_append, splitOnChar, if_neg (Ne.symm h.1), ih h.2]

/-- A list without the separator is one piece. -/
theorem splitOnChar_of_not_mem {sep : Char} {cs : List Char} (h : sep ∉ cs) :
    splitOnChar sep cs = [cs] := by
  induction cs with
  | nil => rfl
  | cons c cs ih =>
    rw [List.mem_cons, not_or] at h
    rw [splitOnChar, if_neg (Ne.symm h.1), ih h.2]

/-- Splitting gives back pieces that were joined, if they do not hold the separator. -/
theorem splitOnChar_joinWith {sep : Char} {pieces : List (List Char)} (hne : pieces ≠ [])
    (h : ∀ piece ∈ pieces, sep ∉ piece) : splitOnChar sep (joinWith sep pieces) = pieces := by
  induction pieces with
  | nil => exact absurd rfl hne
  | cons piece pieces ih =>
    obtain ⟨hpiece, hrest⟩ := List.forall_mem_cons.mp h
    cases pieces with
    | nil => exact splitOnChar_of_not_mem hpiece
    | cons next pieces =>
      rw [joinWith, splitOnChar_append_sep hpiece, ih (List.cons_ne_nil _ _) hrest]
      exact List.cons_ne_nil _ _

/-- The pieces of a list hold what the list holds, but not the separator. -/
theorem mem_of_mem_splitOnChar {sep : Char} {cs piece : List Char}
    (h : piece ∈ splitOnChar sep cs) : ∀ c ∈ piece, c ∈ cs ∧ c ≠ sep := by
  induction cs generalizing piece with
  | nil =>
    obtain rfl : piece = [] := by simpa [splitOnChar] using h
    simp
  | cons d ds ih =>
    rw [splitOnChar] at h
    split at h
    · rcases List.mem_cons.mp h with rfl | hrest
      · simp
      · exact fun c hc ↦ (ih hrest c hc).imp_left (List.mem_cons_of_mem d)
    · next hd =>
      split at h
      · next hnone => exact absurd hnone (splitOnChar_ne_nil sep ds)
      · next first rest hsplit =>
        rw [hsplit] at ih
        rcases List.mem_cons.mp h with rfl | hrest
        · intro c hc
          rcases List.mem_cons.mp hc with rfl | hc
          · exact ⟨List.mem_cons_self, hd⟩
          · exact (ih List.mem_cons_self c hc).imp_left (List.mem_cons_of_mem d)
        · exact fun c hc ↦
            (ih (List.mem_cons_of_mem first hrest) c hc).imp_left (List.mem_cons_of_mem d)

/-- The list cut at the first character that satisfies a test: what is before it, and the rest from
it on. -/
def cutAt (p : Char → Bool) (cs : List Char) : List Char × List Char :=
  (cs.takeWhile (!p ·), cs.dropWhile (!p ·))

/-- What is left of a list after a given start. -/
def afterStart? : (start : List Char) → List Char → Option (List Char)
  | [], cs => some cs
  | _ :: _, [] => none
  | s :: start, c :: cs => if s = c then afterStart? start cs else none

/-- Whether a sequence of characters stands somewhere in a list. -/
def holdsText (needle : List Char) : List Char → Bool
  | [] => needle.isEmpty
  | c :: cs => needle.isPrefixOf (c :: cs) || holdsText needle cs

/-- Whether a character stands in a text. -/
def holdsChar (s : String) (c : Char) : Bool := s.toList.contains c

/-- Text pieces joined by a separator. -/
def joined (sep : String) (pieces : List String) : String := sep.intercalate pieces

end Folio
