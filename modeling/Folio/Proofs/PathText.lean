import Folio.Path.Home
import Mathlib.Data.List.Basic

/-!
# Paths and their texts

A path that a text spells (`PurePath.Spelled`) is read back from its own text
(`Spelled.ofString_toString`); putting in a home directory and going up keep that. Where a path has a
name, it is one step below its parent (`parts_eq_concat`), and the text of the parent is no longer
(`utf8ByteSize_parent_le`).
-/

set_option autoImplicit false
set_option relaxedAutoImplicit false

namespace Folio

/-! ### Joined names -/

theorem intercalate_eq_joinWith (sep : Char) (pieces : List (List Char)) :
    [sep].intercalate pieces = joinWith sep pieces := by
  induction pieces with
  | nil => rfl
  | cons piece pieces ih =>
    cases pieces with
    | nil => simp [joinWith]
    | cons next pieces => simp [joinWith, ← ih]

theorem toList_joined (names : List String) :
    (joined "/" names).toList = joinWith '/' (names.map String.toList) := by
  rw [joined, String.toList_intercalate, ← intercalate_eq_joinWith]
  rfl

/-- A text that is joined of names does not start with a slash. -/
theorem head?_joinWith_ne {first : String} (hempty : first.toList ≠ [])
    (hslash : '/' ∉ first.toList) (rest : List String) :
    (joinWith '/' ((first :: rest).map String.toList)).head? ≠ some '/' := by
  obtain ⟨c, cs, hcs⟩ := List.exists_cons_of_ne_nil hempty
  rw [hcs, List.mem_cons, not_or] at hslash
  have hfirst : c ≠ '/' := Ne.symm hslash.1
  cases rest <;> simp [joinWith, hcs, hfirst]

/-! ### Spelling -/

namespace PurePath

/-- A path that a text spells: its components are not empty nor single points, and hold no slash. -/
structure Spelled (p : PurePath) : Prop where
  slashes : p.slashes ≤ 2
  parts : ∀ part ∈ p.parts, part ≠ "" ∧ part ≠ "." ∧ '/' ∉ part.toList

theorem spelled_ofString (s : String) : (ofString s).Spelled where
  slashes := by
    simp only [ofString, leadingSlashes]
    split <;> omega
  parts part hpart := by
    obtain ⟨piece, hpiece, rfl⟩ := List.mem_map.mp hpart
    obtain ⟨hpiece, hkept⟩ := List.mem_filter.mp hpiece
    have hslash : '/' ∉ piece := fun h ↦ (mem_of_mem_splitOnChar hpiece _ h).2 rfl
    rw [Bool.and_eq_true] at hkept
    refine ⟨?_, ?_, by rwa [String.toList_ofList]⟩
    · rintro h
      obtain rfl : piece = [] := by simpa [← String.toList_inj] using h
      simp at hkept
    · rintro h
      obtain rfl : piece = ['.'] := by
        rw [← String.toList_inj, String.toList_ofList] at h
        exact h
      simp at hkept

variable {p : PurePath}

theorem Spelled.parent (h : p.Spelled) : p.parent.Spelled :=
  ⟨h.slashes, fun part hpart ↦ h.parts part (List.dropLast_subset _ hpart)⟩

/-- Putting in a home directory gives a path that a text spells. -/
theorem Spelled.expanded? (h : p.Spelled) {homes : Homes} {q : PurePath}
    (hq : p.expanded? homes = some q) : q.Spelled := by
  unfold PurePath.expanded? at hq
  split at hq
  · next first rest hslashes hparts =>
    split at hq
    · obtain ⟨home, hhome, rfl⟩ := Option.map_eq_some_iff.mp hq
      obtain ⟨text, -, htext⟩ := Option.bind_eq_some_iff.mp hhome
      have hspelled : home.Spelled := by
        unfold ofHome? at htext
        dsimp only at htext
        split at htext
        · cases htext
        · split at htext <;> cases htext
          · exact ⟨by decide, by simp⟩
          · exact spelled_ofString text
      refine ⟨hspelled.slashes, fun part hpart ↦ ?_⟩
      rcases List.mem_append.mp hpart with hpart | hpart
      · exact hspelled.parts part hpart
      · exact h.parts part (by rw [hparts]; exact List.mem_cons_of_mem first hpart)
    · cases hq
      exact h
  · cases hq
    exact h

theorem splitOnChar_slashes (n : Nat) (cs : List Char) :
    splitOnChar '/' (List.replicate n '/' ++ cs) = List.replicate n [] ++ splitOnChar '/' cs := by
  induction n with
  | zero => rfl
  | succ n ih => simp [List.replicate_succ, splitOnChar, ih]

/-- The text of components does not start with a slash. -/
theorem Spelled.head?_ne (h : p.Spelled) :
    (joinWith '/' (p.parts.map String.toList)).head? ≠ some '/' := by
  rcases hparts : p.parts with _ | ⟨first, rest⟩
  · simp [joinWith]
  · obtain ⟨hempty, -, hslash⟩ := h.parts first (by simp [hparts])
    exact head?_joinWith_ne (fun hnil ↦ hempty (String.toList_inj.mp hnil)) hslash rest

theorem leadingSlashes_replicate {n : Nat} (hn : n ≤ 2) {cs : List Char}
    (hcs : cs.head? ≠ some '/') : leadingSlashes (List.replicate n '/' ++ cs) = n := by
  have hrest : cs.takeWhile (· = '/') = [] := by
    cases cs with
    | nil => rfl
    | cons c cs => simpa [List.takeWhile_cons] using hcs
  have hcount : ((List.replicate n '/' ++ cs).takeWhile (· = '/')).length = n := by
    rw [List.takeWhile_append_of_pos (by simp), hrest]
    simp
  rw [leadingSlashes, hcount]
  obtain rfl | rfl | rfl : n = 0 ∨ n = 1 ∨ n = 2 := by omega
  all_goals rfl

/-- The components of a path are what stands between the slashes of their text. -/
theorem Spelled.filter_splitOnChar (h : p.Spelled) :
    (splitOnChar '/' (joinWith '/' (p.parts.map String.toList))).filter
      (fun piece ↦ !piece.isEmpty && piece != ['.']) = p.parts.map String.toList := by
  rcases hparts : p.parts with _ | ⟨first, rest⟩
  · rfl
  · rw [← hparts, splitOnChar_joinWith (by simp [hparts]), List.filter_eq_self]
    · intro piece hpiece
      obtain ⟨part, hpart, rfl⟩ := List.mem_map.mp hpiece
      obtain ⟨hempty, hpoint, -⟩ := h.parts part hpart
      have hpoint' : part.toList ≠ ['.'] := fun heq ↦ hpoint (String.toList_inj.mp heq)
      simp [hempty, hpoint']
    · intro piece hpiece
      obtain ⟨part, hpart, rfl⟩ := List.mem_map.mp hpiece
      exact (h.parts part hpart).2.2

/-- The text of a path is its slashes and its components, unless it is the point. -/
theorem toString_of_ne_point (h : ¬ (p.slashes = 0 ∧ p.parts = [])) :
    p.toString = String.ofList (List.replicate p.slashes '/') ++ joined "/" p.parts := by
  have hpoint : (p.slashes = 0 && p.parts.isEmpty) = false := by
    rw [Bool.eq_false_iff]
    simpa [List.isEmpty_iff] using h
  rw [PurePath.toString, hpoint, if_neg Bool.false_ne_true]

/-- The text of a path spells it. -/
theorem Spelled.ofString_toString (h : p.Spelled) : ofString p.toString = p := by
  by_cases hpoint : p.slashes = 0 ∧ p.parts = []
  · obtain ⟨slashes, parts⟩ := p
    obtain ⟨rfl, rfl⟩ : slashes = 0 ∧ parts = [] := hpoint
    rfl
  · rw [ofString, toString_of_ne_point hpoint, String.toList_append, String.toList_ofList,
      toList_joined, leadingSlashes_replicate h.slashes h.head?_ne, splitOnChar_slashes,
      List.filter_append, List.filter_replicate, if_neg (by simp), List.nil_append,
      h.filter_splitOnChar, List.map_map]
    simp

/-! ### Names -/

/-- The two parts of a name make it up. -/
theorem splitName_append (name : List Char) : (splitName name).1 ++ (splitName name).2 = name := by
  unfold splitName
  dsimp only
  split
  · exact List.take_append_drop _ name
  · exact List.append_nil name

theorem stem_append_suffix (p : PurePath) : p.stem ++ p.suffix = p.name := by
  rw [stem, suffix, ← String.ofList_append, splitName_append, String.ofList_toList]

/-- A path with a name is one step below its parent. -/
theorem parts_eq_concat {p : PurePath} (hname : p.name ≠ "") :
    p.parts = p.parent.parts ++ [p.name] := by
  obtain ⟨slashes, parts⟩ := p
  rcases List.eq_nil_or_concat parts with rfl | ⟨front, last, rfl⟩
  · exact absurd rfl hname
  · simp [PurePath.parent, PurePath.name]

/-! ### Lengths of paths -/

theorem utf8ByteSize_joined_dropLast_le (names : List String) :
    (joined "/" names.dropLast).utf8ByteSize ≤ (joined "/" names).utf8ByteSize := by
  induction names with
  | nil => exact Nat.le_refl _
  | cons name rest ih =>
    rcases rest with _ | ⟨next, rest⟩
    · exact Nat.zero_le _
    · rcases hdrop : (next :: rest).dropLast with _ | ⟨next', rest'⟩
      · rw [List.dropLast_cons_cons, hdrop, joined, joined, String.intercalate_cons_cons,
          String.utf8ByteSize_append, String.utf8ByteSize_append]
        simp [Nat.add_assoc]
      · rw [hdrop] at ih
        simp only [List.dropLast_cons_cons, hdrop, joined, String.intercalate_cons_cons,
          String.utf8ByteSize_append]
        exact Nat.add_le_add_left ih _

/-- The text of the path above is no longer, or it is a point. -/
theorem utf8ByteSize_parent_le (p : PurePath) :
    p.parent.toString.utf8ByteSize ≤ max 1 p.toString.utf8ByteSize := by
  by_cases hpoint : p.slashes = 0 ∧ p.parts.dropLast = []
  · have hparent : p.parent.toString = "." := by simp [toString, parent, hpoint]
    rw [hparent]
    exact Nat.le_max_left _ _
  · have hself : ¬ (p.slashes = 0 ∧ p.parts = []) :=
      fun ⟨hslashes, hparts⟩ ↦ hpoint ⟨hslashes, by simp [hparts]⟩
    refine Nat.le_trans ?_ (Nat.le_max_right 1 _)
    rw [toString_of_ne_point (p := p) hself, toString_of_ne_point (p := p.parent) hpoint,
      String.utf8ByteSize_append, String.utf8ByteSize_append]
    exact Nat.add_le_add_left (utf8ByteSize_joined_dropLast_le p.parts) _

end PurePath

end Folio
