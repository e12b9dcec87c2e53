import Folio.Url.Target
import Mathlib.Data.List.Infix
import Mathlib.Data.List.TakeWhile

/-!
# The one spelling of a link target

A separator of a link target has four spellings: a slash, a backslash, and a percent-encoded backslash
in either letter case (`separators`). Spelling every separator with a slash goes from the end of a text
to its start, one character at a time (`putChar`, `spelled_cons`), so it depends on nothing but what
the rest is spelled as: no spelling of a separator makes or breaks one in front of it. What comes out
has no other separators (`isPlain_spelled`), and is not changed again (`spelled_of_isPlain`). Blanks are
left where they are, so a text may be trimmed before or after (`spelled_trimChars`). `targets_spelled`
puts this together for the targets of links.
-/

set_option autoImplicit false
set_option relaxedAutoImplicit false

namespace Folio.Url

/-! ### Separators -/

/-- The percent-encoded backslashes. -/
def encodedBackslashes : List (List Char) := [['%', '5', 'c'], ['%', '5', 'C']]

/-- The spellings of a separator. -/
def separators : List (List Char) := ['/'] :: ['\\'] :: encodedBackslashes

/-- Two texts that differ in the spelling of some separators only. -/
inductive Respelled : List Char → List Char → Prop
  | nil : Respelled [] []
  | char (c : Char) {cs ds : List Char} (h : Respelled cs ds) : Respelled (c :: cs) (c :: ds)
  | separator {s t cs ds : List Char} (hs : s ∈ separators) (ht : t ∈ separators)
      (h : Respelled cs ds) : Respelled (s ++ cs) (t ++ ds)

/-- Whether a text has no separators but slashes. -/
structure IsPlain (cs : List Char) : Prop where
  backslash : '\\' ∉ cs
  encoded : ∀ s ∈ encodedBackslashes, ¬ s <:+: cs

/-- A text with every separator spelled as a slash. -/
def spelled (cs : List Char) : List Char := decodeBackslashes (slashed cs)

/-! ### Spelling from the end -/

/-- Whether a text goes on like a percent-encoded backslash behind its percent sign. -/
def endsEncoded : List Char → Bool
  | '5' :: c :: _ => c = 'c' || c = 'C'
  | _ => false

/-- A character in front of a text whose separators are spelled as slashes. -/
def putChar (c : Char) (cs : List Char) : List Char :=
  if c = '\\' then '/' :: cs
  else if c = '%' && endsEncoded cs then '/' :: cs.drop 2
  else c :: cs

/-- A text goes on like that exactly if its first characters are these. -/
theorem endsEncoded_iff {cs : List Char} :
    endsEncoded cs = true ↔ ∃ c rest, (c = 'c' ∨ c = 'C') ∧ cs = '5' :: c :: rest := by
  constructor
  · intro h
    unfold endsEncoded at h
    split at h
    · next c rest => exact ⟨c, rest, by simpa using h, rfl⟩
    · cases h
  · rintro ⟨c, rest, h, rfl⟩
    simpa [endsEncoded] using h

theorem decodeBackslashes_cons (c : Char) (cs : List Char) :
    decodeBackslashes (c :: cs) =
      if c = '%' && endsEncoded cs then '/' :: decodeBackslashes (cs.drop 2)
      else c :: decodeBackslashes cs := by
  rw [decodeBackslashes.eq_def]
  split
  · next d rest hcs =>
    cases hcs
    simp [endsEncoded]
  · next d rest hother hcs =>
    cases hcs
    have hplain : ¬ (c = '%' && endsEncoded cs) = true := by
      rw [Bool.and_eq_true, decide_eq_true_eq, endsEncoded_iff]
      rintro ⟨rfl, d, rest, -, rfl⟩
      exact hother d rest rfl rfl
    rw [if_neg hplain]
  · next hcs => cases hcs

/-- A character that comes out as neither a slash nor a percent sign was there before. -/
theorem exists_of_decodeBackslashes {cs ds : List Char} {c : Char} (hslash : c ≠ '/')
    (h : decodeBackslashes cs = c :: ds) :
    ∃ rest, cs = c :: rest ∧ decodeBackslashes rest = ds := by
  cases cs with
  | nil => cases h
  | cons d rest =>
    rw [decodeBackslashes_cons] at h
    split at h
    · exact absurd (List.cons.inj h).1.symm hslash
    · obtain ⟨rfl, hrest⟩ := List.cons.inj h
      exact ⟨rest, rfl, hrest⟩

/-- A text that goes on like a percent-encoded backslash does so when it is decoded, and the other way
round. -/
theorem endsEncoded_decodeBackslashes (cs : List Char) :
    endsEncoded (decodeBackslashes cs) = endsEncoded cs := by
  rw [Bool.eq_iff_iff]
  constructor
  · intro h
    obtain ⟨c, rest, hc, hfirst⟩ := endsEncoded_iff.mp h
    obtain ⟨ds, rfl, hsecond⟩ := exists_of_decodeBackslashes (by decide) hfirst
    obtain ⟨es, rfl, -⟩ := exists_of_decodeBackslashes (by rcases hc with rfl | rfl <;> decide) hsecond
    exact endsEncoded_iff.mpr ⟨c, es, hc, rfl⟩
  · intro h
    obtain ⟨c, rest, hc, rfl⟩ := endsEncoded_iff.mp h
    refine endsEncoded_iff.mpr ⟨c, decodeBackslashes rest, hc, ?_⟩
    rcases hc with rfl | rfl <;> simp [decodeBackslashes_cons]

/-- What is behind such a start is decoded by itself. -/
theorem drop_decodeBackslashes {cs : List Char} (h : endsEncoded cs = true) :
    (decodeBackslashes cs).drop 2 = decodeBackslashes (cs.drop 2) := by
  obtain ⟨c, rest, hc, rfl⟩ := endsEncoded_iff.mp h
  rcases hc with rfl | rfl <;> simp [decodeBackslashes_cons]

theorem spelled_cons (c : Char) (cs : List Char) : spelled (c :: cs) = putChar c (spelled cs) := by
  unfold spelled putChar
  rw [slashed, List.map_cons, ← slashed, decodeBackslashes_cons, endsEncoded_decodeBackslashes]
  by_cases hback : c = '\\'
  · simp [hback]
  · rw [if_neg hback, if_neg hback]
    split
    · next h => rw [drop_decodeBackslashes (Bool.and_eq_true_iff.mp h).2]
    · rfl

@[simp] theorem spelled_nil : spelled [] = [] := rfl

/-! ### Respelling -/

/-- Every spelling of a separator is spelled as a slash. -/
theorem spelled_separator_append {s : List Char} (hs : s ∈ separators) (cs : List Char) :
    spelled (s ++ cs) = '/' :: spelled cs := by
  have hcases : s = ['/'] ∨ s = ['\\'] ∨ s = ['%', '5', 'c'] ∨ s = ['%', '5', 'C'] := by
    simpa [separators, encodedBackslashes] using hs
  rcases hcases with rfl | rfl | rfl | rfl <;>
    simp [spelled_cons, putChar, endsEncoded]

/-- Texts that differ in the spelling of separators only are spelled the same. -/
theorem Respelled.spelled_eq {cs ds : List Char} (h : Respelled cs ds) :
    spelled cs = spelled ds := by
  induction h with
  | nil => rfl
  | char c _ ih => rw [spelled_cons, spelled_cons, ih]
  | separator hs ht _ ih => rw [spelled_separator_append hs, spelled_separator_append ht, ih]

/-! ### The normal form -/

/-- An encoded backslash stands at the start of a text exactly if the text starts with a percent sign
and goes on accordingly. -/
theorem exists_isPrefix_iff {c : Char} {cs : List Char} :
    (∃ s ∈ encodedBackslashes, s <+: c :: cs) ↔ c = '%' ∧ endsEncoded cs = true := by
  rw [endsEncoded_iff]
  constructor
  · rintro ⟨s, hs, rest, hrest⟩
    have hcases : s = ['%', '5', 'c'] ∨ s = ['%', '5', 'C'] := by simpa [encodedBackslashes] using hs
    rcases hcases with rfl | rfl
    · cases hrest
      exact ⟨rfl, 'c', rest, .inl rfl, rfl⟩
    · cases hrest
      exact ⟨rfl, 'C', rest, .inr rfl, rfl⟩
  · rintro ⟨rfl, d, rest, rfl | rfl, rfl⟩
    · exact ⟨['%', '5', 'c'], by simp [encodedBackslashes], rest, rfl⟩
    · exact ⟨['%', '5', 'C'], by simp [encodedBackslashes], rest, rfl⟩

theorem isPlain_nil : IsPlain [] :=
  ⟨List.not_mem_nil, by simp [encodedBackslashes]⟩

theorem isPlain_cons_iff {c : Char} {cs : List Char} :
    IsPlain (c :: cs) ↔ c ≠ '\\' ∧ ¬ (c = '%' ∧ endsEncoded cs = true) ∧ IsPlain cs := by
  rw [← exists_isPrefix_iff]
  constructor
  · rintro ⟨hback, hencoded⟩
    rw [List.mem_cons, not_or] at hback
    refine ⟨Ne.symm hback.1, ?_, hback.2, fun s hs h ↦ hencoded s hs (List.infix_cons h)⟩
    rintro ⟨s, hs, h⟩
    exact hencoded s hs h.isInfix
  · rintro ⟨hc, hstart, hback, hencoded⟩
    refine ⟨by simp [Ne.symm hc, hback], fun s hs h ↦ ?_⟩
    rcases List.infix_cons_iff.mp h with h | h
    · exact hstart ⟨s, hs, h⟩
    · exact hencoded s hs h

/-- A character in front of a plain text leaves a plain text. -/
theorem IsPlain.putChar {cs : List Char} (h : IsPlain cs) (c : Char) : IsPlain (putChar c cs) := by
  have hslash {ds : List Char} (hds : IsPlain ds) : IsPlain ('/' :: ds) :=
    isPlain_cons_iff.mpr ⟨by decide, by simp, hds⟩
  unfold Url.putChar
  split
  · exact hslash h
  · next hback =>
    split
    · next hencoded =>
      obtain ⟨d, rest, -, rfl⟩ := endsEncoded_iff.mp (Bool.and_eq_true_iff.mp hencoded).2
      exact hslash (isPlain_cons_iff.mp (isPlain_cons_iff.mp h).2.2).2.2
    · next hplain => exact isPlain_cons_iff.mpr ⟨hback, by simpa using hplain, h⟩

/-- No separators but slashes are left. -/
theorem isPlain_spelled (cs : List Char) : IsPlain (spelled cs) := by
  induction cs with
  | nil => exact isPlain_nil
  | cons c cs ih => rw [spelled_cons]; exact ih.putChar c

/-- A plain text is its own spelling. -/
theorem spelled_of_isPlain {cs : List Char} (h : IsPlain cs) : spelled cs = cs := by
  induction cs with
  | nil => rfl
  | cons c cs ih =>
    obtain ⟨hback, hencoded, hcs⟩ := isPlain_cons_iff.mp h
    have hplain : ¬ (c = '%' && endsEncoded cs) = true := by simpa using hencoded
    rw [spelled_cons, ih hcs, putChar, if_neg hback, if_neg hplain]

/-! ### Blanks -/

/-- A character stays at the start of a text unless it is blank and nothing but blanks follow. -/
theorem trimEnd_cons (c : Char) (cs : List Char) :
    trimEnd (c :: cs) = if isBlank c && (trimEnd cs).isEmpty then [] else c :: trimEnd cs := by
  rw [trimEnd, List.reverse_cons, List.dropWhile_append, trimEnd, List.isEmpty_reverse]
  by_cases hrest : (cs.reverse.dropWhile isBlank).isEmpty = true
  · rw [if_pos hrest, hrest, List.isEmpty_iff.mp hrest]
    cases hc : isBlank c <;> simp [hc]
  · rw [if_neg hrest]
    simp [hrest]

theorem trimEnd_cons_of_not_blank {c : Char} (h : isBlank c = false) (cs : List Char) :
    trimEnd (c :: cs) = c :: trimEnd cs := by
  rw [trimEnd_cons, h, Bool.false_and, if_neg Bool.false_ne_true]

/-- Blanks around a text are trimmed. -/
theorem trimChars_append_blanks {before after : List Char} (hbefore : before.all isBlank = true)
    (hafter : after.all isBlank = true) (cs : List Char) :
    trimChars (before ++ cs ++ after) = trimChars cs := by
  rw [List.all_eq_true] at hbefore hafter
  have hend (ds : List Char) : trimEnd (ds ++ after) = trimEnd ds := by
    rw [trimEnd, List.reverse_append, List.dropWhile_append_of_pos, ← trimEnd]
    exact fun c hc ↦ hafter c (List.mem_reverse.mp hc)
  rw [trimChars, trimStart, List.append_assoc, List.dropWhile_append_of_pos hbefore,
    List.dropWhile_append]
  split
  · next hempty =>
    rw [List.isEmpty_iff] at hempty
    rw [List.dropWhile_eq_nil_iff.mpr hafter, trimChars, trimStart, hempty]
  · rw [hend, trimChars, trimStart]

theorem ne_of_isBlank {c d : Char} (h : isBlank c = true) (hd : isBlank d = false) : c ≠ d := by
  rintro rfl
  rw [h] at hd
  cases hd

theorem putChar_of_isBlank {c : Char} (h : isBlank c = true) (cs : List Char) :
    putChar c cs = c :: cs := by
  have hback : c ≠ '\\' := ne_of_isBlank h (by decide)
  have hpercent : c ≠ '%' := ne_of_isBlank h (by decide)
  simp [putChar, hback, hpercent]

/-- A character that is not blank does not become so. -/
theorem isBlank_head_putChar {c d : Char} {cs : List Char} (hc : isBlank c = false)
    (h : (putChar c cs).head? = some d) : isBlank d = false := by
  have hslash : isBlank '/' = false := by decide
  unfold putChar at h
  split at h
  · cases h
    exact hslash
  · split at h
    · cases h
      exact hslash
    · cases h
      exact hc

/-- Without the blanks at its end a text goes on like a percent-encoded backslash if it did before. -/
theorem endsEncoded_trimEnd (cs : List Char) : endsEncoded (trimEnd cs) = endsEncoded cs := by
  rw [Bool.eq_iff_iff]
  constructor
  · intro h
    obtain ⟨c, rest, hc, hstart⟩ := endsEncoded_iff.mp h
    obtain ⟨blanks, hblanks⟩ := trimEnd_isPrefix cs
    exact endsEncoded_iff.mpr ⟨c, rest ++ blanks, hc, by rw [← hblanks, hstart]; rfl⟩
  · intro h
    obtain ⟨c, rest, hc, rfl⟩ := endsEncoded_iff.mp h
    have hblank : isBlank c = false := by rcases hc with rfl | rfl <;> decide
    rw [trimEnd_cons_of_not_blank (by decide), trimEnd_cons_of_not_blank hblank]
    exact endsEncoded_iff.mpr ⟨c, trimEnd rest, hc, rfl⟩

/-- A character that stays is put in front of a text before or after its end is trimmed. -/
theorem putChar_trimEnd {c : Char} {cs : List Char}
    (h : (isBlank c && (trimEnd cs).isEmpty) = false) :
    putChar c (trimEnd cs) = trimEnd (putChar c cs) := by
  have hslash (ds : List Char) : trimEnd ('/' :: ds) = '/' :: trimEnd ds :=
    trimEnd_cons_of_not_blank (by decide) ds
  unfold putChar
  rw [endsEncoded_trimEnd]
  split
  · rw [hslash]
  · split
    · next hencoded =>
      obtain ⟨d, rest, hd, rfl⟩ := endsEncoded_iff.mp (Bool.and_eq_true_iff.mp hencoded).2
      have hblank : isBlank d = false := by rcases hd with rfl | rfl <;> decide
      rw [trimEnd_cons_of_not_blank (by decide), trimEnd_cons_of_not_blank hblank, hslash]
      rfl
    · rw [trimEnd_cons, h, if_neg Bool.false_ne_true]

theorem spelled_trimStart (cs : List Char) : spelled (trimStart cs) = trimStart (spelled cs) := by
  induction cs with
  | nil => rfl
  | cons c cs ih =>
    by_cases hc : isBlank c = true
    · rw [spelled_cons, putChar_of_isBlank hc, trimStart, List.dropWhile_cons_of_pos hc,
        ← trimStart, ih, trimStart, trimStart, List.dropWhile_cons_of_pos hc]
    · rw [Bool.not_eq_true] at hc
      have hstart : trimStart (c :: cs) = c :: cs :=
        trimStart_of_head fun d hd ↦ by cases hd; exact hc
      rw [hstart, spelled_cons, trimStart_of_head fun d ↦ isBlank_head_putChar hc]

theorem isEmpty_spelled (cs : List Char) : (spelled cs).isEmpty = cs.isEmpty := by
  cases cs with
  | nil => rfl
  | cons c cs =>
    rw [spelled_cons, putChar]
    split
    · rfl
    · split <;> rfl

theorem spelled_trimEnd (cs : List Char) : spelled (trimEnd cs) = trimEnd (spelled cs) := by
  induction cs with
  | nil => rfl
  | cons c cs ih =>
    rw [trimEnd_cons, spelled_cons, ← isEmpty_spelled, ih]
    split
    · next h =>
      obtain ⟨hc, hrest⟩ := Bool.and_eq_true_iff.mp h
      rw [putChar_of_isBlank hc, trimEnd_cons, h, if_pos rfl, spelled_nil]
    · next h =>
      rw [Bool.not_eq_true] at h
      rw [spelled_cons, ih, putChar_trimEnd h]

/-- A text may be trimmed before or after its separators are spelled as slashes. -/
theorem spelled_trimChars (cs : List Char) : spelled (trimChars cs) = trimChars (spelled cs) := by
  rw [trimChars, spelled_trimEnd, spelled_trimStart, trimChars]

/-! ### Link targets -/

theorem toList_normalized (url : String) :
    (normalized url).toList = spelled (trimChars url.toList) := by
  rw [normalized, String.toList_ofList, spelled]

/-- What is spelled once is trimmed. -/
theorem trimChars_normalized (url : String) :
    trimChars (normalized url).toList = (normalized url).toList := by
  rw [toList_normalized, ← spelled_trimChars, trimChars_idem]

theorem isPlain_normalized (url : String) : IsPlain (normalized url).toList := by
  rw [toList_normalized]
  exact isPlain_spelled _

theorem normalized_idem (url : String) : normalized (normalized url) = normalized url := by
  rw [← String.toList_inj, toList_normalized, trimChars_normalized,
    spelled_of_isPlain (isPlain_normalized url)]

/-- Other spellings of its separators and blanks around it do not change how a link target is
spelled. -/
theorem normalized_eq_of_respelled {url : String} {before cs after : List Char}
    (hbefore : before.all isBlank = true) (hafter : after.all isBlank = true)
    (h : Respelled url.toList cs) :
    normalized (String.ofList (before ++ cs ++ after)) = normalized url := by
  rw [← String.toList_inj, toList_normalized, toList_normalized, String.toList_ofList,
    trimChars_append_blanks hbefore hafter, spelled_trimChars, spelled_trimChars, h.spelled_eq]

theorem normalized_placeholder : normalized placeholder = placeholder := by decide

theorem isSplittable_placeholder : isSplittable placeholder = true := by decide

/-- A target that is registered can be split into the parts of a URL. -/
theorem isSplittable_resolved (url : String) : isSplittable (resolved url) = true := by
  unfold resolved
  dsimp only
  split
  · assumption
  · exact isSplittable_placeholder

theorem resolved_idem (url : String) : resolved (resolved url) = resolved url := by
  have hsplittable := isSplittable_resolved url
  have hnormalized : normalized (resolved url) = resolved url := by
    unfold resolved
    dsimp only
    split
    · exact normalized_idem url
    · exact normalized_placeholder
  rw [resolved.eq_def (resolved url)]
  dsimp only
  rw [hnormalized, if_pos hsplittable]

/-- The spelling of a link target has no separators but slashes and no blanks around it, and is
spelled as itself. Link targets that differ in the spelling of separators and in blanks around them
are spelled the same and registered as one. A target that is registered can be split into the parts of
a URL, and is registered as itself. -/
theorem targets_spelled (url : String) :
    '\\' ∉ (normalized url).toList ∧
    (∀ s ∈ [['%', '5', 'c'], ['%', '5', 'C']], ¬ s <:+: (normalized url).toList) ∧
    trimmed (normalized url) = normalized url ∧
    normalized (normalized url) = normalized url ∧
    (∀ before cs after : List Char, before.all isBlank = true → after.all isBlank = true →
      Respelled url.toList cs →
        normalized (String.ofList (before ++ cs ++ after)) = normalized url ∧
        resolved (String.ofList (before ++ cs ++ after)) = resolved url) ∧
    isSplittable (resolved url) = true ∧
    resolved (resolved url) = resolved url := by
  obtain ⟨hback, hencoded⟩ := isPlain_normalized url
  refine ⟨hback, hencoded, ?_, normalized_idem url, fun before cs after hbefore hafter h ↦ ?_,
    isSplittable_resolved url, resolved_idem url⟩
  · rw [trimmed, trimChars_normalized, String.ofList_toList]
  · have hnormalized := normalized_eq_of_respelled hbefore hafter h
    refine ⟨hnormalized, ?_⟩
    unfold resolved
    rw [hnormalized]

/-- A path with a backslash, an encoded backslash and what looks like one. -/
theorem targets_spelled_mixedPath :
    Respelled "a\\b%5Cc%%5c5c".toList "a%5cb/c%\\5c".toList ∧
    normalized " \t a%5cb/c%\\5c\n" = "a/b/c%/5c" ∧
    resolved " \t a%5cb/c%\\5c\n" = resolved "a\\b%5Cc%%5c5c" := by
  have h : Respelled "a\\b%5Cc%%5c5c".toList "a%5cb/c%\\5c".toList :=
    .char 'a' (.separator (s := ['\\']) (t := ['%', '5', 'c']) (by decide) (by decide)
      (.char 'b' (.separator (s := ['%', '5', 'C']) (t := ['/']) (by decide) (by decide)
        (.char 'c' (.char '%' (.separator (s := ['%', '5', 'c']) (t := ['\\']) (by decide)
          (by decide) (.char '5' (.char 'c' .nil))))))))
  have hblanks := (targets_spelled "a\\b%5Cc%%5c5c").2.2.2.2.1 " \t ".toList _ "\n".toList
    (by decide) (by decide) h
  exact ⟨h, by decide, hblanks.2⟩

end Folio.Url
