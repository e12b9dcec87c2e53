import Folio.Fetch.Kind
import Folio.Url.Target
import Mathlib.Data.List.TakeWhile
import Mathlib.Tactic.IntervalCases

/-!
# The path of a URL

Whether a URL can be split depends on its authority alone (`isSplittable_iff`), and the path is what
stands between the authority and the query or fragment (`urlPath_of_isSplittable`). A query or fragment
at the end leaves both as they are (`authorityOf_append`, `pathOf_append`). The case of letters
outside of the authority makes no difference to where the path starts and ends (`pathOf_map_toLower`),
and neither to the authority if the letters stand behind the start of the path (`authorityOf_congr`).
-/

set_option autoImplicit false
set_option relaxedAutoImplicit false

namespace Folio

/-! ### Cutting a text that goes on -/

section Cut

variable {p : Char → Bool}

/-- A text that is cut somewhere is cut there whatever follows. -/
theorem cutAt_append_of_any {cs : List Char} (h : cs.any p = true) (tail : List Char) :
    cutAt p (cs ++ tail) = ((cutAt p cs).1, (cutAt p cs).2 ++ tail) := by
  induction cs with
  | nil => cases h
  | cons c cs ih =>
    by_cases hc : p c = true
    · simp [cutAt, hc]
    · have hrest : cs.any p = true := by simpa [hc] using h
      have hcut := ih hrest
      simp only [cutAt, Prod.mk.injEq] at hcut
      simp [cutAt, hc, hcut]

/-- A text that is not cut is followed by the cut of what follows. -/
theorem cutAt_append_of_not_any {cs : List Char} (h : cs.any p = false) (tail : List Char) :
    cutAt p (cs ++ tail) = (cs ++ (cutAt p tail).1, (cutAt p tail).2) := by
  have hall (c : Char) (hc : c ∈ cs) : (!p c) = true := by
    simpa using List.any_eq_false.mp h c hc
  simp only [cutAt, List.takeWhile_append_of_pos hall, List.dropWhile_append_of_pos hall]

theorem cutAt_of_not_any {cs : List Char} (h : cs.any p = false) : cutAt p cs = (cs, []) := by
  simpa [cutAt] using cutAt_append_of_not_any h []

/-- The two parts of a cut are the text. -/
theorem cutAt_append_cutAt (cs : List Char) : (cutAt p cs).1 ++ (cutAt p cs).2 = cs :=
  List.takeWhile_append_dropWhile

/-- What is cut off starts with a character to cut at. -/
theorem of_cutAt_eq_cons {cs rest : List Char} {d : Char} (h : (cutAt p cs).2 = d :: rest) :
    p d = true := by
  have hhead := List.head?_dropWhile_not (fun c ↦ !p c) cs
  rw [show cs.dropWhile (fun c ↦ !p c) = d :: rest from h] at hhead
  simpa using hhead

theorem any_cutAt (cs : List Char) : (cutAt p cs).1.any p = false :=
  List.any_eq_false.mpr fun c hc ↦ by simpa using List.mem_takeWhile_imp hc

/-- A text followed by a character to cut at is cut there at the latest. -/
theorem cutAt_append_of_head {d : Char} (hd : p d = true) (cs tail : List Char) :
    cutAt p (cs ++ d :: tail) = ((cutAt p cs).1, (cutAt p cs).2 ++ d :: tail) := by
  by_cases h : cs.any p = true
  · exact cutAt_append_of_any h _
  · rw [Bool.not_eq_true] at h
    rw [cutAt_append_of_not_any h, cutAt_of_not_any h]
    simp [cutAt, hd]

theorem cutAt_map {f : Char → Char} (hf : ∀ c, p (f c) = p c) (cs : List Char) :
    cutAt p (cs.map f) = ((cutAt p cs).1.map f, (cutAt p cs).2.map f) := by
  have hcomp : (fun c ↦ !p c) ∘ f = fun c ↦ !p c := by
    funext c
    simp [hf]
  simp only [cutAt, List.takeWhile_map, List.dropWhile_map, hcomp]

end Cut

namespace Url

/-! ### Where a path stands -/

/-- Whether a character of a URL counts wherever it stands. -/
def isSignificant (c : Char) : Bool := c ≠ '\t' && c ≠ '\r' && c ≠ '\n'

/-- Whether a text can be the scheme of a URL. -/
def isScheme (cs : List Char) : Bool := (cs.head?.map isAsciiLetter).getD false && cs.all isSchemeChar

/-- What follows the scheme of a URL. -/
def behindScheme (cs : List Char) : List Char := (splitScheme cs).2

/-- Whether a character ends the authority of a URL. -/
def endsAuthority (c : Char) : Bool := c = '/' || c = '?' || c = '#'

/-- Whether a character ends the path of a URL. -/
def endsPath (c : Char) : Bool := c = '?' || c = '#'

/-- The authority of a URL, whether or not it is accepted. -/
def authorityOf (url : List Char) : List Char := (splitAuthority (behindScheme (significant url))).1

/-- The path of a URL, whether or not its authority is accepted. -/
def pathOf (url : List Char) : List Char :=
  (cutAt endsPath (splitAuthority (behindScheme (significant url))).2).1

/-- A path ends where the text in front of the fragment is cut at the query. -/
theorem cutAt_endsPath (cs : List Char) :
    (cutAt (· = '?') (cutAt (· = '#') cs).1).1 = (cutAt endsPath cs).1 := by
  simp only [cutAt, List.takeWhile_takeWhile]
  congr 1
  funext c
  simp [endsPath]

/-- A URL can be split exactly if there is nothing wrong with its authority. -/
theorem isSplittable_iff {url : String} :
    isSplittable url = true ↔ authorityFault? (authorityOf url.toList) = none := by
  unfold isSplittable split authorityOf behindScheme
  dsimp only
  split
  · next fault h => simp [h, Except.isOk, Except.toBool]
  · next h => simp [h, Except.isOk, Except.toBool]

theorem urlPath_of_isSplittable {url : String} (h : isSplittable url = true) :
    urlPath url = .ofString (String.ofList (pathOf url.toList)) := by
  rw [isSplittable_iff, authorityOf, behindScheme] at h
  unfold urlPath split pathOf behindScheme
  dsimp only
  rw [h]
  dsimp only
  rw [cutAt_endsPath]

/-! ### A query or fragment at the end -/

theorem significant_append {cs : List Char} (h : significant cs ≠ []) (tail : List Char) :
    significant (cs ++ tail) = significant cs ++ tail.filter isSignificant := by
  have hstart : (cs.dropWhile fun c ↦ c.toNat ≤ 0x20).isEmpty = false := by
    rw [← Bool.not_eq_true, List.isEmpty_iff]
    intro hnil
    exact h (by rw [significant, hnil, List.filter_nil])
  rw [significant, List.dropWhile_append, hstart, if_neg Bool.false_ne_true, List.filter_append]
  rfl

theorem eq_or_eq_of_endsPath {d : Char} (h : endsPath d = true) : d = '?' ∨ d = '#' := by
  simpa [endsPath] using h

theorem significant_append_of_endsPath {d : Char} (hd : endsPath d = true) (cs tail : List Char) :
    significant (cs ++ d :: tail) = significant cs ++ d :: tail.filter isSignificant := by
  have hkept : isSignificant d = true ∧ ¬ d.toNat ≤ 0x20 := by
    rcases eq_or_eq_of_endsPath hd with rfl | rfl <;> decide
  have htail : (d :: tail).filter isSignificant = d :: tail.filter isSignificant :=
    List.filter_cons_of_pos hkept.1
  rw [significant, List.dropWhile_append]
  split
  · next hempty =>
    rw [significant, List.isEmpty_iff.mp hempty, List.dropWhile_cons_of_neg (by simpa using hkept.2)]
    exact htail
  · rw [List.filter_append]
    exact congrArg (significant cs ++ ·) htail

theorem behindScheme_of_not_mem {cs : List Char} (h : ':' ∉ cs) : behindScheme cs = cs := by
  have hcut : cutAt (fun c ↦ decide (c = ':')) cs = (cs, []) :=
    cutAt_of_not_any (List.any_eq_false.mpr fun c hc ↦ by simpa using ne_of_mem_of_not_mem hc h)
  rw [behindScheme, splitScheme, hcut]

theorem behindScheme_append_cons {scheme : List Char} (h : ':' ∉ scheme) (rest : List Char) :
    behindScheme (scheme ++ ':' :: rest) =
      if isScheme scheme then rest else scheme ++ ':' :: rest := by
  have hcut : cutAt (fun c ↦ decide (c = ':')) (scheme ++ ':' :: rest) = (scheme, ':' :: rest) := by
    rw [cutAt_append_of_head (by decide), cutAt_of_not_any]
    · rfl
    · exact List.any_eq_false.mpr fun c hc ↦ by simpa using ne_of_mem_of_not_mem hc h
  rw [behindScheme, splitScheme, hcut]
  dsimp only
  rw [← isScheme]
  split <;> rfl

/-- What follows a colon is no part of the scheme. -/
theorem behindScheme_append_of_mem {cs : List Char} (h : ':' ∈ cs) (tail : List Char) :
    behindScheme (cs ++ tail) = behindScheme cs ++ tail := by
  obtain ⟨scheme, rest, rfl, hscheme⟩ := List.eq_append_cons_of_mem h
  rw [List.append_assoc, List.cons_append, behindScheme_append_cons hscheme,
    behindScheme_append_cons hscheme]
  split
  · rfl
  · rw [List.append_assoc, List.cons_append]

/-- A character that cannot stand in a scheme ends one that has not ended yet. -/
theorem behindScheme_append {d : Char} (hd : isSchemeChar d = false) (hcolon : d ≠ ':')
    (cs tail : List Char) : behindScheme (cs ++ d :: tail) = behindScheme cs ++ d :: tail := by
  by_cases h : ':' ∈ cs
  · exact behindScheme_append_of_mem h _
  · rw [behindScheme_of_not_mem h]
    by_cases htail : ':' ∈ tail
    · obtain ⟨more, rest, rfl, hmore⟩ := List.eq_append_cons_of_mem htail
      have hnone : ':' ∉ cs ++ d :: more := by simp [h, hmore, Ne.symm hcolon]
      have hno : isScheme (cs ++ d :: more) = false := by simp [isScheme, hd]
      have hwhole := behindScheme_append_cons hnone rest
      rw [hno, if_neg Bool.false_ne_true] at hwhole
      simpa using hwhole
    · exact behindScheme_of_not_mem (by simp [h, htail, Ne.symm hcolon])

theorem splitAuthority_slashes (rest : List Char) :
    splitAuthority ('/' :: '/' :: rest) = cutAt endsAuthority rest := rfl

theorem splitAuthority_of_ne {cs : List Char} (h : ∀ rest, cs ≠ '/' :: '/' :: rest) :
    splitAuthority cs = ([], cs) := by
  unfold splitAuthority
  split
  · next rest => exact absurd rfl (h rest)
  · rfl

theorem splitAuthority_append {d : Char} (hd : endsPath d = true) (cs tail : List Char) :
    splitAuthority (cs ++ d :: tail) =
      ((splitAuthority cs).1, (splitAuthority cs).2 ++ d :: tail) := by
  have hslash : d ≠ '/' := by rcases eq_or_eq_of_endsPath hd with rfl | rfl <;> decide
  by_cases h : ∃ rest, cs = '/' :: '/' :: rest
  · obtain ⟨rest, rfl⟩ := h
    have hends : endsAuthority d = true := by
      rcases eq_or_eq_of_endsPath hd with rfl | rfl <;> decide
    rw [List.cons_append, List.cons_append, splitAuthority_slashes, cutAt_append_of_head hends,
      splitAuthority_slashes]
  · have hcs (rest : List Char) : cs ≠ '/' :: '/' :: rest := fun hrest ↦ h ⟨rest, hrest⟩
    have happend (rest : List Char) : cs ++ d :: tail ≠ '/' :: '/' :: rest := by
      rcases cs with _ | ⟨c, _ | ⟨e, cs⟩⟩
      · simp [hslash]
      · simp [hslash]
      · simpa using fun hc he ↦ absurd (by rw [hc, he]) (hcs cs)
    rw [splitAuthority_of_ne hcs, splitAuthority_of_ne happend]

section Append

variable {d : Char} (hd : endsPath d = true) (url tail : List Char)

include hd

/-- The parts of a URL with a query or fragment behind it. -/
theorem splitAuthority_behindScheme_append :
    splitAuthority (behindScheme (significant (url ++ d :: tail))) =
      ((splitAuthority (behindScheme (significant url))).1,
        (splitAuthority (behindScheme (significant url))).2 ++
          d :: tail.filter isSignificant) := by
  have hscheme : isSchemeChar d = false ∧ d ≠ ':' := by
    rcases eq_or_eq_of_endsPath hd with rfl | rfl <;> decide
  rw [significant_append_of_endsPath hd, behindScheme_append hscheme.1 hscheme.2,
    splitAuthority_append hd]

/-- A query or fragment at the end is no part of the authority. -/
theorem authorityOf_append : authorityOf (url ++ d :: tail) = authorityOf url := by
  rw [authorityOf, splitAuthority_behindScheme_append hd, authorityOf]

/-- A query or fragment at the end is no part of the path. -/
theorem pathOf_append : pathOf (url ++ d :: tail) = pathOf url := by
  rw [pathOf, splitAuthority_behindScheme_append hd, cutAt_append_of_head hd, pathOf]

end Append

/-! ### Letter case -/

/-- The capital letters of ASCII. -/
def capitals : List Char := "ABCDEFGHIJKLMNOPQRSTUVWXYZ".toList

/-- Bringing a character to lower case changes the capitals only. -/
theorem toLower_eq_or_mem (c : Char) : c.toLower = c ∨ c ∈ capitals := by
  unfold Char.toLower
  split
  · next h =>
    right
    have hrange : 65 ≤ c.toNat ∧ c.toNat ≤ 90 := by
      simpa [UInt32.le_iff_toNat_le] using h
    rw [show c = Char.ofNat c.toNat from (Char.ofNat_toNat c).symm]
    obtain ⟨hlow, hhigh⟩ := hrange
    interval_cases c.toNat <;> decide
  · exact .inl rfl

/-- What a look at the capitals shows to be kept in lower case is kept for every character. -/
theorem apply_toLower {α : Type} [DecidableEq α] {p : Char → α}
    (h : (capitals.all fun c ↦ decide (p c.toLower = p c)) = true) (c : Char) :
    p c.toLower = p c := by
  rcases toLower_eq_or_mem c with hc | hc
  · rw [hc]
  · exact of_decide_eq_true (List.all_eq_true.mp h c hc)

/-- Two texts that differ in the case of letters of ASCII only. -/
def SameLetters (cs ds : List Char) : Prop := cs.map Char.toLower = ds.map Char.toLower

theorem toLower_eq_colon_iff (c : Char) : c.toLower = ':' ↔ c = ':' :=
  decide_eq_decide.mp (apply_toLower (p := fun c ↦ decide (c = ':')) (by decide) c)

theorem toLower_eq_slash_iff (c : Char) : c.toLower = '/' ↔ c = '/' :=
  decide_eq_decide.mp (apply_toLower (p := fun c ↦ decide (c = '/')) (by decide) c)

theorem toLower_colon : Char.toLower ':' = ':' := rfl

theorem colon_mem_map_toLower {cs : List Char} : ':' ∈ cs.map Char.toLower ↔ ':' ∈ cs := by
  simp [List.mem_map, toLower_eq_colon_iff]

theorem filter_map_toLower (cs : List Char) :
    (cs.map Char.toLower).filter isSignificant = (cs.filter isSignificant).map Char.toLower := by
  have hkept : isSignificant ∘ Char.toLower = isSignificant :=
    funext (apply_toLower (by decide))
  rw [List.filter_map, hkept]

theorem significant_map_toLower (cs : List Char) :
    significant (cs.map Char.toLower) = (significant cs).map Char.toLower := by
  have hcontrol : (fun c : Char ↦ decide (c.toNat ≤ 0x20)) ∘ Char.toLower =
      fun c ↦ decide (c.toNat ≤ 0x20) :=
    funext (apply_toLower (p := fun c ↦ decide (c.toNat ≤ 0x20)) (by decide))
  rw [significant, List.dropWhile_map, hcontrol]
  exact filter_map_toLower _

theorem isScheme_map_toLower (cs : List Char) : isScheme (cs.map Char.toLower) = isScheme cs := by
  have hletter : isAsciiLetter ∘ Char.toLower = isAsciiLetter :=
    funext (apply_toLower (by decide))
  have hchar : isSchemeChar ∘ Char.toLower = isSchemeChar :=
    funext (apply_toLower (by decide))
  rw [isScheme, List.head?_map, Option.map_map, List.all_map, hletter, hchar, isScheme]

theorem behindScheme_map_toLower (cs : List Char) :
    behindScheme (cs.map Char.toLower) = (behindScheme cs).map Char.toLower := by
  by_cases h : ':' ∈ cs
  · obtain ⟨scheme, rest, rfl, hscheme⟩ := List.eq_append_cons_of_mem h
    have hlower : ':' ∉ scheme.map Char.toLower := fun hmem ↦
      hscheme (colon_mem_map_toLower.mp hmem)
    rw [List.map_append, List.map_cons, toLower_colon,
      behindScheme_append_cons hlower, behindScheme_append_cons hscheme, isScheme_map_toLower]
    split <;> simp
  · have hlower : ':' ∉ cs.map Char.toLower := fun hmem ↦ h (colon_mem_map_toLower.mp hmem)
    rw [behindScheme_of_not_mem h, behindScheme_of_not_mem hlower]

theorem splitAuthority_map_toLower (cs : List Char) :
    splitAuthority (cs.map Char.toLower) =
      ((splitAuthority cs).1.map Char.toLower, (splitAuthority cs).2.map Char.toLower) := by
  by_cases h : ∃ rest, cs = '/' :: '/' :: rest
  · obtain ⟨rest, rfl⟩ := h
    have hends (c : Char) : endsAuthority c.toLower = endsAuthority c :=
      apply_toLower (by decide) c
    exact cutAt_map hends rest
  · have hcs (rest : List Char) : cs ≠ '/' :: '/' :: rest := fun hrest ↦ h ⟨rest, hrest⟩
    have hlower (rest : List Char) : cs.map Char.toLower ≠ '/' :: '/' :: rest := by
      intro hrest
      obtain ⟨c, ds, rfl, hc, hds⟩ := List.map_eq_cons_iff.mp hrest
      obtain ⟨d, es, rfl, hd, -⟩ := List.map_eq_cons_iff.mp hds
      rw [toLower_eq_slash_iff] at hc hd
      exact hcs es (by rw [hc, hd])
    rw [splitAuthority_of_ne hcs, splitAuthority_of_ne hlower, List.map_nil]

theorem pathOf_map_toLower (url : List Char) :
    pathOf (url.map Char.toLower) = (pathOf url).map Char.toLower := by
  have hends (c : Char) : endsPath c.toLower = endsPath c := apply_toLower (by decide) c
  rw [pathOf, significant_map_toLower, behindScheme_map_toLower, splitAuthority_map_toLower,
    cutAt_map hends, pathOf]

/-- The paths of URLs that differ in letter case differ in letter case. -/
theorem SameLetters.pathOf {u v : List Char} (h : SameLetters u v) :
    SameLetters (pathOf u) (pathOf v) := by
  rw [SameLetters, ← pathOf_map_toLower, ← pathOf_map_toLower, h]

/-! ### The authority in front of a path -/

/-- A stretch without slashes is no part of an authority that has ended or not begun, however it is
spelled. -/
theorem splitAuthority_congr {start ext ext' : List Char}
    (hstart : ∀ rest, start = '/' :: '/' :: rest → (splitAuthority start).2 ≠ [])
    (hext : '/' ∉ ext) (hext' : '/' ∉ ext') (hnil : ext = [] ↔ ext' = []) (back : List Char) :
    (splitAuthority (start ++ (ext ++ back))).1 = (splitAuthority (start ++ (ext' ++ back))).1 := by
  by_cases h : ∃ rest, start = '/' :: '/' :: rest
  · obtain ⟨rest, rfl⟩ := h
    have hany : rest.any endsAuthority = true := by
      rw [← Bool.not_eq_false]
      intro hnone
      exact hstart rest rfl (congrArg Prod.snd (cutAt_of_not_any hnone))
    have hcut (tail : List Char) : (splitAuthority ('/' :: '/' :: rest ++ tail)).1 =
        (cutAt endsAuthority rest).1 := by
      rw [List.cons_append, List.cons_append, splitAuthority_slashes, cutAt_append_of_any hany]
    rw [hcut, hcut]
  · have hnone {d : Char} {ds : List Char} (hd : '/' ∉ d :: ds) (rest : List Char) :
        start ++ (d :: ds ++ back) ≠ '/' :: '/' :: rest := by
      have hslash : d ≠ '/' := fun heq ↦ hd (by simp [heq])
      rcases start with _ | ⟨c, _ | ⟨e, start⟩⟩
      · simp [hslash]
      · simp [hslash]
      · simpa using fun hc he ↦ absurd ⟨start, by rw [hc, he]⟩ h
    rcases ext with _ | ⟨c, ext⟩
    · rw [hnil.mp rfl]
    · rcases ext' with _ | ⟨c', ext'⟩
      · cases hnil.mpr rfl
      · rw [splitAuthority_of_ne (hnone hext), splitAuthority_of_ne (hnone hext')]

theorem SameLetters.isScheme_append {cs ds : List Char} (h : SameLetters cs ds)
    (before after : List Char) :
    isScheme (before ++ (cs ++ after)) = isScheme (before ++ (ds ++ after)) := by
  rw [← isScheme_map_toLower, List.map_append, List.map_append, h, ← List.map_append,
    ← List.map_append, isScheme_map_toLower]

/-- A colon has no letter case. -/
theorem SameLetters.exists_of_append_colon {before after ds : List Char}
    (h : SameLetters (before ++ ':' :: after) ds) :
    ∃ before' after', ds = before' ++ ':' :: after' ∧ SameLetters before before' ∧
      SameLetters after after' := by
  rw [SameLetters, List.map_append, List.map_cons, toLower_colon] at h
  obtain ⟨before', rest, rfl, hbefore, hrest⟩ := List.map_eq_append_iff.mp h.symm
  obtain ⟨c, after', rfl, hc, hafter⟩ := List.map_eq_cons_iff.mp hrest
  rw [toLower_eq_colon_iff] at hc
  exact ⟨before', after', by rw [hc], hbefore.symm, hafter.symm⟩

theorem SameLetters.eq_nil_iff {cs ds : List Char} (h : SameLetters cs ds) :
    cs = [] ↔ ds = [] := by
  rw [← List.map_eq_nil_iff, h, List.map_eq_nil_iff]

theorem SameLetters.slash_not_mem {cs ds : List Char} (h : SameLetters cs ds) (hcs : '/' ∉ cs) :
    '/' ∉ ds := by
  have hmem {es : List Char} : '/' ∈ es.map Char.toLower ↔ '/' ∈ es := by
    simp [List.mem_map, toLower_eq_slash_iff]
  rwa [← hmem, ← h, hmem]

/-- A stretch without slashes in another letter case leaves the authority as it is, if what stands
in front of it goes on behind its authority. -/
theorem splitAuthority_behindScheme_congr {front ext ext' : List Char}
    (hfront : (splitAuthority (behindScheme front)).2 ≠ [])
    (hext : '/' ∉ ext) (h : SameLetters ext ext') (back : List Char) :
    (splitAuthority (behindScheme (front ++ (ext ++ back)))).1 =
      (splitAuthority (behindScheme (front ++ (ext' ++ back)))).1 := by
  have hext' := h.slash_not_mem hext
  by_cases hcolon : ':' ∈ front
  · rw [behindScheme_append_of_mem hcolon, behindScheme_append_of_mem hcolon]
    exact splitAuthority_congr (fun _ _ ↦ hfront) hext hext' h.eq_nil_iff back
  rw [behindScheme_of_not_mem hcolon] at hfront
  have hwhole := splitAuthority_congr (fun _ _ ↦ hfront) hext hext' h.eq_nil_iff back
  have hscheme {before : List Char} (hbefore : ':' ∉ before) (after : List Char) :
      behindScheme (front ++ (before ++ ':' :: after)) =
        if isScheme (front ++ before) then after else front ++ (before ++ ':' :: after) := by
    have hnone : ':' ∉ front ++ before := by simp [hcolon, hbefore]
    simpa using behindScheme_append_cons hnone after
  -- the first colon stands within the stretch, or behind it, or nowhere
  by_cases hwithin : ':' ∈ ext
  · obtain ⟨before, after, rfl, hbefore⟩ := List.eq_append_cons_of_mem hwithin
    obtain ⟨before', after', rfl, hsame, hafter⟩ := h.exists_of_append_colon
    have hbefore' : ':' ∉ before' := by
      rwa [← colon_mem_map_toLower, ← hsame, colon_mem_map_toLower]
    simp only [List.append_assoc, List.cons_append] at hwhole ⊢
    rw [hscheme hbefore, hscheme hbefore', ← List.append_nil before, hsame.isScheme_append,
      List.append_nil]
    split
    · simp only [List.mem_append, List.mem_cons, not_or] at hext hext'
      exact @splitAuthority_congr [] after after' (by simp) hext.2.2 hext'.2.2 hafter.eq_nil_iff back
    · simpa using hwhole
  · have hwithin' : ':' ∉ ext' := by
      rwa [← colon_mem_map_toLower, ← h, colon_mem_map_toLower]
    by_cases hback : ':' ∈ back
    · obtain ⟨before, after, rfl, hbefore⟩ := List.eq_append_cons_of_mem hback
      have hnone {es : List Char} (hes : ':' ∉ es) : ':' ∉ es ++ before := by simp [hes, hbefore]
      simp only [← List.append_assoc ext, ← List.append_assoc ext'] at hwhole ⊢
      rw [hscheme (hnone hwithin), hscheme (hnone hwithin'), h.isScheme_append]
      split
      · rfl
      · exact hwhole
    · have hnone {es : List Char} (hes : ':' ∉ es) : ':' ∉ front ++ (es ++ back) := by
        simp [hcolon, hes, hback]
      rw [behindScheme_of_not_mem (hnone hwithin), behindScheme_of_not_mem (hnone hwithin')]
      exact hwhole

/-- The authority of a URL is the same in whatever case letters are behind the start of its path. -/
theorem authorityOf_congr {front ext ext' : List Char} (hfront : pathOf front ≠ [])
    (hext : '/' ∉ ext) (h : SameLetters ext ext') (back : List Char) :
    authorityOf (front ++ (ext ++ back)) = authorityOf (front ++ (ext' ++ back)) := by
  have hbehind : (splitAuthority (behindScheme (significant front))).2 ≠ [] := by
    intro hnil
    rw [pathOf, hnil] at hfront
    exact hfront rfl
  have hsignificant : significant front ≠ [] := by
    intro hnil
    rw [hnil] at hbehind
    exact hbehind rfl
  have hkept : '/' ∉ ext.filter isSignificant := fun hmem ↦ hext (List.mem_filter.mp hmem).1
  have hsame : SameLetters (ext.filter isSignificant) (ext'.filter isSignificant) := by
    rw [SameLetters, ← filter_map_toLower, h, filter_map_toLower]
  rw [authorityOf, authorityOf, significant_append hsignificant, significant_append hsignificant,
    List.filter_append, List.filter_append]
  exact splitAuthority_behindScheme_congr hbehind hkept hsame _

/-! ### The start of a path -/

/-- What has no scheme has none however far it is read. -/
theorem behindScheme_of_append {cs ds : List Char} (h : behindScheme (cs ++ ds) = cs ++ ds) :
    behindScheme cs = cs := by
  by_cases hcolon : ':' ∈ cs
  · rw [behindScheme_append_of_mem hcolon] at h
    exact List.append_cancel_right h
  · exact behindScheme_of_not_mem hcolon

/-- What follows the scheme follows the same scheme however far it is read. -/
theorem exists_behindScheme {cs rest tail : List Char} (h : behindScheme cs = rest ++ tail) :
    ∃ scheme, cs = scheme ++ (rest ++ tail) ∧ behindScheme (scheme ++ rest) = rest := by
  have hnone (hcs : behindScheme cs = cs) :
      ∃ scheme, cs = scheme ++ (rest ++ tail) ∧ behindScheme (scheme ++ rest) = rest := by
    have heq : cs = rest ++ tail := hcs.symm.trans h
    exact ⟨[], heq, behindScheme_of_append (heq ▸ hcs)⟩
  by_cases hcolon : ':' ∈ cs
  · obtain ⟨scheme, behind, rfl, hscheme⟩ := List.eq_append_cons_of_mem hcolon
    by_cases hvalid : isScheme scheme = true
    · rw [behindScheme_append_cons hscheme, if_pos hvalid] at h
      refine ⟨scheme ++ [':'], by simp [h], ?_⟩
      rw [List.append_assoc, List.singleton_append, behindScheme_append_cons hscheme, if_pos hvalid]
    · exact hnone (by rw [behindScheme_append_cons hscheme, if_neg hvalid])
  · exact hnone (behindScheme_of_not_mem hcolon)

/-- What follows the authority follows the same authority however far it is read. -/
theorem exists_splitAuthority {cs rest tail : List Char} (hrest : rest ≠ [])
    (h : (splitAuthority cs).2 = rest ++ tail) :
    ∃ authority, cs = authority ++ (rest ++ tail) ∧ (splitAuthority (authority ++ rest)).2 = rest := by
  by_cases hslashes : ∃ behind, cs = '/' :: '/' :: behind
  · obtain ⟨behind, rfl⟩ := hslashes
    rw [splitAuthority_slashes] at h
    refine ⟨'/' :: '/' :: (cutAt endsAuthority behind).1, ?_, ?_⟩
    · rw [← h, List.cons_append, List.cons_append, cutAt_append_cutAt]
    · rcases rest with _ | ⟨d, rest⟩
      · exact absurd rfl hrest
      rw [List.cons_append, List.cons_append, splitAuthority_slashes,
        cutAt_append_of_head (of_cutAt_eq_cons h),
        cutAt_of_not_any (any_cutAt behind)]
      rfl
  · have hcs (behind : List Char) : cs ≠ '/' :: '/' :: behind := fun heq ↦ hslashes ⟨behind, heq⟩
    rw [splitAuthority_of_ne hcs] at h
    refine ⟨[], h, ?_⟩
    rw [List.nil_append, splitAuthority_of_ne]
    rintro behind rfl
    exact hcs (behind ++ tail) h

/-- A URL is cut anywhere behind the start of its path: the path of what is in front ends there. -/
theorem exists_front {url path tail : List Char} (hpath : path ≠ [])
    (h : pathOf url = path ++ tail) :
    ∃ front back rest, url = front ++ back ∧ pathOf front = path ∧
      back.filter isSignificant = tail ++ rest := by
  set behind := (splitAuthority (behindScheme (significant url))).2 with hbehind
  have hcut : behind = path ++ (tail ++ (cutAt endsPath behind).2) := by
    rw [← List.append_assoc, ← h, hbehind, pathOf, cutAt_append_cutAt]
  obtain ⟨authority, hauthority, hpathBehind⟩ := exists_splitAuthority hpath (hbehind.symm.trans hcut)
  obtain ⟨scheme, hscheme, hrest⟩ :=
    exists_behindScheme (hauthority.trans (List.append_assoc _ _ _).symm)
  -- the characters in front that do not count go with the first part
  set controls := url.takeWhile fun c ↦ decide (c.toNat ≤ 0x20)
  obtain ⟨first, back, hurl, hfirst, hback⟩ :=
    List.filter_eq_append_iff.mp ((hscheme.trans (List.append_assoc _ _ _).symm))
  refine ⟨controls ++ first, back, (cutAt endsPath behind).2, ?_, ?_, hback⟩
  · rw [List.append_assoc, ← hurl, List.takeWhile_append_dropWhile]
  · have hsignificant : significant (controls ++ first) = scheme ++ (authority ++ path) := by
      have hcontrols (c : Char) (hc : c ∈ controls) : decide (c.toNat ≤ 0x20) = true :=
        List.mem_takeWhile_imp (p := fun c : Char ↦ decide (c.toNat ≤ 0x20)) hc
      rcases first with _ | ⟨c, first⟩
      · simp [hpath] at hfirst
      have hstart := List.head?_dropWhile_not (fun c : Char ↦ decide (c.toNat ≤ 0x20)) url
      rw [hurl] at hstart
      rw [significant, List.dropWhile_append_of_pos hcontrols,
        List.dropWhile_cons_of_neg (by simpa using hstart)]
      exact hfirst
    have hplain : path.any endsPath = false := by
      have hall := any_cutAt (p := endsPath) behind
      rw [hbehind, ← pathOf, h, List.any_append, Bool.or_eq_false_iff] at hall
      exact hall.1
    rw [pathOf, hsignificant, hrest, hpathBehind, cutAt_of_not_any hplain]

end Url

end Folio
