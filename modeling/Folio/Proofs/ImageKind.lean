import Folio.Proofs.UrlPath

/-!
# How the kind of an image is told

The kind of an image is that which the suffix of its URL names (`suffixKind?`), or else that which its
media type names, or else JPEG (`imageKind_eq`). The suffix is that of the last component of the path,
so nothing behind the path counts, and it is read in lower case, so the case of its letters does not
count (`suffixKind?_of_isExtension`). `image_kinds_told` puts this together.
-/

set_option autoImplicit false
set_option relaxedAutoImplicit false

namespace Folio

open Url

/-! ### Suffixes and letter case -/

/-- The components of a path. -/
def pathParts (path : List Char) : List (List Char) :=
  (splitOnChar '/' path).filter fun p ↦ !p.isEmpty && p != ['.']

theorem toList_name_ofString (path : List Char) :
    (PurePath.ofString (String.ofList path)).name.toList = (pathParts path).getLast?.getD [] := by
  rw [PurePath.name, PurePath.ofString, String.toList_ofList, ← pathParts, List.getLast?_map]
  rcases (pathParts path).getLast? with _ | last <;> simp

theorem toList_suffix_ofString (path : List Char) :
    (PurePath.ofString (String.ofList path)).suffix.toList =
      (PurePath.splitName ((pathParts path).getLast?.getD [])).2 := by
  rw [PurePath.suffix, toList_name_ofString, String.toList_ofList]

theorem splitOnChar_map_toLower (cs : List Char) :
    splitOnChar '/' (cs.map Char.toLower) = (splitOnChar '/' cs).map (List.map Char.toLower) := by
  induction cs with
  | nil => rfl
  | cons c cs ih =>
    rw [List.map_cons, splitOnChar, splitOnChar, ih]
    by_cases hc : c = '/'
    · subst hc
      rfl
    · rw [if_neg hc, if_neg (mt (toLower_eq_slash_iff c).mp hc)]
      rcases splitOnChar '/' cs with _ | ⟨piece, pieces⟩ <;> rfl

theorem toLower_eq_point_iff (c : Char) : c.toLower = '.' ↔ c = '.' :=
  decide_eq_decide.mp (apply_toLower (p := fun c ↦ decide (c = '.')) (by decide) c)

theorem pathParts_map_toLower (path : List Char) :
    pathParts (path.map Char.toLower) = (pathParts path).map (List.map Char.toLower) := by
  have hkept : (fun p : List Char ↦ !p.isEmpty && p != ['.']) ∘ List.map Char.toLower =
      fun p ↦ !p.isEmpty && p != ['.'] := by
    funext p
    rcases p with _ | ⟨c, _ | ⟨d, p⟩⟩
    · rfl
    · simp [bne, toLower_eq_point_iff]
    · simp [bne]
  rw [pathParts, splitOnChar_map_toLower, List.filter_map, hkept, pathParts]

/-- A name has its suffix in whatever case its letters are. -/
theorem splitName_map_toLower (name : List Char) :
    (PurePath.splitName (name.map Char.toLower)).2 =
      (PurePath.splitName name).2.map Char.toLower := by
  have hpoint : (fun c ↦ decide (c ≠ '.')) ∘ Char.toLower = fun c ↦ decide (c ≠ '.') := by
    funext c
    simp [toLower_eq_point_iff]
  simp only [PurePath.splitName, ← List.map_reverse, List.takeWhile_map, hpoint, List.length_map,
    ne_eq, List.map_eq_nil_iff]
  split
  · rw [List.map_drop]
  · rfl

theorem splitName_suffix_getLast? (parts : List (List Char)) :
    (PurePath.splitName ((parts.map (List.map Char.toLower)).getLast?.getD [])).2 =
      (PurePath.splitName (parts.getLast?.getD [])).2.map Char.toLower := by
  rw [List.getLast?_map]
  rcases parts.getLast? with _ | last
  · rfl
  · exact splitName_map_toLower last

/-- The suffixes of two paths that differ in letter case are the same in lower case. -/
theorem lowered_suffix_of_sameLetters {path path' : List Char} (h : SameLetters path path') :
    lowered (PurePath.ofString (String.ofList path)).suffix =
      lowered (PurePath.ofString (String.ofList path')).suffix := by
  have hlowered (cs : List Char) : lowered (PurePath.ofString (String.ofList cs)).suffix =
      String.ofList ((PurePath.splitName
        ((pathParts (cs.map Char.toLower)).getLast?.getD [])).2.map lowerChar) := by
    have hlower : lowerChar ∘ Char.toLower = lowerChar := funext (apply_toLower (by decide))
    rw [lowered, toList_suffix_ofString, pathParts_map_toLower, splitName_suffix_getLast?,
      List.map_map, hlower]
  rw [hlowered, hlowered, h]

/-! ### The kind that a suffix names -/

/-- The kind that the suffix of a URL names. -/
def suffixKind? (url : String) : Option ImageKind :=
  ImageKind.ofSuffix? (lowered (urlPath url).suffix)

/-- The part of a media type that counts: what stands in front of the first semicolon, trimmed and in
lower case. -/
def essence (mediaType : String) : String :=
  lowered (String.ofList (trimChars (mediaType.toList.takeWhile (· ≠ ';'))))

theorem imageKind_eq (url : String) (mediaType : Option String) :
    imageKind url mediaType =
      (suffixKind? url).getD ((mediaType.bind ImageKind.ofMediaType?).getD .jpeg) := by
  rw [imageKind, Option.getD_or, suffixKind?]

namespace ImageKind

theorem mediaType_injective {k l : ImageKind} (h : k.mediaType = l.mediaType) : k = l := by
  revert h
  cases k <;> cases l <;> decide

/-- A media type names the kind whose media type is the part of it that counts. -/
theorem ofMediaType?_eq_some_iff {mediaType : String} {kind : ImageKind} :
    ofMediaType? mediaType = some kind ↔ essence mediaType = kind.mediaType := by
  have hfind : ofMediaType? mediaType =
      all.find? fun k ↦ decide (k.mediaType = essence mediaType) := rfl
  rw [hfind]
  constructor
  · intro h
    have hfound := List.find?_some h
    exact (decide_eq_true_iff.mp hfound).symm
  · intro h
    have hnames (k : ImageKind) : decide (k.mediaType = essence mediaType) = decide (k = kind) := by
      rw [h]
      exact decide_eq_decide.mpr ⟨mediaType_injective, congrArg _⟩
    simp only [hnames]
    cases kind <;> rfl

end ImageKind

/-- A query or a fragment does not count. -/
theorem suffixKind?_append {url : String} (h : isSplittable url = true) {d : Char}
    (hd : endsPath d = true) (tail : List Char) :
    suffixKind? (String.ofList (url.toList ++ d :: tail)) = suffixKind? url := by
  have hsplittable : isSplittable (String.ofList (url.toList ++ d :: tail)) = true := by
    rwa [isSplittable_iff, String.toList_ofList, authorityOf_append hd, ← isSplittable_iff]
  rw [suffixKind?, urlPath_of_isSplittable hsplittable, String.toList_ofList, pathOf_append hd,
    ← urlPath_of_isSplittable h, suffixKind?]

/-! ### The letter case of an extension -/

/-- How a URL is put together around its extension: the path has begun in front of it, what follows it
in the path adds no component, and its characters, without those that never count, are the suffix of
the path. -/
structure IsExtension (url : String) (front ext back : List Char) : Prop where
  url_eq : url.toList = front ++ (ext ++ back)
  begun : pathOf front ≠ []
  path_eq : ∃ rest, pathOf url.toList = pathOf front ++ (ext.filter isSignificant ++ rest) ∧
    pathParts rest = []
  suffix_eq : ext.filter isSignificant = (urlPath url).suffix.toList

/-- A suffix that is not empty follows a stem that is not empty. -/
theorem exists_stem {name : List Char} (h : (PurePath.splitName name).2 ≠ []) :
    ∃ stem, stem ≠ [] ∧ name = stem ++ (PurePath.splitName name).2 := by
  unfold PurePath.splitName at h ⊢
  dsimp only at h ⊢
  split at h
  · next hsplit =>
    simp only [Bool.and_eq_true, decide_eq_true_eq] at hsplit
    rw [if_pos (by simpa using hsplit)]
    refine ⟨name.take _, ?_, (List.take_append_drop _ name).symm⟩
    intro hnil
    rcases List.take_eq_nil_iff.mp hnil with hzero | hempty
    · exact hsplit.2 hzero
    · simp [hempty] at hsplit
  · exact absurd rfl h

/-- Pieces joined with others behind them end as the others do. -/
theorem exists_joinWith_append (sep : Char) (pieces : List (List Char)) {others : List (List Char)}
    (h : others ≠ []) :
    ∃ before, joinWith sep (pieces ++ others) = before ++ joinWith sep others := by
  induction pieces with
  | nil => exact ⟨[], rfl⟩
  | cons piece pieces ih =>
    obtain ⟨before, hbefore⟩ := ih
    obtain ⟨next, rest, hrest⟩ :=
      List.exists_cons_of_ne_nil (List.append_ne_nil_of_right_ne_nil pieces h)
    refine ⟨piece ++ sep :: before, ?_⟩
    rw [List.cons_append, hrest, joinWith, ← hrest, hbefore, List.append_assoc, List.cons_append]
    simp

theorem pathParts_slash_cons (path : List Char) : pathParts ('/' :: path) = pathParts path := rfl

/-- The last component of a path is followed by nothing that adds a component. -/
theorem exists_last_component {path last : List Char} (h : (pathParts path).getLast? = some last) :
    '/' ∉ last ∧ ∃ before after, path = before ++ (last ++ after) ∧ pathParts after = [] := by
  obtain ⟨inFront, hparts⟩ := List.getLast?_eq_some_iff.mp h
  obtain ⟨pieces, rest, hsplit, -, hrest⟩ := List.filter_eq_append_iff.mp hparts
  obtain ⟨more, behind, rfl, -, -, hbehind⟩ := List.filter_eq_cons_iff.mp hrest
  have hplain (piece : List Char) (hpiece : piece ∈ splitOnChar '/' path) : '/' ∉ piece :=
    fun hmem ↦ (mem_of_mem_splitOnChar hpiece _ hmem).2 rfl
  rw [hsplit] at hplain
  refine ⟨hplain last (by simp), ?_⟩
  obtain ⟨before, hbefore⟩ :=
    exists_joinWith_append '/' (pieces ++ more) (List.cons_ne_nil last behind)
  have hpath : path = before ++ joinWith '/' (last :: behind) := by
    rw [← hbefore, List.append_assoc, ← hsplit, joinWith_splitOnChar]
  rcases behind with _ | ⟨next, behind⟩
  · exact ⟨before, [], by simpa [joinWith] using hpath, rfl⟩
  · refine ⟨before, '/' :: joinWith '/' (next :: behind), hpath, ?_⟩
    rw [pathParts_slash_cons, pathParts, splitOnChar_joinWith (List.cons_ne_nil next behind)]
    · exact hbehind
    · exact fun piece hpiece ↦ hplain piece (by simp [List.mem_cons.mp hpiece])

/-- The suffix of a path follows a start that is not empty, and adds the last component. -/
theorem exists_pathOf_eq {url : String} (h : isSplittable url = true)
    (hsuffix : (urlPath url).suffix.toList ≠ []) :
    '/' ∉ (urlPath url).suffix.toList ∧ ∃ start rest, start ≠ [] ∧ pathParts rest = [] ∧
      pathOf url.toList = start ++ ((urlPath url).suffix.toList ++ rest) := by
  have hspelled := toList_suffix_ofString (pathOf url.toList)
  rw [← urlPath_of_isSplittable h] at hspelled
  rw [hspelled] at hsuffix ⊢
  rcases hlast : (pathParts (pathOf url.toList)).getLast? with _ | last
  · rw [hlast] at hsuffix
    exact absurd rfl hsuffix
  rw [hlast] at hsuffix
  rw [Option.getD_some] at hsuffix ⊢
  obtain ⟨hslash, before, after, hpath, hafter⟩ := exists_last_component hlast
  obtain ⟨stem, hstem, hname⟩ := exists_stem hsuffix
  refine ⟨fun hmem ↦ hslash (hname ▸ List.mem_append_right stem hmem), before ++ stem, after,
    List.append_ne_nil_of_right_ne_nil before hstem, hafter, ?_⟩
  rw [hpath, List.append_assoc, ← List.append_assoc stem, ← hname]

/-- A URL whose path has a suffix has an extension. -/
theorem exists_isExtension {url : String} (h : isSplittable url = true)
    (hsuffix : (urlPath url).suffix ≠ "") : ∃ front ext back, IsExtension url front ext back := by
  rw [ne_eq, ← String.toList_eq_nil_iff] at hsuffix
  obtain ⟨-, start, rest, hstart, hrest, hpath⟩ := exists_pathOf_eq h hsuffix
  obtain ⟨front, behind, more, hurl, hfront, hbehind⟩ := exists_front hstart hpath
  rw [List.append_assoc] at hbehind
  obtain ⟨ext, back, rfl, hext, -⟩ := List.filter_eq_append_iff.mp hbehind
  refine ⟨front, ext, back, hurl, hfront ▸ hstart, ⟨rest, ?_, hrest⟩, hext⟩
  rw [hpath, hfront, hext]

/-- The case of the letters of its extension does not make a URL another kind. -/
theorem suffixKind?_of_isExtension {url : String} (h : isSplittable url = true)
    {front ext back : List Char} (hext : IsExtension url front ext back) {ext' : List Char}
    (hsame : SameLetters ext ext') :
    isSplittable (String.ofList (front ++ (ext' ++ back))) = true ∧
      suffixKind? (String.ofList (front ++ (ext' ++ back))) = suffixKind? url := by
  have hslash : '/' ∉ ext := by
    intro hmem
    have hsuffix : '/' ∈ (urlPath url).suffix.toList :=
      hext.suffix_eq ▸ List.mem_filter.mpr ⟨hmem, rfl⟩
    exact (exists_pathOf_eq h (List.ne_nil_of_mem hsuffix)).1 hsuffix
  have hsplittable : isSplittable (String.ofList (front ++ (ext' ++ back))) = true := by
    rwa [isSplittable_iff, String.toList_ofList, ← authorityOf_congr hext.begun hslash hsame,
      ← hext.url_eq, ← isSplittable_iff]
  refine ⟨hsplittable, ?_⟩
  have hwhole : SameLetters url.toList (front ++ (ext' ++ back)) := by
    simp only [SameLetters, hext.url_eq, List.map_append] at hsame ⊢
    rw [hsame]
  rw [suffixKind?, suffixKind?, urlPath_of_isSplittable h, urlPath_of_isSplittable hsplittable,
    String.toList_ofList, lowered_suffix_of_sameLetters hwhole.pathOf]

/-! ### What an image is taken for -/

theorem bind_ofMediaType?_eq_some_iff {mediaType : Option String} {kind : ImageKind} :
    mediaType.bind ImageKind.ofMediaType? = some kind ↔
      mediaType.map essence = some kind.mediaType := by
  rw [Option.bind_eq_some_iff, Option.map_eq_some_iff]
  simp only [ImageKind.ofMediaType?_eq_some_iff]

/-- Without a kind that the suffix names, the media type decides. -/
theorem imageKind_of_suffixKind?_eq_none {url : String} (h : suffixKind? url = none)
    (mediaType : Option String) :
    imageKind url mediaType = (mediaType.bind ImageKind.ofMediaType?).getD .jpeg := by
  rw [imageKind_eq, h, Option.getD_none]

/-- Media types that agree in the part that counts name the same kind. -/
theorem bind_ofMediaType?_congr {mediaType mediaType' : Option String}
    (h : mediaType.map essence = mediaType'.map essence) :
    mediaType.bind ImageKind.ofMediaType? = mediaType'.bind ImageKind.ofMediaType? := by
  apply Option.ext
  intro kind
  rw [bind_ofMediaType?_eq_some_iff, h, bind_ofMediaType?_eq_some_iff]

/-- A URL is taken for the same kind of image with any query or fragment behind it and with the letters
of its extension in any case. A suffix that names a kind decides whatever the media type. Otherwise the
URL does not count, and what counts of the media type decides, or the image is taken for JPEG. The
media type and the suffix of the part that holds the image are those of one kind. -/
theorem image_kinds_told {url : String} (h : isSplittable url = true)
    (mediaType : Option String) :
    (∀ tail, imageKind (url ++ ("?" ++ tail)) mediaType = imageKind url mediaType ∧
      imageKind (url ++ ("#" ++ tail)) mediaType = imageKind url mediaType) ∧
    ((urlPath url).suffix ≠ "" → ∃ front ext back, IsExtension url front ext back) ∧
    (∀ front ext ext' back, IsExtension url front ext back → SameLetters ext ext' →
      imageKind (String.ofList (front ++ (ext' ++ back))) mediaType = imageKind url mediaType) ∧
    (∀ kind, suffixKind? url = some kind → imageKind url mediaType = kind) ∧
    (suffixKind? url = none →
      (∀ url' mediaType', suffixKind? url' = none →
        mediaType'.map essence = mediaType.map essence →
          imageKind url' mediaType' = imageKind url mediaType) ∧
      (∀ kind, mediaType.map essence = some kind.mediaType → imageKind url mediaType = kind) ∧
      ((∀ kind : ImageKind, mediaType.map essence ≠ some kind.mediaType) →
        imageKind url mediaType = .jpeg)) ∧
    ((imageKind url mediaType).mediaType, (imageKind url mediaType).fileSuffix) ∈
      [("image/png", "png"), ("image/jpeg", "jpeg"), ("image/gif", "gif"), ("image/bmp", "bmp"),
        ("image/tiff", "tiff")] := by
  refine ⟨fun tail ↦ ⟨?_, ?_⟩, exists_isExtension h, fun front ext ext' back hext hsame ↦ ?_,
    fun kind hkind ↦ ?_, fun hnone ↦ ⟨fun url' mediaType' hnone' hessence ↦ ?_,
      fun kind hkind ↦ ?_, fun hother ↦ ?_⟩, ?_⟩
  · have hquery : url ++ ("?" ++ tail) = String.ofList (url.toList ++ '?' :: tail.toList) :=
      String.toList_inj.mp (by simp)
    rw [hquery, imageKind_eq, suffixKind?_append h rfl, ← imageKind_eq]
  · have hfragment : url ++ ("#" ++ tail) = String.ofList (url.toList ++ '#' :: tail.toList) :=
      String.toList_inj.mp (by simp)
    rw [hfragment, imageKind_eq, suffixKind?_append h rfl, ← imageKind_eq]
  · rw [imageKind_eq, (suffixKind?_of_isExtension h hext hsame).2, ← imageKind_eq]
  · rw [imageKind_eq, hkind, Option.getD_some]
  · rw [imageKind_of_suffixKind?_eq_none hnone', imageKind_of_suffixKind?_eq_none hnone,
      bind_ofMediaType?_congr hessence]
  · rw [imageKind_of_suffixKind?_eq_none hnone, bind_ofMediaType?_eq_some_iff.mpr hkind,
      Option.getD_some]
  · rw [imageKind_of_suffixKind?_eq_none hnone]
    rcases hbind : mediaType.bind ImageKind.ofMediaType? with _ | kind
    · rfl
    · exact absurd (bind_ofMediaType?_eq_some_iff.mp hbind) (hother kind)
  · cases imageKind url mediaType <;> decide

/-- A URL with a suffix in mixed case in front of a query, and one whose suffix names no kind. -/
theorem image_kinds_told_mixedCase :
    imageKind "http://h/a.b.PnG/?x=.png" (some "image/gif") = .png ∧
    imageKind "http://h/a.svg" (some " Image/GIF ; q=1") = .gif := by
  have hpng : isSplittable "http://h/a.b.png/?x=.png" = true := by decide
  have hsvg : isSplittable "http://h/a.svg" = true := by decide
  have hext : IsExtension "http://h/a.b.png/?x=.png" "http://h/a.b".toList ".png".toList
      "/?x=.png".toList :=
    ⟨by decide, by decide, ⟨['/'], by decide, by decide⟩,
      by decide⟩
  have hkind := (image_kinds_told hpng (some "image/gif")).2.2.1 _ _ ".PnG".toList _ hext
    (by unfold SameLetters; decide)
  have hsuffix := (image_kinds_told hpng (some "image/gif")).2.2.2.1 .png (by decide)
  have hessence := ((image_kinds_told hsvg (some " Image/GIF ; q=1")).2.2.2.2.1
    (by decide)).2.1 .gif (by decide)
  exact ⟨hkind.trans hsuffix, hessence⟩

end Folio
