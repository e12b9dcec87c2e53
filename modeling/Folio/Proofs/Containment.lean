import Folio.Fetch.Local
import Folio.Proofs.Following
import Folio.Proofs.PathText

/-!
# Local images stay inside the asset root

A path of text names a place: from a directory, or from the root of the file system if it starts with
a slash, each piece between two slashes leads one step down, or one step up if it is two points, and
empty pieces and single points lead nowhere (`placeOf`). The text of a path is all that decides the
place where there are no symbolic links (`placeOfPath_join_ofString`). A file can be opened where every
location above it is a directory and no name is too long (`FileTree.Opens`), and looking up the path
of a place finds exactly the files that can (`lookUp_eq_file_iff`). So a local image is read exactly if
its place is below that of the asset root and holds such a file that is not empty
(`local_images_contained`).
-/

set_option autoImplicit false
set_option relaxedAutoImplicit false

namespace Folio

/-! ### Places -/

/-- The location reached along the pieces of a path: empty pieces and single points stay, two points
go up, and all other pieces go down. -/
def walk (location : Location) : List (List Char) → Location
  | [] => location
  | piece :: pieces =>
    if piece = [] ∨ piece = ['.'] then walk location pieces
    else if piece = ['.', '.'] then walk location.dropLast pieces
    else walk (location ++ [String.ofList piece]) pieces

/-- The place that a path names, seen from a directory. -/
def placeOf (directory : Location) (path : String) : Location :=
  walk (if path.toList.head? = some '/' then [] else directory) (splitOnChar '/' path.toList)

/-- A path starts at the root of the file system exactly if its text starts with a slash. -/
theorem leadingSlashes_eq_zero_iff (cs : List Char) :
    PurePath.leadingSlashes cs = 0 ↔ cs.head? ≠ some '/' := by
  cases cs with
  | nil => simp [PurePath.leadingSlashes]
  | cons c cs =>
    by_cases hc : c = '/'
    · subst hc
      unfold PurePath.leadingSlashes
      split <;> simp_all
    · simp [PurePath.leadingSlashes, hc]

/-- The components of a path lead where its pieces do. -/
theorem foldl_step_eq_walk (location : Location) (pieces : List (List Char)) :
    ((pieces.filter fun p ↦ !p.isEmpty && p != ['.']).map String.ofList).foldl FileTree.step
      location = walk location pieces := by
  induction pieces generalizing location with
  | nil => rfl
  | cons piece pieces ih =>
    have hup : String.ofList piece = ".." ↔ piece = ['.', '.'] := by
      rw [← String.toList_inj, String.toList_ofList]
      rfl
    by_cases hskip : piece = [] ∨ piece = ['.']
    · rw [walk, if_pos hskip, ← ih, List.filter_cons_of_neg]
      rcases hskip with rfl | rfl <;> simp
    · obtain ⟨hempty, hpoint⟩ := not_or.mp hskip
      rw [walk, if_neg hskip, List.filter_cons_of_pos (by simp [hempty, hpoint]), List.map_cons,
        List.foldl_cons, ih, FileTree.step]
      simp only [hup]
      split <;> rfl

/-- The text of a path decides the place that it names. -/
theorem placeOfPath_ofString (tree : FileTree) (path : String) :
    tree.placeOfPath (.ofString path) = placeOf tree.workingDirectory path := by
  have hstart : tree.start (.ofString path) =
      if path.toList.head? = some '/' then [] else tree.workingDirectory := by
    simp only [FileTree.start, FileTree.startFrom, PurePath.ofString, leadingSlashes_eq_zero_iff,
      ne_eq, ite_not]
  rw [FileTree.placeOfPath, hstart]
  exact foldl_step_eq_walk _ _

/-- Names that do not go up lead straight down. -/
theorem foldl_step_of_not_mem {names : List String} (h : ".." ∉ names) (location : Location) :
    names.foldl FileTree.step location = location ++ names := by
  induction names generalizing location with
  | nil => simp
  | cons name rest ih =>
    rw [List.mem_cons, not_or] at h
    rw [List.foldl_cons, ih h.2, FileTree.step, if_neg (Ne.symm h.1), List.append_assoc,
      List.singleton_append]

/-- A path inside a place names the place that it names from there. -/
theorem placeOfPath_join_ofString (tree : FileTree) {base : Location} (hbase : ".." ∉ base)
    (source : String) :
    tree.placeOfPath ((FileTree.pathOf base).join (.ofString source)) = placeOf base source := by
  by_cases hslash : source.toList.head? = some '/'
  · have hjoin : (FileTree.pathOf base).join (.ofString source) = .ofString source := by
      rw [PurePath.join, if_neg]
      exact mt (leadingSlashes_eq_zero_iff _).mp (not_not.mpr hslash)
    rw [hjoin, placeOfPath_ofString, placeOf, placeOf, if_pos hslash, if_pos hslash]
  · have hjoin : (FileTree.pathOf base).join (.ofString source) =
        ⟨1, base ++ (PurePath.ofString source).parts⟩ := by
      rw [PurePath.join, if_pos]
      · rfl
      · exact (leadingSlashes_eq_zero_iff _).mpr hslash
    have hstart : tree.start ⟨1, base ++ (PurePath.ofString source).parts⟩ = [] := rfl
    rw [hjoin, FileTree.placeOfPath, hstart, List.foldl_append, foldl_step_of_not_mem hbase, placeOf,
      if_neg hslash]
    exact foldl_step_eq_walk base _

/-! ### Names -/

/-- Whether a text can be the name of a file: it is neither empty nor points, and holds no slash and
no NUL character. -/
def isFileName (name : String) : Bool :=
  name ≠ "" && name ≠ "." && name ≠ ".." && !holdsChar name '/' && !holdsChar name '\x00'

theorem isFileName_iff {name : String} : isFileName name = true ↔
    (name.toList ≠ [] ∧ name.toList ≠ ['.'] ∧ name.toList ≠ ['.', '.']) ∧
      '/' ∉ name.toList ∧ '\x00' ∉ name.toList := by
  have hpoint : name = "." ↔ name.toList = ['.'] := by rw [← String.toList_inj]; rfl
  have hup : name = ".." ↔ name.toList = ['.', '.'] := by rw [← String.toList_inj]; rfl
  simp [isFileName, holdsChar, hpoint, hup, and_assoc]

/-- Pieces without slashes and NUL characters lead from a location whose components can be names of
files to another such location. -/
theorem isFileName_of_mem_walk {pieces : List (List Char)}
    (hpieces : ∀ piece ∈ pieces, '/' ∉ piece ∧ '\x00' ∉ piece) {location : Location}
    (hlocation : ∀ name ∈ location, isFileName name = true) :
    ∀ name ∈ walk location pieces, isFileName name = true := by
  induction pieces generalizing location with
  | nil => exact hlocation
  | cons piece pieces ih =>
    obtain ⟨hpiece, hrest⟩ := List.forall_mem_cons.mp hpieces
    rw [walk]
    split
    · exact ih hrest hlocation
    · next hskip =>
      split
      · exact ih hrest fun name hname ↦ hlocation name (List.dropLast_subset _ hname)
      · next hup =>
        refine ih hrest fun name hname ↦ ?_
        rcases List.mem_append.mp hname with hname | hname
        · exact hlocation name hname
        · obtain rfl := List.mem_singleton.mp hname
          obtain ⟨hempty, hpoint⟩ := not_or.mp hskip
          rw [isFileName_iff, String.toList_ofList]
          exact ⟨⟨hempty, hpoint, hup⟩, hpiece⟩

/-- All components of the place that a path names can be names of files, as those of the directory
can that it is seen from. -/
theorem isFileName_of_mem_placeOf {directory : Location}
    (hdirectory : ∀ name ∈ directory, isFileName name = true) {path : String}
    (hnul : '\x00' ∉ path.toList) :
    ∀ name ∈ placeOf directory path, isFileName name = true := by
  refine isFileName_of_mem_walk (fun piece hpiece ↦ ?_) ?_
  · have hchars := mem_of_mem_splitOnChar hpiece
    exact ⟨fun h ↦ (hchars _ h).2 rfl, fun h ↦ hnul (hchars _ h).1⟩
  · split
    · simp
    · exact hdirectory

theorem mem_joinWith {sep c : Char} {pieces : List (List Char)} (h : c ∈ joinWith sep pieces) :
    c = sep ∨ ∃ piece ∈ pieces, c ∈ piece := by
  induction pieces with
  | nil => cases h
  | cons piece pieces ih =>
    cases pieces with
    | nil => exact .inr ⟨piece, List.mem_cons_self, h⟩
    | cons next pieces =>
      simp only [joinWith, List.mem_append, List.mem_cons] at h
      rcases h with h | h | h
      · exact .inr ⟨piece, List.mem_cons_self, h⟩
      · exact .inl h
      · refine (ih h).imp_right ?_
        rintro ⟨other, hother, hc⟩
        exact ⟨other, List.mem_cons_of_mem piece hother, hc⟩

/-- The characters of names lead down along the names. -/
theorem walk_names (location : Location) {names : List String}
    (hnames : ∀ name ∈ names, isFileName name = true) :
    walk location (names.map String.toList) = location ++ names := by
  induction names generalizing location with
  | nil => simp [walk]
  | cons name names ih =>
    obtain ⟨hname, hrest⟩ := List.forall_mem_cons.mp hnames
    obtain ⟨⟨hempty, hpoint, hup⟩, -⟩ := isFileName_iff.mp hname
    rw [List.map_cons, walk, if_neg (not_or.mpr ⟨hempty, hpoint⟩), if_neg hup, ih _ hrest,
      String.ofList_toList, List.append_assoc, List.singleton_append]

/-- A path made of names leads from a directory down along them. -/
theorem placeOf_joined (directory : Location) {names : List String}
    (hnames : ∀ name ∈ names, isFileName name = true) :
    placeOf directory (joined "/" names) = directory ++ names := by
  cases names with
  | nil => simp [placeOf, joined, splitOnChar, walk]
  | cons name names =>
    have hpieces : splitOnChar '/' (joinWith '/' ((name :: names).map String.toList)) =
        (name :: names).map String.toList := by
      refine splitOnChar_joinWith (by simp) fun piece hpiece ↦ ?_
      obtain ⟨other, hother, rfl⟩ := List.mem_map.mp hpiece
      exact (isFileName_iff.mp (hnames other hother)).2.1
    obtain ⟨⟨hempty, -⟩, hslash, -⟩ := isFileName_iff.mp (hnames name List.mem_cons_self)
    have hhead := head?_joinWith_ne hempty hslash names
    rw [placeOf, toList_joined, if_neg hhead, hpieces, walk_names _ hnames]

/-! ### Opening files -/

/-- Whether a regular file with a content can be opened at a location: all locations above are
directories, and neither a name nor the path is longer than a file system allows. -/
structure FileTree.Opens (tree : FileTree) (location : Location) (content : List UInt8) : Prop where
  file : tree.entryAt? location = some (.file content)
  above : ∀ folder, folder <+: location → folder ≠ location →
    tree.entryAt? folder = some .directory
  names : ∀ name ∈ location, name.utf8ByteSize ≤ nameLimit
  path : (pathOf location).toString.utf8ByteSize ≤ pathLimit

namespace FileTree

variable {tree : FileTree}

section LinkFree

variable (hlinks : tree.LinkFree)

include hlinks

/-- Components without two points lead straight down, through directories only. -/
theorem follow_eq_ok_iff {links : Nat} {components : List String} (h : ".." ∉ components)
    {location last : Location} :
    tree.follow true links location components = .ok last ↔
      last = location ++ components ∧
      (∀ folder, folder <+: components → folder ≠ components →
        tree.entryAt? (location ++ folder) = some .directory) ∧
      ∀ name ∈ components, name.utf8ByteSize ≤ nameLimit := by
  rw [follow_eq_ok_iff_advance hlinks]
  induction components generalizing location with
  | nil => simp [advance, eq_comm]
  | cons name rest ih =>
    rw [List.mem_cons, not_or] at h
    have hstep : step location name = location ++ [name] := by rw [step, if_neg (Ne.symm h.1)]
    have hfolders : (∀ folder, folder <+: name :: rest → folder ≠ name :: rest →
          tree.entryAt? (location ++ folder) = some .directory) ↔
        tree.entryAt? location = some .directory ∧
          ∀ folder, folder <+: rest → folder ≠ rest →
            tree.entryAt? (location ++ [name] ++ folder) = some .directory := by
      simp only [List.prefix_cons_iff]
      constructor
      · intro hall
        refine ⟨by simpa using hall [] (.inl rfl) (by simp), fun folder hfolder hne ↦ ?_⟩
        simpa using hall (name :: folder) (.inr ⟨folder, rfl, hfolder⟩) (by simpa using hne)
      · rintro ⟨hhere, hbelow⟩ folder (rfl | ⟨deeper, rfl, hdeeper⟩) hne
        · simpa using hhere
        · simpa using hbelow deeper hdeeper (by simpa using hne)
    rw [hfolders, List.forall_mem_cons, advance_cons_eq_ok_iff_of_linkFree hlinks, hstep, ih h.2,
      entryAt?_eq_directory_iff, List.append_assoc, List.singleton_append]
    tauto

/-- The path of a location leads to a file exactly if the file can be opened there. -/
theorem lookUp_eq_file_iff {location : Location} (h : ".." ∉ location) {content : List UInt8} :
    tree.lookUp (pathOf location) = .ok (.file content) ↔ tree.Opens location content := by
  have hlocate (last : Location) : tree.locate (pathOf location) = .ok last ↔
      (pathOf location).toString.utf8ByteSize ≤ pathLimit ∧
        tree.follow true linkLimit [] location = .ok last := locateWith_eq_ok_iff
  rw [lookUp_eq_ok_iff]
  constructor
  · rintro ⟨last, hlast, hentry⟩
    obtain ⟨hpath, hfollow⟩ := (hlocate last).mp hlast
    obtain ⟨rfl, habove, hnames⟩ := (follow_eq_ok_iff hlinks h).mp hfollow
    exact ⟨hentry, habove, hnames, hpath⟩
  · rintro ⟨hfile, habove, hnames, hpath⟩
    exact ⟨location, (hlocate location).mpr
      ⟨hpath, (follow_eq_ok_iff hlinks h).mpr ⟨rfl, habove, hnames⟩⟩, hfile⟩

end LinkFree

/-- What a path leads to is what reading it reads, if that is a file. -/
theorem read_eq_ok_iff {path : PurePath} {content : List UInt8} :
    tree.read path = .ok content ↔ tree.lookUp path = .ok (.file content) := by
  unfold read
  rcases tree.lookUp path with fault | content' | _ <;> simp

end FileTree

/-! ### Local images -/

/-- The place of an asset root. -/
def FileTree.rootPlace (tree : FileTree) (root : String) : Location :=
  placeOf tree.workingDirectory root

section Local

variable {tree : FileTree}

/-- The file at a location is an image exactly if it can be opened there and is not empty. -/
theorem readImage_eq_image_iff (hlinks : tree.LinkFree) {location : Location} (h : ".." ∉ location)
    {content : List UInt8} {mediaType : Option String} :
    readImage tree location = .image content mediaType ↔
      mediaType = none ∧ content ≠ [] ∧ tree.Opens location content := by
  rw [← FileTree.lookUp_eq_file_iff hlinks h, ← FileTree.read_eq_ok_iff, readImage]
  rcases tree.read (FileTree.pathOf location) with fault | found
  · simp
  · by_cases hempty : found = []
    · simp [hempty, eq_comm]
    · simp only [List.isEmpty_iff, hempty, ↓reduceIte, Fetched.image.injEq, Except.ok.injEq]
      constructor
      · rintro ⟨rfl, rfl⟩
        exact ⟨rfl, hempty, rfl⟩
      · rintro ⟨rfl, -, rfl⟩
        exact ⟨rfl, rfl⟩

theorem holdsNul_ofString {path : String} (h : '\x00' ∉ path.toList) :
    (PurePath.ofString path).holdsNul = false := by
  simp only [PurePath.holdsNul, PurePath.ofString, List.any_map, List.any_eq_false, List.mem_filter]
  rintro piece ⟨hpiece, -⟩
  have hfree : '\x00' ∉ piece := fun hnul ↦ h (mem_of_mem_splitOnChar hpiece _ hnul).1
  simpa [holdsChar] using hfree

variable (hlinks : tree.LinkFree)
  (hwork : ∀ name ∈ tree.workingDirectory, isFileName name = true) {root source : String}
  (hroot : '\x00' ∉ root.toList) (hsource : '\x00' ∉ source.toList)

include hlinks hwork hroot hsource

/-- Where no path holds a NUL character, the file system is asked for the place that the source names
from the asset root exactly if that place is below the asset root. -/
theorem readLocalImage_eq_ite : readLocalImage tree (some (.ofString root)) source =
    .ok (if tree.rootPlace root <+: placeOf (tree.rootPlace root) source then
      readImage tree (placeOf (tree.rootPlace root) source)
    else .missing (.escapes source (FileTree.pathOf (tree.rootPlace root)).toString)) := by
  have hbase : tree.resolve (.ofString root) = .ok (tree.rootPlace root) := by
    rw [FileTree.resolve_of_linkFree hlinks, placeOfPath_ofString]
    rfl
  have hup : ".." ∉ tree.rootPlace root := fun h ↦
    absurd (isFileName_of_mem_placeOf hwork hroot _ h) (by decide)
  have hplace : tree.resolve ((FileTree.pathOf (tree.rootPlace root)).join (.ofString source)) =
      .ok (placeOf (tree.rootPlace root) source) := by
    rw [FileTree.resolve_of_linkFree hlinks, placeOfPath_join_ofString tree hup]
  have hnul : source.toList.contains '\x00' = false := by simpa using hsource
  simp only [readLocalImage, imagePlaces, holdsNul_ofString hroot, Bool.false_eq_true, if_false,
    hbase, hnul, hplace, List.isPrefixOf_iff_prefix]
  split <;> rfl

/-- A source that names a place elsewhere is refused. -/
theorem readLocalImage_of_outside
    (h : ¬tree.rootPlace root <+: placeOf (tree.rootPlace root) source) :
    readLocalImage tree (some (.ofString root)) source =
      .ok (.missing (.escapes source (FileTree.pathOf (tree.rootPlace root)).toString)) := by
  rw [readLocalImage_eq_ite hlinks hwork hroot hsource, if_neg h]

/-- A source gives an image exactly if its place is below the asset root and holds a file that can be
opened and is not empty. -/
theorem readLocalImage_eq_image_iff {content : List UInt8} {mediaType : Option String} :
    readLocalImage tree (some (.ofString root)) source = .ok (.image content mediaType) ↔
      mediaType = none ∧ content ≠ [] ∧
      tree.rootPlace root <+: placeOf (tree.rootPlace root) source ∧
      tree.Opens (placeOf (tree.rootPlace root) source) content := by
  have hnames : ∀ name ∈ placeOf (tree.rootPlace root) source, isFileName name = true :=
    isFileName_of_mem_placeOf (isFileName_of_mem_placeOf hwork hroot) hsource
  have hup : ".." ∉ placeOf (tree.rootPlace root) source :=
    fun h ↦ absurd (hnames _ h) (by decide)
  rw [readLocalImage_eq_ite hlinks hwork hroot hsource, Except.ok.injEq]
  split
  · next hinside => simp [readImage_eq_image_iff hlinks hup, hinside]
  · next houtside => simp [houtside]

omit hsource

/-- A file below the asset root is read by the names that lead to it. -/
theorem readLocalImage_joined {names : List String}
    (hnames : ∀ name ∈ names, isFileName name = true) {content : List UInt8} (hne : content ≠ [])
    (hopens : tree.Opens (tree.rootPlace root ++ names) content) :
    readLocalImage tree (some (.ofString root)) (joined "/" names) = .ok (.image content none) := by
  have hnul : '\x00' ∉ (joined "/" names).toList := by
    rw [toList_joined]
    intro h
    rcases mem_joinWith h with hslash | ⟨piece, hpiece, hnul⟩
    · exact absurd hslash (by decide)
    · obtain ⟨name, hname, rfl⟩ := List.mem_map.mp hpiece
      exact (isFileName_iff.mp (hnames name hname)).2.2 hnul
  refine (readLocalImage_eq_image_iff hlinks hwork hroot hnul).mpr ⟨rfl, hne, ?_⟩
  rw [placeOf_joined _ hnames]
  exact ⟨List.prefix_append _ _, hopens⟩

end Local

/-- Without symbolic links, an asset root without NUL characters confines local images: a source gives
an image exactly if the place that it names is below the asset root and holds a file that can be opened
there and is not empty, whose content the image is; a source that names any other place is refused; and
a file below the asset root is read by the names that lead to it. Without an asset root nothing is
read. -/
theorem local_images_contained {tree : FileTree} (hlinks : tree.LinkFree)
    (hwork : ∀ name ∈ tree.workingDirectory, isFileName name = true) {root : String}
    (hroot : '\x00' ∉ root.toList) :
    (∀ source : String, '\x00' ∉ source.toList →
      (∀ content mediaType,
        readLocalImage tree (some (.ofString root)) source = .ok (.image content mediaType) ↔
          mediaType = none ∧ content ≠ [] ∧
          tree.rootPlace root <+: placeOf (tree.rootPlace root) source ∧
          tree.Opens (placeOf (tree.rootPlace root) source) content) ∧
      (¬tree.rootPlace root <+: placeOf (tree.rootPlace root) source →
        ∃ why, readLocalImage tree (some (.ofString root)) source = .ok (.missing why))) ∧
    (∀ (names : List String) (content : List UInt8), (∀ name ∈ names, isFileName name = true) →
      content ≠ [] → tree.Opens (tree.rootPlace root ++ names) content →
      readLocalImage tree (some (.ofString root)) (joined "/" names) =
        .ok (.image content none)) ∧
    ∀ source : String,
      readLocalImage tree none source = .ok (.missing (.noAssetRoot source)) := by
  refine ⟨fun source hsource ↦ ⟨fun content mediaType ↦ ?_, fun houtside ↦ ?_⟩, ?_, fun _ ↦ rfl⟩
  · exact readLocalImage_eq_image_iff hlinks hwork hroot hsource
  · exact ⟨_, readLocalImage_of_outside hlinks hwork hroot hsource houtside⟩
  · exact fun names content hnames hne hopens ↦
      readLocalImage_joined hlinks hwork hroot hnames hne hopens

/-- Two folders with a file each, where the name of one starts with that of the other. -/
def siblingFolders : FileTree where
  workingDirectory := ["w"]
  nodes := [(["w", "docs"], .directory), (["w", "docs", "a.png"], .file 1),
    (["w", "docs2"], .directory), (["w", "docs2", "a.png"], .file 2)]
  contents := [(1, [1]), (2, [2])]

theorem local_images_contained_siblingFolders :
    siblingFolders.LinkFree ∧ (∀ name ∈ siblingFolders.workingDirectory, isFileName name = true) ∧
      '\x00' ∉ "docs".toList ∧
      readLocalImage siblingFolders (some (.ofString "docs")) "../docs2//../docs/./a.png" =
        .ok (.image [1] none) ∧
      ∃ why, readLocalImage siblingFolders (some (.ofString "docs")) "../docs2/a.png" =
        .ok (.missing why) := by
  have hlinks : siblingFolders.LinkFree :=
    FileTree.linkFree_of_nodes (by simp [siblingFolders])
  have hwork : ∀ name ∈ siblingFolders.workingDirectory, isFileName name = true := by decide
  have hroot : '\x00' ∉ "docs".toList := by decide
  obtain ⟨hsources, -⟩ := local_images_contained hlinks hwork hroot
  have hopens : siblingFolders.Opens ["w", "docs", "a.png"] [1] :=
    (FileTree.lookUp_eq_file_iff hlinks (by decide)).mp (by decide)
  refine ⟨hlinks, hwork, hroot, ?_, ?_⟩
  · exact ((hsources "../docs2//../docs/./a.png" (by decide)).1 [1] none).mpr
      ⟨rfl, by decide, by decide, hopens⟩
  · exact (hsources "../docs2/a.png" (by decide)).2 (by decide)

/-- Below an asset root with a NUL character, a source that names a place elsewhere is not refused: it
stops the work. -/
theorem nulFolder_stops :
    '\x00' ∉ "../a".toList ∧
      ¬siblingFolders.rootPlace "x\x00y" <+: placeOf (siblingFolders.rootPlace "x\x00y") "../a" ∧
      readLocalImage siblingFolders (some (.ofString "x\x00y")) "../a" = .error .nulInPath :=
  ⟨by decide, by decide, by decide⟩

end Folio
