import Folio.Convert.Output
import Folio.Proofs.Containment
import Mathlib.Data.List.MinMax

/-!
# What writing a document changes

As long as directories and links stay and no new links come up, a path leads where it led before
(`FileTree.KeepsWays.locate`). Making the directories above a document only ever adds directories
where there was nothing and where the path or one above it leads (`FileTree.AddsDirectories`,
`makeDirectories_adds`), and changes nothing if they are there (`makeParents_of_directory`). Writing
a file changes what it holds, under all of its names, or adds it (`FileTree.FillsFile`,
`write_fills`). So a document that has been written is all that is new, beside the directories that
it needs (`FileTree.Gains`, `writeOutput_gains`), and whether it can be written or not, a file stays
as it was unless the path of the document leads to it (`writeOutput_keeps`).
-/

set_option autoImplicit false
set_option relaxedAutoImplicit false

namespace Folio

/-- By its text, a path is another one or stands above it. -/
structure PurePath.IsAbove (p q : PurePath) : Prop where
  slashes : p.slashes = q.slashes
  parts : p.parts <+: q.parts

namespace PurePath

theorem IsAbove.refl (p : PurePath) : p.IsAbove p := ⟨rfl, List.prefix_refl _⟩

theorem IsAbove.of_parent {p q : PurePath} (h : p.IsAbove q.parent) : p.IsAbove q :=
  ⟨h.slashes, h.parts.trans (List.dropLast_prefix _)⟩

end PurePath

namespace FileTree

variable {tree before middle after : FileTree} {path : PurePath} {location last other : Location}
  {node : FileNode} {components : List String} {throughLast : Bool} {links number : Nat}
  {content : List UInt8}

/-! ### Nodes and numbers -/

/-- A node is put at its location. -/
theorem nodeAt?_put_self (h : tree.nodeAt? location = none) :
    (tree.put location node).nodeAt? location = some node := by
  unfold nodeAt? at h ⊢
  split at h
  · cases h
  · next hfree => simp [put, hfree]

/-- A node is put nowhere but at its location. -/
theorem nodeAt?_put_of_ne (h : other ≠ location) :
    (tree.put location node).nodeAt? other = tree.nodeAt? other := by
  have hfind : (tree.put location node).nodes.find? (fun e ↦ e.1 = other) =
      tree.nodes.find? fun e ↦ e.1 = other := by
    rw [put, List.find?_cons_of_neg (by simpa using h.symm), List.find?_filter]
    congr 1
    funext e
    by_cases he : e.1 = other <;> simp [he, h]
  rw [nodeAt?, nodeAt?, hfind]
  rfl

theorem content_fill_self (tree : FileTree) (number : Nat) (content : List UInt8) :
    (tree.fill number content).content number = content := by
  simp [FileTree.content, fill]

theorem content_fill_of_ne {n : Nat} (h : n ≠ number) :
    (tree.fill number content).content n = tree.content n := by
  have hfind : (tree.fill number content).contents.find? (fun e ↦ e.1 = n) =
      tree.contents.find? fun e ↦ e.1 = n := by
    rw [fill, List.find?_cons_of_neg (by simpa using h.symm), List.find?_filter]
    congr 1
    funext e
    by_cases he : e.1 = n <;> simp [he, h]
  rw [FileTree.content, FileTree.content, hfind]

/-- A new number is that of no file. -/
theorem nodeAt?_ne_freeNumber (tree : FileTree) (location : Location) :
    tree.nodeAt? location ≠ some (.file tree.freeNumber) := by
  intro h
  have hmem : tree.freeNumber + 1 ∈ tree.nodes.map fun e ↦ numberAfter e.2 :=
    List.mem_map.mpr ⟨_, mem_nodes_of_nodeAt? h nofun, rfl⟩
  have hle : tree.freeNumber + 1 ≤ tree.freeNumber := List.le_max_of_le' 0 hmem le_rfl
  exact absurd hle (Nat.not_succ_le_self _)

/-! ### Ways that are kept -/

/-- All directories and links of a tree are those of another, which has no other links and is seen
from the same place. -/
structure KeepsWays (before after : FileTree) : Prop where
  workingDirectory : after.workingDirectory = before.workingDirectory
  directory : ∀ location, before.nodeAt? location = some .directory →
    after.nodeAt? location = some .directory
  link : ∀ location target, after.nodeAt? location = some (.link target) ↔
    before.nodeAt? location = some (.link target)

namespace KeepsWays

variable (h : before.KeepsWays after)
include h

/-- Only directories and links decide how far components lead. -/
theorem advance {result : Advance} (hadvance : before.advance location components = .ok result) :
    after.advance location components = .ok result := by
  induction components generalizing location with
  | nil => exact hadvance
  | cons name rest ih =>
    obtain ⟨hdirectory, hshort, hcases⟩ := advance_cons_eq_ok_iff.mp hadvance
    refine advance_cons_eq_ok_iff.mpr ⟨h.directory _ hdirectory, hshort, ?_⟩
    simp only [ne_eq, h.link]
    exact hcases.imp_right (And.imp_right ih)

theorem follow (hfollow : before.follow throughLast links location components = .ok last) :
    after.follow throughLast links location components = .ok last := by
  fun_induction before.follow throughLast links location components with
  | case1 => cases hfollow
  | case2 _ _ _ _ harrived => rwa [follow_of_arrived (h.advance harrived)]
  | case3 _ _ _ _ _ _ _ hlinked hend => rwa [follow_of_linked (h.advance hlinked), if_pos hend]
  | case4 => cases hfollow
  | case5 _ _ _ _ _ _ hlinked hon _ ih =>
    rw [follow_of_linked (h.advance hlinked), if_neg hon]
    exact ih hfollow

theorem locateWith (hlocate : before.locateWith throughLast path = .ok location) :
    after.locateWith throughLast path = .ok location := by
  obtain ⟨hshort, hfollow⟩ := locateWith_eq_ok_iff.mp hlocate
  have hstart : after.start path = before.start path := by
    rw [FileTree.start, FileTree.start, h.workingDirectory]
  exact locateWith_eq_ok_iff.mpr ⟨hshort, hstart ▸ h.follow hfollow⟩

/-- A path leads where it led before. -/
theorem locate (hlocate : before.locate path = .ok location) : after.locate path = .ok location :=
  h.locateWith hlocate

/-- A path to a directory leads to a directory. -/
theorem lookUp (hlookUp : before.lookUp path = .ok .directory) :
    after.lookUp path = .ok .directory := by
  obtain ⟨location, hlocate, hentry⟩ := lookUp_eq_ok_iff.mp hlookUp
  exact lookUp_eq_ok_iff.mpr ⟨location, h.locate hlocate,
    entryAt?_eq_directory_iff.mpr (h.directory _ (entryAt?_eq_directory_iff.mp hentry))⟩

end KeepsWays

/-! ### Links at the end of a path -/

/-- What is met as a link is a link. -/
theorem nodeAt?_of_linked {link directory : Location} {target : PurePath} {rest : List String}
    (h : tree.advance location components = .ok (.linked link directory target rest)) :
    tree.nodeAt? link = some (.link target) := by
  induction components generalizing location with
  | nil => cases h
  | cons name names ih =>
    obtain ⟨-, -, ⟨target, hlink, hlinked⟩ | ⟨-, hnames⟩⟩ := advance_cons_eq_ok_iff.mp h
    · cases hlinked
      exact hlink
    · exact ih hnames

/-- A path to something other than a link is followed to its end. -/
theorem follow_true_of_false (h : tree.follow false links location components = .ok last)
    (hnode : ∀ target, tree.nodeAt? last ≠ some (.link target)) :
    tree.follow true links location components = .ok last := by
  fun_induction tree.follow false links location components with
  | case1 => cases h
  | case2 _ _ _ _ harrived =>
    cases h
    exact follow_of_arrived harrived
  | case3 _ _ _ _ _ _ _ hlinked =>
    cases h
    exact absurd (nodeAt?_of_linked hlinked) (hnode _)
  | case4 => cases h
  | case5 _ _ _ _ _ _ hlinked _ _ ih =>
    rw [follow_of_linked hlinked, if_neg (by simp)]
    exact ih h

/-- A path to something leads to something also if a link at its end is not followed. -/
theorem exists_follow_false (h : tree.follow true links location components = .ok last)
    (hnode : tree.nodeAt? last ≠ none) :
    ∃ place, tree.follow false links location components = .ok place ∧
      tree.nodeAt? place ≠ none := by
  fun_induction tree.follow true links location components with
  | case1 => cases h
  | case2 _ _ _ _ harrived =>
    cases h
    exact ⟨_, follow_of_arrived harrived, hnode⟩
  | case3 _ _ _ _ _ _ _ _ hend => simp at hend
  | case4 => cases h
  | case5 _ _ _ _ _ rest hlinked _ _ ih =>
    rw [follow_of_linked hlinked]
    by_cases hend : rest.isEmpty
    · exact ⟨_, if_pos (by simp [hend]), by simp [nodeAt?_of_linked hlinked]⟩
    · rw [if_neg (by simp [hend])]
      exact ih h

/-- A path that leads to something other than a link leads there through links as well. -/
theorem locate_of_locateWith_false (h : tree.locateWith false path = .ok location)
    (hnode : ∀ target, tree.nodeAt? location ≠ some (.link target)) :
    tree.locate path = .ok location := by
  obtain ⟨hshort, hfollow⟩ := locateWith_eq_ok_iff.mp h
  exact locateWith_eq_ok_iff.mpr ⟨hshort, follow_true_of_false hfollow hnode⟩

/-- Where something is found through links, something is found without the last of them. -/
theorem exists_locateWith_false (h : tree.locate path = .ok location)
    (hnode : tree.nodeAt? location ≠ none) :
    ∃ place, tree.locateWith false path = .ok place ∧ tree.nodeAt? place ≠ none := by
  obtain ⟨hshort, hfollow⟩ := locateWith_eq_ok_iff.mp h
  obtain ⟨place, hplace, hthere⟩ := exists_follow_false hfollow hnode
  exact ⟨place, locateWith_eq_ok_iff.mpr ⟨hshort, hplace⟩, hthere⟩

/-! ### Directories that are added -/

/-- A tree differs from an earlier one by directories alone, where there was nothing, and each of them
is where a path or one above it leads. -/
structure AddsDirectories (before after : FileTree) (path : PurePath) : Prop where
  workingDirectory : after.workingDirectory = before.workingDirectory
  contents : after.contents = before.contents
  nodes : ∀ location, after.nodeAt? location = before.nodeAt? location ∨
    before.nodeAt? location = none ∧ after.nodeAt? location = some .directory ∧
      ∃ above : PurePath, above.IsAbove path ∧ after.locate above = .ok location

namespace AddsDirectories

theorem refl (tree : FileTree) (path : PurePath) : tree.AddsDirectories tree path :=
  ⟨rfl, rfl, fun _ ↦ .inl rfl⟩

/-- What stood somewhere still stands there. -/
theorem nodeAt? (h : before.AddsDirectories after path)
    (hnode : before.nodeAt? location = some node) : after.nodeAt? location = some node := by
  rcases h.nodes location with hsame | ⟨hnone, -⟩
  · rw [hsame, hnode]
  · rw [hnode] at hnone
    cases hnone

theorem keeps (h : before.AddsDirectories after path) : before.KeepsWays after where
  workingDirectory := h.workingDirectory
  directory _ := h.nodeAt?
  link location target := by
    rcases h.nodes location with hsame | ⟨hnone, hmade, -⟩
    · rw [hsame]
    · simp [hnone, hmade]

theorem of_parent (h : before.AddsDirectories after path.parent) :
    before.AddsDirectories after path where
  workingDirectory := h.workingDirectory
  contents := h.contents
  nodes location := (h.nodes location).imp_right fun ⟨hnone, hmade, above, habove, hlocate⟩ ↦
    ⟨hnone, hmade, above, habove.of_parent, hlocate⟩

theorem trans (hfirst : before.AddsDirectories middle path)
    (hlast : middle.AddsDirectories after path) : before.AddsDirectories after path where
  workingDirectory := hlast.workingDirectory.trans hfirst.workingDirectory
  contents := hlast.contents.trans hfirst.contents
  nodes location := by
    rcases hlast.nodes location with hsame | ⟨hnone, hmade, hway⟩
    · rw [hsame]
      exact (hfirst.nodes location).imp_right fun ⟨hnone, hmade, above, habove, hlocate⟩ ↦
        ⟨hnone, hmade, above, habove, hlast.keeps.locate hlocate⟩
    · rcases hfirst.nodes location with hsame | ⟨-, hmade', -⟩
      · exact .inr ⟨hsame ▸ hnone, hmade, hway⟩
      · rw [hnone] at hmade'
        cases hmade'

end AddsDirectories

/-- A directory is made where there was nothing. -/
theorem exists_of_makeDirectory (h : before.makeDirectory path = .ok after) :
    ∃ location, before.locateWith false path = .ok location ∧ before.nodeAt? location = none ∧
      after = before.put location .directory := by
  unfold makeDirectory at h
  split at h
  · cases h
  · next location hlocate =>
    split at h
    · cases h
    · next hnone =>
      split at h <;> cases h
      exact ⟨location, hlocate, hnone, rfl⟩

theorem keepsWays_put (h : before.nodeAt? location = none) :
    before.KeepsWays (before.put location .directory) := by
  have hself : (before.put location .directory).nodeAt? location = some .directory :=
    nodeAt?_put_self h
  refine ⟨rfl, fun other hother ↦ ?_, fun other target ↦ ?_⟩
  all_goals by_cases hplace : other = location
  · exact hplace ▸ hself
  · rwa [nodeAt?_put_of_ne hplace]
  · subst hplace
    simp [hself, h]
  · rw [nodeAt?_put_of_ne hplace]

/-- Making a directory adds it where its path leads. -/
theorem makeDirectory_adds (h : before.makeDirectory path = .ok after) :
    before.AddsDirectories after path ∧ after.lookUp path = .ok .directory := by
  obtain ⟨location, hlocate, hnone, rfl⟩ := exists_of_makeDirectory h
  have hself : (before.put location .directory).nodeAt? location = some .directory :=
    nodeAt?_put_self hnone
  have hfound : (before.put location .directory).locate path = .ok location :=
    locate_of_locateWith_false ((keepsWays_put hnone).locateWith hlocate) (by simp [hself])
  refine ⟨⟨rfl, rfl, fun other ↦ ?_⟩,
    lookUp_eq_ok_iff.mpr ⟨location, hfound, entryAt?_eq_directory_iff.mpr hself⟩⟩
  by_cases hplace : other = location
  · subst hplace
    exact .inr ⟨hnone, hself, path, .refl path, hfound⟩
  · exact .inl (nodeAt?_put_of_ne hplace)

theorem isDirectory_iff : tree.isDirectory path = true ↔ tree.lookUp path = .ok .directory := by
  unfold isDirectory
  rcases tree.lookUp path with fault | content | _ <;> simp

/-- A fault is excused only where the path leads to a directory already. -/
theorem lookUp_of_excused {fault : FileFault × PurePath}
    (h : (if tree.isDirectory path then none else some fault) = none) :
    tree.lookUp path = .ok .directory := by
  split at h
  · next hdirectory => exact isDirectory_iff.mp hdirectory
  · cases h

/-- Making a directory with those above it adds directories where its path and those above it lead,
also if that comes to a fault; if not, the path leads to a directory. -/
theorem makeDirectories_adds {fuel : Nat} {fault? : Option (FileFault × PurePath)}
    (h : before.makeDirectories path fuel = (after, fault?)) :
    before.AddsDirectories after path ∧ (fault? = none → after.lookUp path = .ok .directory) := by
  induction fuel generalizing path after fault? with
  | zero =>
    cases h
    exact ⟨.refl before path, nofun⟩
  | succ fuel ih =>
    rw [makeDirectories] at h
    split at h
    · next made hmade =>
      cases h
      exact ⟨(makeDirectory_adds hmade).1, fun _ ↦ (makeDirectory_adds hmade).2⟩
    · split at h
      · cases h
        exact ⟨.refl before path, nofun⟩
      · split at h
        · next made fault habove =>
          cases h
          exact ⟨(ih habove).1.of_parent, nofun⟩
        · next made habove =>
          have habove := (ih habove).1.of_parent
          split at h
          · next result hresult =>
            cases h
            have hmade := makeDirectory_adds hresult
            exact ⟨habove.trans hmade.1, fun _ ↦ hmade.2⟩
          · cases h
            exact ⟨habove, lookUp_of_excused⟩
    · cases h
      exact ⟨.refl before path, lookUp_of_excused⟩

/-- Making the directories above a path adds no more than these. -/
theorem makeParents_adds (tree : FileTree) (path : PurePath) :
    tree.AddsDirectories (tree.makeParents path).1 path.parent ∧
      ((tree.makeParents path).2 = none →
        (tree.makeParents path).1.lookUp path.parent = .ok .directory) := by
  rcases hmade : tree.makeParents path with ⟨made, fault?⟩
  exact makeDirectories_adds hmade

/-- Nothing is made where there is a directory already. -/
theorem makeParents_of_directory (h : tree.lookUp path.parent = .ok .directory) :
    tree.makeParents path = (tree, none) := by
  obtain ⟨location, hlocate, hentry⟩ := lookUp_eq_ok_iff.mp h
  obtain ⟨place, hplace, hthere⟩ :=
    exists_locateWith_false hlocate (by simp [entryAt?_eq_directory_iff.mp hentry])
  obtain ⟨node, hnode⟩ := Option.ne_none_iff_exists'.mp hthere
  have hexists : tree.makeDirectory path.parent = .error .exists := by
    simp only [makeDirectory, hplace, hnode]
  have hdirectory : tree.isDirectory path.parent = true := isDirectory_iff.mpr h
  rw [makeParents, makeDirectories, hexists]
  simp [hdirectory]

/-! ### Files that are written -/

/-- A tree differs from an earlier one by what a file at a location holds. If there was nothing there,
the file is new. -/
structure FillsFile (before after : FileTree) (location : Location) (number : Nat)
    (content : List UInt8) : Prop where
  workingDirectory : after.workingDirectory = before.workingDirectory
  file : after.nodeAt? location = some (.file number)
  filled : after.content number = content
  place : before.nodeAt? location = some (.file number) ∨ before.nodeAt? location = none ∧
    ∀ other, before.nodeAt? other ≠ some (.file number)
  nodes : ∀ other, other ≠ location → after.nodeAt? other = before.nodeAt? other
  contents : ∀ n, n ≠ number → after.content n = before.content n

theorem FillsFile.keeps (h : before.FillsFile after location number content) :
    before.KeepsWays after := by
  have hplace : ∀ node, before.nodeAt? location = some node → node = .file number := by
    rintro node hnode
    rcases h.place with hfile | ⟨hnone, -⟩
    · rw [hnode] at hfile
      exact Option.some.inj hfile
    · rw [hnode] at hnone
      cases hnone
  refine ⟨h.workingDirectory, fun other hother ↦ ?_, fun other target ↦ ?_⟩
  all_goals by_cases hsame : other = location
  · subst hsame
    cases hplace _ hother
  · rwa [h.nodes other hsame]
  · subst hsame
    refine iff_of_false (by simp [h.file]) fun hlink ↦ ?_
    cases hplace _ hlink
  · rw [h.nodes other hsame]

/-- Writing fills the file that the path leads to, or a new one there. -/
theorem write_fills (h : before.write path content = .ok after) :
    ∃ location number, before.locate path = .ok location ∧
      before.FillsFile after location number content := by
  unfold write at h
  split at h
  · cases h
  · next location hlocate =>
    split at h
    · cases h
    · cases h
    · next number hfile =>
      cases h
      exact ⟨location, number, hlocate, rfl, hfile, content_fill_self before number content,
        .inl hfile, fun _ _ ↦ rfl, fun _ ↦ content_fill_of_ne⟩
    · next hnone =>
      cases h
      refine ⟨location, before.freeNumber, hlocate, rfl, nodeAt?_put_self hnone,
        content_fill_self _ _ _, .inr ⟨hnone, nodeAt?_ne_freeNumber before⟩,
        fun other hother ↦ ?_, fun _ ↦ content_fill_of_ne⟩
      exact (nodeAt?_put_of_ne hother :
        (before.put location (.file before.freeNumber)).nodeAt? other = before.nodeAt? other)

/-- A path leads to the file with a number. -/
def LeadsToFile (tree : FileTree) (path : PurePath) (number : Nat) : Prop :=
  ∃ location, tree.locate path = .ok location ∧ tree.nodeAt? location = some (.file number)

theorem lookUp_eq_file_iff_leadsToFile : tree.lookUp path = .ok (.file content) ↔
    ∃ number, tree.LeadsToFile path number ∧ tree.content number = content := by
  simp only [lookUp_eq_ok_iff, entryAt?_eq_file_iff, LeadsToFile]
  constructor
  · rintro ⟨location, hlocate, number, hfile, hcontent⟩
    exact ⟨number, ⟨location, hlocate, hfile⟩, hcontent⟩
  · rintro ⟨number, ⟨location, hlocate, hfile⟩, hcontent⟩
    exact ⟨location, hlocate, number, hfile, hcontent⟩

/-- What writing a file to a path changes: the path leads to the file, the path above it to a
directory, and whatever else is new is a directory to which a path above leads. A file that was there
before holds what it held, unless it is where the path leads. -/
structure Gains (before after : FileTree) (path : PurePath) (content : List UInt8) : Prop where
  workingDirectory : after.workingDirectory = before.workingDirectory
  file : after.read path = .ok content
  parent : after.lookUp path.parent = .ok .directory
  nodes : ∀ location, after.nodeAt? location = before.nodeAt? location ∨
    before.nodeAt? location = none ∧ (after.locate path = .ok location ∨
      after.nodeAt? location = some .directory ∧
        ∃ above : PurePath, above.IsAbove path.parent ∧ after.locate above = .ok location)
  contents : ∀ location number, before.nodeAt? location = some (.file number) →
    after.content number = before.content number ∨
      ∃ place, after.locate path = .ok place ∧ before.nodeAt? place = some (.file number)

end FileTree

section WriteOutput

variable {files after : FileTree} {path : PurePath} {content : List UInt8}
  {fault? : Option OutputFault}

/-- Writing a document makes the directories above it at most, and then stops with a fault or fills
the file that the path leads to. -/
theorem writeOutput_cases (h : writeOutput files path content = (after, fault?)) :
    (fault? ≠ none ∧ (after = files ∨ after = (files.makeParents path).1)) ∨
      (fault? = none ∧ (files.makeParents path).2 = none ∧
        ∃ location number, (files.makeParents path).1.locate path = .ok location ∧
          (files.makeParents path).1.FillsFile after location number content) := by
  unfold writeOutput at h
  split at h
  · cases h
    exact .inl ⟨by simp, .inl rfl⟩
  · split at h
    · next made fault place hmade =>
      cases h
      exact .inl ⟨by simp, .inr (by rw [hmade])⟩
    · next made hmade =>
      rw [hmade]
      split at h
      · cases h
        exact .inl ⟨by simp, .inr rfl⟩
      · split at h
        · cases h
          exact .inl ⟨by simp, .inr rfl⟩
        · next hwrite =>
          cases h
          exact .inr ⟨rfl, rfl, FileTree.write_fills hwrite⟩

/-- A document that has been written is all that is new, beside the directories above it. -/
theorem writeOutput_gains (h : writeOutput files path content = (after, none)) :
    files.Gains after path content := by
  obtain ⟨hfault, -⟩ | ⟨-, hmade, location, number, hlocate, hfills⟩ := writeOutput_cases h
  · exact absurd rfl hfault
  · obtain ⟨hadds, hparent⟩ := files.makeParents_adds path
    have hplace : after.locate path = .ok location := hfills.keeps.locate hlocate
    refine ⟨hfills.workingDirectory.trans hadds.workingDirectory, ?_,
      hfills.keeps.lookUp (hparent hmade), fun other ↦ ?_, fun other n hother ↦ ?_⟩
    · exact FileTree.read_eq_ok_iff.mpr (FileTree.lookUp_eq_file_iff_leadsToFile.mpr
        ⟨number, ⟨location, hplace, hfills.file⟩, hfills.filled⟩)
    · by_cases hsame : other = location
      · subst hsame
        rcases hadds.nodes other with hold | ⟨hnone, -⟩
        · rcases hfills.place with hfile | ⟨hnone, -⟩
          · exact .inl (hfills.file.trans (hfile.symm.trans hold))
          · exact .inr ⟨hold ▸ hnone, .inl hplace⟩
        · exact .inr ⟨hnone, .inl hplace⟩
      · rw [hfills.nodes other hsame]
        exact (hadds.nodes other).imp_right fun ⟨hnone, hdirectory, above, habove, hfound⟩ ↦
          ⟨hnone, .inr ⟨hdirectory, above, habove, hfills.keeps.locate hfound⟩⟩
    · have hcontent (m : Nat) : (files.makeParents path).1.content m = files.content m := by
        rw [FileTree.content, FileTree.content, hadds.contents]
      by_cases hnumber : n = number
      · subst hnumber
        have hfile : (files.makeParents path).1.nodeAt? location = some (.file n) :=
          hfills.place.resolve_right fun hfree ↦ hfree.2 other (hadds.nodeAt? hother)
        refine .inr ⟨location, hplace, ?_⟩
        rcases hadds.nodes location with hold | ⟨-, hdirectory, -⟩
        · rw [← hold, hfile]
        · rw [hfile] at hdirectory
          cases hdirectory
      · exact .inl ((hfills.contents n hnumber).trans (hcontent n))

/-- Whatever comes of writing a document into a directory that is there, a path leads to the file to
which it led before, and that holds what it held unless the path of the document leads to it. -/
theorem writeOutput_keeps (h : writeOutput files path content = (after, fault?))
    (hparent : files.lookUp path.parent = .ok .directory) {other : PurePath} {number : Nat}
    (hother : files.LeadsToFile other number) (hpath : ¬ files.LeadsToFile path number) :
    after.LeadsToFile other number ∧ after.content number = files.content number := by
  have hmade : files.makeParents path = (files, none) := FileTree.makeParents_of_directory hparent
  have hcases := writeOutput_cases h
  rw [hmade, or_self] at hcases
  obtain ⟨-, rfl⟩ | ⟨-, -, location, filled, hlocate, hfills⟩ := hcases
  · exact ⟨hother, rfl⟩
  · obtain ⟨place, hplace, hfile⟩ := hother
    have hnumber : number ≠ filled := by
      rintro rfl
      rcases hfills.place with hsame | ⟨-, hfree⟩
      · exact hpath ⟨location, hlocate, hsame⟩
      · exact hfree place hfile
    refine ⟨⟨place, hfills.keeps.locate hplace, ?_⟩, hfills.contents number hnumber⟩
    by_cases hsame : place = location
    · subst hsame
      rcases hfills.place with hfile' | ⟨hnone, -⟩
      · rw [hfile] at hfile'
        exact absurd (FileNode.file.inj (Option.some.inj hfile')) hnumber
      · rw [hfile] at hnone
        cases hnone
    · rwa [hfills.nodes place hsame]

end WriteOutput
end Folio
