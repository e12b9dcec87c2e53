import Folio.Path.Resolve
import Mathlib.Data.List.Basic

/-!
# Where paths lead

Components lead from a directory to a location (`FileTree.Leads`) step by step through directories,
and through a link along the path that it holds. However many links there are on the way, they lead
nowhere else (`Leads.unique`), and the way to the end of a path is the way to any place on it and from
there on (`leads_append_iff`). What following a path finds is such a location
(`leads_of_locate`). Without symbolic links (`FileTree.LinkFree`) a path leads to the location that
its text names (`Leads.eq_foldl`), which is also where it is resolved to (`resolve_of_linkFree`).
-/

set_option autoImplicit false
set_option relaxedAutoImplicit false

namespace Folio
namespace FileTree

/-- Components lead from a directory to a location. -/
inductive Leads (tree : FileTree) : Location → List String → Location → Prop
  | here (location : Location) : Leads tree location [] location
  | down {location last : Location} {component : String} {rest : List String}
      (hdirectory : tree.nodeAt? location = some .directory)
      (hnode : ∀ target, tree.nodeAt? (step location component) ≠ some (.link target))
      (hrest : Leads tree (step location component) rest last) :
      Leads tree location (component :: rest) last
  | through {location last : Location} {component : String} {rest : List String}
      {target : PurePath} (hdirectory : tree.nodeAt? location = some .directory)
      (hlink : tree.nodeAt? (step location component) = some (.link target))
      (hrest : Leads tree (startFrom location target) (target.parts ++ rest) last) :
      Leads tree location (component :: rest) last

/-- A path leads to a location. -/
def LeadsTo (tree : FileTree) (path : PurePath) (location : Location) : Prop :=
  tree.Leads (tree.start path) path.parts location

variable {tree : FileTree} {path : PurePath} {location middle last : Location}
  {components rest : List String} {throughLast : Bool} {links : Nat}

/-! ### What stands at a location -/

/-- Only directories stand somewhere without being listed. -/
theorem mem_nodes_of_nodeAt? {node : FileNode} (h : tree.nodeAt? location = some node)
    (hnode : node ≠ .directory) : (location, node) ∈ tree.nodes := by
  unfold nodeAt? at h
  split at h
  · exact absurd (Option.some.inj h).symm hnode
  · obtain ⟨e, hfound, rfl⟩ := Option.map_eq_some_iff.mp h
    have hlocation : e.1 = location := by simpa using List.find?_some hfound
    exact hlocation ▸ List.mem_of_find?_eq_some hfound

theorem entryAt?_eq_directory_iff :
    tree.entryAt? location = some .directory ↔ tree.nodeAt? location = some .directory := by
  unfold entryAt?
  rcases tree.nodeAt? location with _ | number | _ | target <;> simp

theorem entryAt?_eq_file_iff {content : List UInt8} :
    tree.entryAt? location = some (.file content) ↔
      ∃ number, tree.nodeAt? location = some (.file number) ∧ tree.content number = content := by
  unfold entryAt?
  rcases tree.nodeAt? location with _ | number | _ | target <;> simp

/-- What a path leads to is what stands at a location that it leads to. -/
theorem lookUp_eq_ok_iff {entry : FileEntry} : tree.lookUp path = .ok entry ↔
    ∃ location, tree.locate path = .ok location ∧ tree.entryAt? location = some entry := by
  unfold lookUp
  rcases tree.locate path with fault | found
  · simp
  · rcases hentry : tree.entryAt? found with _ | here <;> simp [hentry]

/-! ### One way -/

theorem Leads.unique {other : Location} (h : tree.Leads location components last)
    (hother : tree.Leads location components other) : last = other := by
  induction h with
  | here => cases hother; rfl
  | down _ hnode _ ih =>
    cases hother with
    | down _ _ hrest => exact ih hrest
    | through _ hlink _ => exact absurd hlink (hnode _)
  | through _ hlink _ ih =>
    cases hother with
    | down _ hnode _ => exact absurd hlink (hnode _)
    | through _ hlink' hrest =>
      rw [hlink] at hlink'
      cases hlink'
      exact ih hrest

/-- A way goes through the places on it. -/
theorem leads_append_iff : tree.Leads location (components ++ rest) last ↔
    ∃ middle, tree.Leads location components middle ∧ tree.Leads middle rest last := by
  constructor
  · intro h
    generalize hall : components ++ rest = all at h
    induction h generalizing components with
    | here location =>
      obtain ⟨rfl, rfl⟩ := List.append_eq_nil_iff.mp hall
      exact ⟨location, .here location, .here location⟩
    | down hdirectory hnode hrest ih =>
      cases components with
      | nil =>
        obtain rfl : rest = _ := hall
        exact ⟨_, .here _, .down hdirectory hnode hrest⟩
      | cons name names =>
        obtain ⟨rfl, htail⟩ := List.cons.inj hall
        obtain ⟨middle, hfirst, hlast⟩ := ih htail
        exact ⟨middle, .down hdirectory hnode hfirst, hlast⟩
    | @through _ _ _ _ target hdirectory hlink hrest ih =>
      cases components with
      | nil =>
        obtain rfl : rest = _ := hall
        exact ⟨_, .here _, .through hdirectory hlink hrest⟩
      | cons name names =>
        obtain ⟨rfl, rfl⟩ := List.cons.inj hall
        obtain ⟨middle, hfirst, hlast⟩ := ih (List.append_assoc target.parts names rest)
        exact ⟨middle, .through hdirectory hlink hfirst, hlast⟩
  · rintro ⟨middle, hfirst, hlast⟩
    induction hfirst with
    | here => exact hlast
    | down hdirectory hnode _ ih => exact .down hdirectory hnode (ih hlast)
    | through hdirectory hlink _ ih =>
      exact .through hdirectory hlink (List.append_assoc _ _ rest ▸ ih hlast)

/-! ### What following a path finds -/

/-- Components advance step by step through directories, up to a link. -/
theorem advance_cons_eq_ok_iff {name : String} {result : Advance} :
    tree.advance location (name :: rest) = .ok result ↔
      tree.nodeAt? location = some .directory ∧ name.utf8ByteSize ≤ nameLimit ∧
        ((∃ target, tree.nodeAt? (step location name) = some (.link target) ∧
            result = .linked (step location name) location target rest) ∨
          (∀ target, tree.nodeAt? (step location name) ≠ some (.link target)) ∧
            tree.advance (step location name) rest = .ok result) := by
  rw [advance]
  rcases tree.nodeAt? location with _ | number | _ | target
  · simp
  · simp
  · by_cases hlong : nameLimit < name.utf8ByteSize
    · simp [hlong, Nat.not_le.mpr hlong]
    · rcases hnode : tree.nodeAt? (step location name) with _ | number | _ | target <;>
        simp [hlong, Nat.le_of_not_lt hlong, eq_comm]
  · simp

/-- It is not for its links that components cannot be gone down. -/
theorem advance_ne_tooManyLinks (location : Location) (components : List String) :
    tree.advance location components ≠ .error .tooManyLinks := by
  induction components generalizing location with
  | nil => simp [advance]
  | cons name rest ih =>
    rw [advance]
    split
    · simp
    · split
      · simp
      · split
        · simp
        · exact ih _
    all_goals simp

theorem leads_of_advance (h : tree.advance location components = .ok (.arrived last)) :
    tree.Leads location components last := by
  induction components generalizing location with
  | nil => cases h; exact .here _
  | cons name rest ih =>
    obtain ⟨hdirectory, -, ⟨target, -, hlinked⟩ | ⟨hnode, hrest⟩⟩ := advance_cons_eq_ok_iff.mp h
    · cases hlinked
    · exact .down hdirectory hnode (ih hrest)

/-- Where a link is met, the components lead on along the path that it holds. -/
theorem leads_of_linked {link directory : Location} {target : PurePath}
    (h : tree.advance location components = .ok (.linked link directory target rest))
    (hrest : tree.Leads (startFrom directory target) (target.parts ++ rest) last) :
    tree.Leads location components last := by
  induction components generalizing location with
  | nil => cases h
  | cons name names ih =>
    obtain ⟨hdirectory, -, ⟨target, hlink, hlinked⟩ | ⟨hnode, hnames⟩⟩ :=
      advance_cons_eq_ok_iff.mp h
    · cases hlinked
      exact .through hdirectory hlink hrest
    · exact .down hdirectory hnode (ih hnames)

theorem follow_of_error {fault : FileFault} (h : tree.advance location components = .error fault) :
    tree.follow throughLast links location components = .error fault := by
  rw [follow.eq_def]
  simp only [h]

theorem follow_of_arrived (h : tree.advance location components = .ok (.arrived last)) :
    tree.follow throughLast links location components = .ok last := by
  rw [follow.eq_def]
  simp only [h]

/-- Where a link is met, it is the end, or its path is followed before the rest. -/
theorem follow_of_linked {link directory : Location} {target : PurePath}
    (h : tree.advance location components = .ok (.linked link directory target rest)) :
    tree.follow throughLast links location components =
      if rest.isEmpty && !throughLast then .ok link
      else
        match links with
        | 0 => .error .tooManyLinks
        | links + 1 =>
          tree.follow throughLast links (startFrom directory target) (target.parts ++ rest) := by
  rw [follow.eq_def]
  cases links <;> simp only [h]

theorem leads_of_follow (h : tree.follow true links location components = .ok last) :
    tree.Leads location components last := by
  fun_induction tree.follow true links location components with
  | case1 => cases h
  | case2 _ _ _ _ harrived =>
    cases h
    exact leads_of_advance harrived
  | case3 _ _ _ _ _ _ _ _ hend => simp at hend
  | case4 => cases h
  | case5 _ _ _ _ _ _ hlinked _ _ ih => exact leads_of_linked hlinked (ih h)

/-- A path that is not too long leads where its components do. -/
theorem locateWith_eq_ok_iff : tree.locateWith throughLast path = .ok location ↔
    path.toString.utf8ByteSize ≤ pathLimit ∧
      tree.follow throughLast linkLimit (tree.start path) path.parts = .ok location := by
  unfold locateWith
  split
  · next hlong => simp [Nat.not_le.mpr hlong]
  · next hshort => simp [Nat.le_of_not_lt hshort]

/-- The location that is found for a path is the one that it leads to. -/
theorem leads_of_locate (h : tree.locate path = .ok location) : tree.LeadsTo path location :=
  leads_of_follow (locateWith_eq_ok_iff.mp h).2

/-! ### The way to a place on a path -/

/-- Components advance to a place on their way and on from there, or meet a link before. -/
theorem advance_append {result : Advance}
    (h : tree.advance location (components ++ rest) = .ok result) :
    (∃ middle, tree.advance location components = .ok (.arrived middle) ∧
        tree.advance middle rest = .ok result) ∨
      ∃ link directory target behind,
        tree.advance location components = .ok (.linked link directory target behind) ∧
          result = .linked link directory target (behind ++ rest) := by
  induction components generalizing location with
  | nil => exact .inl ⟨location, rfl, h⟩
  | cons name names ih =>
    obtain ⟨hdirectory, hshort, ⟨target, hlink, hresult⟩ | ⟨hnode, hnames⟩⟩ :=
      advance_cons_eq_ok_iff.mp h
    · exact .inr ⟨_, _, target, names,
        advance_cons_eq_ok_iff.mpr ⟨hdirectory, hshort, .inl ⟨target, hlink, rfl⟩⟩, hresult⟩
    · have hstep {r : Advance} (hr : tree.advance (step location name) names = .ok r) :
          tree.advance location (name :: names) = .ok r :=
        advance_cons_eq_ok_iff.mpr ⟨hdirectory, hshort, .inr ⟨hnode, hr⟩⟩
      refine (ih hnames).imp ?_ ?_
      · rintro ⟨middle, harrived, hrest⟩
        exact ⟨middle, hstep harrived, hrest⟩
      · rintro ⟨link, directory, target, behind, hlinked, hresult⟩
        exact ⟨link, directory, target, behind, hstep hlinked, hresult⟩

/-- Components can only go on from a directory. -/
theorem nodeAt?_of_advance_cons {name : String} {result : Advance}
    (h : tree.advance location (name :: rest) = .ok result) :
    tree.nodeAt? location = some .directory :=
  (advance_cons_eq_ok_iff.mp h).1

/-- If components lead somewhere, those before the last lead to a directory. -/
theorem exists_follow_of_concat {name : String}
    (h : tree.follow true links location (components ++ [name]) = .ok last) :
    ∃ directory, tree.follow true links location components = .ok directory ∧
      tree.nodeAt? directory = some .directory := by
  generalize hall : components ++ [name] = all at h
  fun_induction tree.follow true links location all generalizing components with
  | case1 => cases h
  | case2 _ _ _ _ harrived =>
    subst hall
    obtain ⟨middle, hmiddle, hrest⟩ | ⟨_, _, _, _, -, hlinked⟩ := advance_append harrived
    · exact ⟨middle, follow_of_arrived hmiddle, nodeAt?_of_advance_cons hrest⟩
    · cases hlinked
  | case3 _ _ _ _ _ _ _ _ hend => simp at hend
  | case4 => cases h
  | case5 _ _ _ target _ _ hlinked _ _ ih =>
    subst hall
    obtain ⟨middle, hmiddle, hrest⟩ | ⟨link, directory, target, behind, hfirst, hresult⟩ :=
      advance_append hlinked
    · exact ⟨middle, follow_of_arrived hmiddle, nodeAt?_of_advance_cons hrest⟩
    · cases hresult
      rw [follow_of_linked hfirst, if_neg (by simp)]
      exact ih (List.append_assoc _ _ _) h

/-! ### Trees without symbolic links -/

/-- There are no symbolic links. A file may still have several names. -/
def LinkFree (tree : FileTree) : Prop :=
  ∀ location target, tree.nodeAt? location ≠ some (.link target)

theorem linkFree_of_nodes (h : ∀ node ∈ tree.nodes, ∀ target, node.2 ≠ .link target) :
    tree.LinkFree :=
  fun _ target hlink ↦ h _ (mem_nodes_of_nodeAt? hlink nofun) target rfl

section LinkFree

variable (hlinks : tree.LinkFree)

include hlinks

/-- Components lead to the location that their text names. -/
theorem Leads.eq_foldl (h : tree.Leads location components last) :
    last = components.foldl step location := by
  induction h with
  | here => rfl
  | down _ _ _ ih => exact ih
  | through _ hlink _ _ => exact absurd hlink (hlinks _ _)

/-- No link is met on the way. -/
theorem advance_cons_eq_ok_iff_of_linkFree {name : String} {result : Advance} :
    tree.advance location (name :: rest) = .ok result ↔
      tree.nodeAt? location = some .directory ∧ name.utf8ByteSize ≤ nameLimit ∧
        tree.advance (step location name) rest = .ok result := by
  have hnode : ∀ target, tree.nodeAt? (step location name) ≠ some (.link target) := hlinks _
  simp [advance_cons_eq_ok_iff, hnode]

theorem arrived_of_advance {result : Advance}
    (h : tree.advance location components = .ok result) : ∃ last, result = .arrived last := by
  induction components generalizing location with
  | nil => cases h; exact ⟨location, rfl⟩
  | cons name rest ih => exact ih ((advance_cons_eq_ok_iff_of_linkFree hlinks).mp h).2.2

/-- Following components is going down along them. -/
theorem follow_eq_ok_iff_advance : tree.follow throughLast links location components = .ok last ↔
    tree.advance location components = .ok (.arrived last) := by
  rcases hadvance : tree.advance location components with fault | result
  · simp [follow_of_error hadvance]
  · obtain ⟨reached, rfl⟩ := arrived_of_advance hlinks hadvance
    simp [follow_of_arrived hadvance]

theorem follow_ne_tooManyLinks :
    tree.follow throughLast links location components ≠ .error .tooManyLinks := by
  rcases hadvance : tree.advance location components with fault | result
  · rw [follow_of_error hadvance]
    rintro ⟨⟩
    exact advance_ne_tooManyLinks _ _ hadvance
  · obtain ⟨reached, rfl⟩ := arrived_of_advance hlinks hadvance
    simp [follow_of_arrived hadvance]

theorem lookUp_ne_tooManyLinks (path : PurePath) : tree.lookUp path ≠ .error .tooManyLinks := by
  unfold lookUp
  split
  · next fault hfault =>
    rintro ⟨⟩
    unfold locate locateWith at hfault
    split at hfault
    · cases hfault
    · exact follow_ne_tooManyLinks hlinks hfault
  · split <;> simp

end LinkFree

/-! ### Resolving without links -/

theorem placeOfPath_concat (slashes : Nat) (parts : List String) (component : String) :
    tree.placeOfPath ⟨slashes, parts ++ [component]⟩ =
      step (tree.placeOfPath ⟨slashes, parts⟩) component := by
  rw [placeOfPath, List.foldl_append]
  rfl

/-- A path one step up names the place one step up. -/
theorem placeOfPath_up (path : PurePath) :
    tree.placeOfPath path.up = (tree.placeOfPath path).dropLast := by
  unfold PurePath.up
  split
  · exact placeOfPath_concat path.slashes path.parts ".."
  · next hup =>
    obtain ⟨slashes, parts⟩ := path
    rcases List.eq_nil_or_concat parts with rfl | ⟨above, name, rfl⟩
    · have hslashes : slashes ≠ 0 := by simpa using hup
      simp [PurePath.parent, placeOfPath, start, startFrom, hslashes]
    · have hname : name ≠ ".." := by
        rintro rfl
        simp at hup
      rw [List.concat_eq_append, placeOfPath_concat, step, if_neg hname, List.dropLast_concat,
        PurePath.parent, List.dropLast_concat]

section LinkFree

variable (hlinks : tree.LinkFree)

include hlinks

theorem settleWith_of_linkFree (enter : PurePath → PurePath → PurePath → PurePath × Bool)
    (path : PurePath) (components : List String) :
    tree.placeOfPath (tree.settleWith enter path components).1 =
      components.foldl step (tree.placeOfPath path) := by
  induction components generalizing path with
  | nil => rfl
  | cons name rest ih =>
    rw [settleWith, List.foldl_cons, step]
    split
    · rw [ih, placeOfPath_up]
    · next hname =>
      dsimp only
      split
      · next hlink => exact absurd hlink (hlinks _ _)
      · rw [ih, placeOfPath_concat, step, if_neg hname]

/-- A path is resolved to the location that its text names. -/
theorem resolve_of_linkFree (path : PurePath) : tree.resolve path = .ok (tree.placeOfPath path) := by
  have hstart : tree.placeOfPath ⟨min 1 path.slashes, []⟩ = tree.start path := by
    have hslashes : min 1 path.slashes = 0 ↔ path.slashes = 0 := by omega
    simp only [placeOfPath, start, startFrom, List.foldl_nil, hslashes]
  have hsettled : tree.settled path = tree.placeOfPath path := by
    unfold settled settle
    rw [settleWith_of_linkFree hlinks, hstart, placeOfPath]
  unfold resolve
  rw [hsettled]
  split
  · next hmany => exact absurd hmany (lookUp_ne_tooManyLinks hlinks _)
  · rfl

end LinkFree

end FileTree
end Folio
