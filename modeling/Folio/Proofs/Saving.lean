import Folio.Command.Run
import Folio.Proofs.Conversion
import Folio.Proofs.Directories
import Folio.Proofs.PathText

/-!
# A run is all or nothing

A run writes one document, at the end, or leaves the files as they were: they stay the same unless
the input has been converted (`System.Converts`), and a run with status 0 has written the conversion
of the input and made the directories above it, and nothing else (`FileTree.Gains`). Without an output
the document comes to the same place as with one that names the directory of the input, however that
is spelled (`NamesParent`, `leadsTo_documentIn_iff`); if it is spelled as the path of the input spells
it, the path of the document is the same too. The input is left alone unless the document leads to the
file of the input itself (`FileTree.SameFile`). Since the name of a document is never that of a
Markdown file, this takes a symbolic link or a second name (`not_sameFile_documentIn`).
`run_all_or_nothing` puts this together, and `run_all_or_nothing_linkedNote` shows what links can do.
-/

set_option autoImplicit false
set_option relaxedAutoImplicit false

namespace Folio

/-- If a path leads somewhere, the path above it leads to a directory. -/
theorem FileTree.lookUp_parent {tree : FileTree} {path : PurePath} {location : Location}
    (h : tree.locate path = .ok location) (hname : path.name ≠ "") :
    tree.lookUp path.parent = .ok .directory := by
  obtain ⟨hshort, hfollow⟩ := locateWith_eq_ok_iff.mp h
  rw [PurePath.parts_eq_concat hname] at hfollow
  obtain ⟨directory, habove, hdirectory⟩ := exists_follow_of_concat hfollow
  have hparent : path.parent.toString.utf8ByteSize ≤ pathLimit :=
    path.utf8ByteSize_parent_le.trans (max_le (by decide) hshort)
  exact lookUp_eq_ok_iff.mpr ⟨directory, locateWith_eq_ok_iff.mpr ⟨hparent, habove⟩,
    entryAt?_eq_directory_iff.mpr hdirectory⟩

/-- The name of the document that is made from an input. -/
def documentName (input : PurePath) : String := input.stem ++ documentSuffix

/-- The path of the document that is made from an input in a folder. -/
def documentIn (folder input : PurePath) : PurePath :=
  ⟨folder.slashes, folder.parts ++ [documentName input]⟩

/-- An output that names the directory of an input, in whatever way it is spelled. -/
structure NamesParent (files : FileTree) (input : PurePath) (output : String) : Prop where
  free : (PurePath.ofString output).holdsNul = false
  directory : files.lookUp (.ofString output) = .ok .directory
  same : files.locate (.ofString output) = files.locate input.parent

section Documents

variable {files : FileTree} {input folder : PurePath}

theorem toList_documentName (input : PurePath) :
    (documentName input).toList = input.stem.toList ++ ".docx".toList :=
  String.toList_append

/-- The name of a document is a component that leads one step down. -/
theorem documentName_ne (input : PurePath) :
    documentName input ≠ "" ∧ documentName input ≠ "." ∧ documentName input ≠ ".." := by
  have hlength : 5 ≤ (documentName input).toList.length := by
    rw [toList_documentName, List.length_append]
    exact Nat.le_add_left 5 _
  refine ⟨?_, ?_, ?_⟩ <;> intro h <;> rw [h] at hlength <;> revert hlength <;> decide

theorem slash_not_mem_documentName (h : input.Spelled) : '/' ∉ (documentName input).toList := by
  have hname : '/' ∉ input.name.toList := by
    rcases hlast : input.parts.getLast? with _ | last
    · simp [PurePath.name, hlast]
    · rw [PurePath.name, hlast]
      exact (h.parts last (List.mem_of_getLast? hlast)).2.2
  rw [← PurePath.stem_append_suffix, String.toList_append, List.mem_append, not_or] at hname
  rw [toList_documentName, List.mem_append, not_or]
  exact ⟨hname.1, by decide⟩

/-- The name of a document is put behind the directory that it is to be in. -/
theorem join_documentName (h : input.Spelled) (folder : PurePath) :
    folder.join (.ofString (documentName input)) = documentIn folder input := by
  obtain ⟨hempty, hpoint, -⟩ := documentName_ne input
  have hspelled : (⟨0, [documentName input]⟩ : PurePath).Spelled :=
    ⟨Nat.zero_le 2, by simpa using ⟨hempty, hpoint, slash_not_mem_documentName h⟩⟩
  have htext : PurePath.toString ⟨0, [documentName input]⟩ = documentName input := by
    simp [PurePath.toString, joined]
  have hpath := hspelled.ofString_toString
  rw [htext] at hpath
  rw [hpath]
  rfl

theorem parent_documentIn (folder input : PurePath) : (documentIn folder input).parent = folder := by
  simp [documentIn, PurePath.parent]

/-- A document comes to stand beside its input if there is no output. -/
theorem outputPath_none (hname : input.name ≠ "") :
    outputPath files input none = .ok (documentIn input.parent input) := by
  simp [outputPath, PurePath.withSuffix?, hname, documentIn, documentName, PurePath.parent]

/-- A document comes to stand in the directory that an output names. -/
theorem outputPath_some (h : input.Spelled) {output : String} (hne : output ≠ "")
    (hfree : (PurePath.ofString output).holdsNul = false)
    (hdirectory : files.lookUp (.ofString output) = .ok .directory) :
    outputPath files input (some output) = .ok (documentIn (.ofString output) input) := by
  have hjoin := join_documentName h (.ofString output)
  rw [documentName] at hjoin
  have hasked : (some output).filter (· ≠ "") = some output := by simp [Option.filter, hne]
  rw [outputPath, hasked]
  simp [hfree, hdirectory, hjoin]

/-- A document is where its name leads from its folder. -/
theorem leadsTo_documentIn_iff {location : Location} :
    files.LeadsTo (documentIn folder input) location ↔
      ∃ directory, files.LeadsTo folder directory ∧
        files.Leads directory [documentName input] location :=
  FileTree.leads_append_iff

theorem name_ne_of_isMarkdownPath (h : isMarkdownPath input = true) :
    input.name ≠ "" ∧ input.name ≠ ".." := by
  refine ⟨?_, ?_⟩ <;> intro hname <;> rw [isMarkdownPath, PurePath.suffix, hname] at h <;>
    revert h <;> decide

/-- The name of a document is not that of its input. -/
theorem documentName_ne_name (hmarkdown : isMarkdownPath input = true) :
    documentName input ≠ input.name := by
  intro hnames
  -- the stem is the same, so the suffix of the input would have to be that of a document
  rw [← PurePath.stem_append_suffix, documentName] at hnames
  have hsuffix : documentSuffix = input.suffix := by
    simpa [← String.toList_inj] using hnames
  rw [isMarkdownPath, ← hsuffix] at hmarkdown
  revert hmarkdown
  decide

/-- Folders that are found at one place are one place for all that is in them. -/
theorem leadsTo_iff_of_locate_eq {other : PurePath} {location : Location}
    (hfolder : files.locate folder = .ok location) (hsame : files.locate folder = files.locate other)
    (place : Location) : files.LeadsTo folder place ↔ files.LeadsTo other place := by
  have hfolder' := FileTree.leads_of_locate hfolder
  have hother := FileTree.leads_of_locate (hsame ▸ hfolder)
  exact ⟨fun h ↦ hfolder'.unique h ▸ hother, fun h ↦ hother.unique h ▸ hfolder'⟩

end Documents

/-! ### Files with several names -/

namespace FileTree

/-- Two paths lead to one file. -/
def SameFile (tree : FileTree) (path other : PurePath) : Prop :=
  ∃ number, tree.LeadsToFile path number ∧ tree.LeadsToFile other number

/-- No file has two names. -/
def SingleNamed (tree : FileTree) : Prop :=
  ∀ location other number, tree.nodeAt? location = some (.file number) →
    tree.nodeAt? other = some (.file number) → location = other

theorem singleNamed_of_nodes {tree : FileTree}
    (h : ∀ e ∈ tree.nodes, ∀ f ∈ tree.nodes, e.2 = f.2 → e.1 = f.1) : tree.SingleNamed :=
  fun _ _ _ hfile hother ↦
    h _ (mem_nodes_of_nodeAt? hfile nofun) _ (mem_nodes_of_nodeAt? hother nofun) rfl

end FileTree

/-- Without symbolic links and second names, a document in the directory of a Markdown file is another
file. -/
theorem not_sameFile_documentIn {files : FileTree} {input folder : PurePath}
    (hlinks : files.LinkFree) (hsingle : files.SingleNamed)
    (hmarkdown : isMarkdownPath input = true)
    (hfolder : ∀ place, files.LeadsTo folder place ↔ files.LeadsTo input.parent place) :
    ¬ files.SameFile (documentIn folder input) input := by
  obtain ⟨hname, hup⟩ := name_ne_of_isMarkdownPath hmarkdown
  rintro ⟨number, ⟨place, hplace, hfile⟩, other, hother, hfile'⟩
  obtain rfl := hsingle place other number hfile hfile'
  obtain ⟨directory, hdirectory, hdocument⟩ :=
    leadsTo_documentIn_iff.mp (FileTree.leads_of_locate hplace)
  have hinput := FileTree.leads_of_locate hother
  rw [FileTree.LeadsTo, PurePath.parts_eq_concat hname] at hinput
  obtain ⟨directory', hdirectory', hinput⟩ := FileTree.leads_append_iff.mp hinput
  obtain rfl : directory = directory' := ((hfolder _).mp hdirectory).unique hdirectory'
  have hnames := (hdocument.eq_foldl hlinks).symm.trans (hinput.eq_foldl hlinks)
  simp only [List.foldl_cons, List.foldl_nil, FileTree.step, (documentName_ne input).2.2, hup,
    if_false, List.append_cancel_left_eq, List.cons.injEq, and_true] at hnames
  exact documentName_ne_name hmarkdown hnames

/-! ### What is read -/

/-- A byte of ASCII is a character. -/
theorem Utf8.decodeFrom_of_lt {first : UInt8} (h : first.toNat < 0x80) (read : List Char)
    (position : Nat) (rest : List UInt8) : decodeFrom read position (first :: rest) =
      decodeFrom (Char.ofNat first.toNat :: read) (position + 1) rest := by
  have hnone : following? first.toNat = some 0 := by rw [following?, if_pos h]
  rw [decodeFrom, hnone]
  rfl

theorem of_readMarkdown_eq_ok {files : FileTree} {input : PurePath} {text : String}
    (h : readMarkdown files input = .ok text) :
    isMarkdownPath input = true ∧ ∃ content, files.lookUp input = .ok (.file content) := by
  unfold readMarkdown at h
  dsimp only at h
  split at h
  · cases h
  · split at h
    · cases h
    · cases h
    · next entry hentry =>
      split at h
      · cases h
      · next hmarkdown =>
        split at h
        · cases h
        · exact ⟨by simpa using hmarkdown, _, hentry⟩

namespace System

variable {system : System} {arguments : Arguments} {input output : PurePath} {document : Document}

/-- What the input of a run is converted in. -/
def surroundings (system : System) (settings : Settings) (input : PurePath) : Surroundings where
  settings := settings
  web := system.web
  files := system.files
  assetRoot := some input.parent

/-- A run gets as far as a document: its paths and its settings can be told, the input is a Markdown
text, and its conversion gives the document. -/
def Converts (system : System) (arguments : Arguments) (input output : PurePath)
    (document : Document) : Prop :=
  system.paths arguments = .ok (input, output) ∧
    ∃ settings text,
      Settings.load system.environment system.homes system.files arguments.config = .ok settings ∧
      readMarkdown system.files input = .ok text ∧
      (convertMarkdown (system.surroundings settings input) text).2 = .ok document

theorem converts_iff : system.Converts arguments input output document ↔
    system.paths arguments = .ok (input, output) ∧
      (system.convert arguments input output).result = .ok document := by
  refine and_congr_right fun _ ↦ ?_
  unfold convert
  rcases Settings.load system.environment system.homes system.files arguments.config
    with e | settings
  · simp
  · rcases readMarkdown system.files input with e | text
    · simp
    · simp only [Except.ok.injEq, exists_and_left, exists_eq_left', surroundings]
      rcases (convertMarkdown _ text).2 with e | d <;> simp [Except.mapError]

/-- A run leaves the files as they were and does not end with status 0, or it converts its input,
and then writes the document. -/
theorem run_cases (system : System) (arguments : Arguments) :
    ((system.run arguments).files = system.files ∧ (system.run arguments).result ≠ .ok 0) ∨
      ∃ input output document, system.Converts arguments input output document ∧
        ∃ fault?, writeOutput system.files output (system.package document) =
            ((system.run arguments).files, fault?) ∧
          (system.run arguments).result = (match fault? with
            | none => .ok 0
            | some fault => .error (.output fault)) ∧
          (fault? = none → (system.run arguments).saved = some (output, document)) := by
  unfold run
  rcases hpaths : system.paths arguments with fault | ⟨input, output⟩
  · exact .inl ⟨rfl, nofun⟩
  · dsimp only
    rcases hresult : (system.convert arguments input output).result with fault | document
    · left
      dsimp only
      split
      · exact ⟨rfl, by simp⟩
      · exact ⟨rfl, nofun⟩
    · right
      refine ⟨input, output, document, converts_iff.mpr ⟨hpaths, hresult⟩, ?_⟩
      dsimp only
      rcases writeOutput system.files output (system.package document) with ⟨files, _ | fault⟩
      · exact ⟨none, rfl, rfl, fun _ ↦ rfl⟩
      · exact ⟨some fault, rfl, rfl, nofun⟩

/-- A run that ends with status 0 has written the document and nothing else. -/
theorem gains_of_run_eq_zero (h : (system.run arguments).result = .ok 0) :
    ∃ input output document, system.Converts arguments input output document ∧
      (system.run arguments).saved = some (output, document) ∧
      system.files.Gains (system.run arguments).files output (system.package document) := by
  obtain ⟨-, hresult⟩ | ⟨input, output, document, hconverts, fault?, hwrite, hresult, hsaved⟩ :=
    system.run_cases arguments
  · exact absurd h hresult
  · rcases fault? with _ | fault
    · exact ⟨input, output, document, hconverts, hsaved rfl, writeOutput_gains hwrite⟩
    · rw [hresult] at h
      cases h

/-- A run leaves the files as they were if it ends with status 1 or does not convert its input. -/
theorem files_run_of_not_converts
    (h : (system.run arguments).result = .ok 1 ∨
      ¬ ∃ input output document, system.Converts arguments input output document) :
    (system.run arguments).files = system.files := by
  obtain ⟨hfiles, -⟩ | ⟨input, output, document, hconverts, fault?, -, hresult, -⟩ :=
    system.run_cases arguments
  · exact hfiles
  · rcases h with hone | hnot
    · rw [hresult] at hone
      rcases fault? with _ | fault <;> cases hone
    · exact absurd ⟨input, output, document, hconverts⟩ hnot

/-- A run leaves its input alone if the document comes into a directory that is there and is another
file. -/
theorem lookUp_run
    (hinput : (PurePath.ofString arguments.input).expanded? system.homes = some input)
    (houtput : ∀ output, outputPath system.files input arguments.output = .ok output →
      isMarkdownPath input = true → (∃ content, system.files.lookUp input = .ok (.file content)) →
        system.files.lookUp output.parent = .ok .directory ∧
          ¬ system.files.SameFile output input) :
    (system.run arguments).files.lookUp input = system.files.lookUp input := by
  obtain ⟨hfiles, -⟩ | ⟨_, output, document, ⟨hpaths, _, _, -, hread, -⟩, fault?, hwrite, -⟩ :=
    system.run_cases arguments
  · rw [hfiles]
  · rw [paths, hinput] at hpaths
    dsimp only at hpaths
    split at hpaths
    · cases hpaths
    · next hpath =>
      cases hpaths
      obtain ⟨hmarkdown, content, hlookUp⟩ := of_readMarkdown_eq_ok hread
      obtain ⟨hparent, hother⟩ := houtput output hpath hmarkdown ⟨content, hlookUp⟩
      obtain ⟨number, hnumber, hcontent⟩ := FileTree.lookUp_eq_file_iff_leadsToFile.mp hlookUp
      obtain ⟨hnumber', hcontent'⟩ := writeOutput_keeps hwrite hparent hnumber
        fun hsame ↦ hother ⟨number, hsame, hnumber⟩
      rw [hlookUp]
      exact FileTree.lookUp_eq_file_iff_leadsToFile.mpr
        ⟨number, hnumber', hcontent'.trans hcontent⟩

end System

section Beside

variable {files : FileTree} {input : PurePath} {folder : String} {output? : Option String}

/-- An output that brings a document beside its input: none, or one that names the directory of the
input. -/
def IsBeside (files : FileTree) (input : PurePath) (output? : Option String) : Prop :=
  output? = none ∨ ∃ folder, output? = some folder ∧ NamesParent files input folder

/-- An output that names the directory of an input brings the document beside it. -/
theorem NamesParent.exists_documentIn (h : NamesParent files input folder)
    (hspelled : input.Spelled) (hname : input.name ≠ "") :
    ∃ directory, outputPath files input (some folder) = .ok (documentIn directory input) ∧
      files.lookUp directory = .ok .directory ∧
      (∀ place, files.LeadsTo directory place ↔ files.LeadsTo input.parent place) ∧
      (PurePath.ofString folder = input.parent → directory = input.parent) := by
  obtain ⟨location, hlocate, hentry⟩ := FileTree.lookUp_eq_ok_iff.mp h.directory
  by_cases hempty : folder = ""
  · subst hempty
    have hnone : outputPath files input none = .ok (documentIn input.parent input) :=
      outputPath_none hname
    exact ⟨input.parent, hnone, FileTree.lookUp_eq_ok_iff.mpr ⟨location, h.same ▸ hlocate, hentry⟩,
      fun _ ↦ Iff.rfl, fun _ ↦ rfl⟩
  · exact ⟨.ofString folder, outputPath_some hspelled hempty h.free h.directory, h.directory,
      leadsTo_iff_of_locate_eq hlocate h.same, id⟩

/-- A document that is to come beside an input that is a file comes into the directory of the input. -/
theorem IsBeside.exists_documentIn (h : IsBeside files input output?) (hspelled : input.Spelled)
    (hname : input.name ≠ "") {content : List UInt8}
    (hinput : files.lookUp input = .ok (.file content)) :
    ∃ directory, outputPath files input output? = .ok (documentIn directory input) ∧
      files.lookUp directory = .ok .directory ∧
      ∀ place, files.LeadsTo directory place ↔ files.LeadsTo input.parent place := by
  rcases h with rfl | ⟨folder, rfl, hfolder⟩
  · obtain ⟨location, hlocate, -⟩ := FileTree.lookUp_eq_ok_iff.mp hinput
    exact ⟨input.parent, outputPath_none hname, FileTree.lookUp_parent hlocate hname,
      fun _ ↦ Iff.rfl⟩
  · obtain ⟨directory, hpath, hdirectory, hsame, -⟩ := hfolder.exists_documentIn hspelled hname
    exact ⟨directory, hpath, hdirectory, hsame⟩

/-- The document comes to the same place without an output as with one that names the directory of the
input. -/
theorem NamesParent.exists_outputs (h : NamesParent files input folder) (hspelled : input.Spelled)
    (hname : input.name ≠ "") : ∃ inside beside,
      outputPath files input (some folder) = .ok inside ∧
      outputPath files input none = .ok beside ∧
      (∀ place, files.LeadsTo inside place ↔ files.LeadsTo beside place) ∧
      (PurePath.ofString folder = input.parent → inside = beside) := by
  obtain ⟨directory, hpath, -, hsame, hequal⟩ := h.exists_documentIn hspelled hname
  refine ⟨_, _, hpath, outputPath_none hname, fun place ↦ ?_, fun htext ↦ by rw [hequal htext]⟩
  simp only [leadsTo_documentIn_iff, hsame]

end Beside

namespace System

variable {system : System} {arguments : Arguments} {input : PurePath}

/-- A run depends on what is asked for as output only by the path of the document. -/
theorem run_congr (hinput : (PurePath.ofString arguments.input).expanded? system.homes = some input)
    {output? other? : Option String}
    (h : outputPath system.files input output? = outputPath system.files input other?) :
    system.run { arguments with output := output? } =
      system.run { arguments with output := other? } := by
  have hpaths : system.paths { arguments with output := output? } =
      system.paths { arguments with output := other? } := by
    simp only [paths, hinput, h]
  rw [run, run, hpaths]
  rfl

/-- A run that brings the document beside its input leaves the input alone unless the document is the
same file, which it is not without symbolic links and second names. -/
theorem lookUp_run_of_isBeside
    (hinput : (PurePath.ofString arguments.input).expanded? system.homes = some input)
    (hbeside : IsBeside system.files input arguments.output)
    (hother : (∀ output, outputPath system.files input arguments.output = .ok output →
        ¬ system.files.SameFile output input) ∨
      (system.files.LinkFree ∧ system.files.SingleNamed)) :
    (system.run arguments).files.lookUp input = system.files.lookUp input := by
  have hspelled : input.Spelled := (PurePath.spelled_ofString _).expanded? hinput
  refine lookUp_run hinput fun output houtput hmarkdown ⟨content, hlookUp⟩ ↦ ?_
  obtain ⟨directory, hpath, hdirectory, hsame⟩ :=
    hbeside.exists_documentIn hspelled (name_ne_of_isMarkdownPath hmarkdown).1 hlookUp
  rw [hpath] at houtput
  cases houtput
  refine ⟨(parent_documentIn directory input).symm ▸ hdirectory, ?_⟩
  rcases hother with hother | ⟨hlinks, hsingle⟩
  · exact hother _ hpath
  · exact not_sameFile_documentIn hlinks hsingle hmarkdown hsame

end System

/-- Nothing is written if a document cannot be rendered. -/
theorem saveDocument_of_fault {env : Surroundings} {blocks : List Block} {e : Failure}
    (h : (render env blocks).2 = .error e) (package : Packager) (path : PurePath) :
    (saveDocument package env path blocks).2 = (env.files, .error (.conversion e)) := by
  rcases hrender : render env blocks with ⟨s, result⟩
  rw [hrender] at h
  obtain rfl : result = .error e := h
  simp [saveDocument, hrender]

/-- A run that converts no input, or ends with status 1, leaves the files as they were. A run with
status 0 has written the conversion of its input and made the directories above it, and nothing
else. The document comes to the same place without an output as with one that names the directory of
the input, and has the same path if this is named as in the path of the input; in both cases the input
is left alone unless the document is the same file, for which there has to be a symbolic link or a
file with two names. Saving a document that cannot be rendered leaves the files as they were. -/
theorem run_all_or_nothing (system : System) (arguments : Arguments) :
    ((system.run arguments).result = .ok 1 ∨
        (¬ ∃ input output document, system.Converts arguments input output document) →
      (system.run arguments).files = system.files) ∧
    ((system.run arguments).result = .ok 0 → ∃ input output document,
      system.Converts arguments input output document ∧
        (system.run arguments).saved = some (output, document) ∧
        system.files.Gains (system.run arguments).files output (system.package document)) ∧
    (∀ input, (PurePath.ofString arguments.input).expanded? system.homes = some input →
      PurePath.ofString input.parent.toString = input.parent ∧
      (∀ folder, NamesParent system.files input folder → input.name ≠ "" → ∃ inside beside,
        outputPath system.files input (some folder) = .ok inside ∧
        outputPath system.files input none = .ok beside ∧
        (∀ place, system.files.LeadsTo inside place ↔ system.files.LeadsTo beside place) ∧
        (PurePath.ofString folder = input.parent → inside = beside ∧
          system.run { arguments with output := some folder } =
            system.run { arguments with output := none })) ∧
      (IsBeside system.files input arguments.output →
        ((∀ output, outputPath system.files input arguments.output = .ok output →
            ¬ system.files.SameFile output input) ∨
          (system.files.LinkFree ∧ system.files.SingleNamed) →
        (system.run arguments).files.lookUp input = system.files.lookUp input))) ∧
    ∀ package env path blocks e, (render env blocks).2 = .error e →
      (saveDocument package env path blocks).2 = (env.files, .error (.conversion e)) := by
  refine ⟨System.files_run_of_not_converts, System.gains_of_run_eq_zero, fun input hinput ↦ ?_,
    fun package _ path _ _ h ↦ saveDocument_of_fault h package path⟩
  have hspelled : input.Spelled := (PurePath.spelled_ofString _).expanded? hinput
  refine ⟨hspelled.parent.ofString_toString, fun folder hfolder hname ↦ ?_,
    System.lookUp_run_of_isBeside hinput⟩
  obtain ⟨inside, beside, hinside, hbeside, hsame, hequal⟩ := hfolder.exists_outputs hspelled hname
  refine ⟨inside, beside, hinside, hbeside, hsame, fun htext ↦ ⟨hequal htext, ?_⟩⟩
  exact System.run_congr hinput (by rw [hinside, hbeside, hequal htext])

/-! ### A note and its links -/

/-- The content of a note: a line of code. -/
def noteContent : List UInt8 := [32, 32, 32, 32, 97]

/-- A system in which every document becomes the same two bytes. -/
def noteSystem (files : FileTree) : System where
  files := files
  web := fun _ _ ↦ .response 404 [] none
  package := fun _ ↦ [80, 75]

/-- A run that is to convert the note. -/
def noteArguments : Arguments := { input := "a.b.md" }

theorem noteSystem_converts {files : FileTree}
    (hnote : files.lookUp (.ofString "a.b.md") = .ok (.file noteContent)) {document : Document}
    (hdocument : (render ((noteSystem files).surroundings {} (.ofString "a.b.md"))
      [.code ["a"]]).2 = .ok document) :
    (noteSystem files).Converts noteArguments (.ofString "a.b.md") (.ofString "a.b.docx")
      document := by
  have htext : readUtf8 noteContent = .ok "    a".toList := by
    rw [noteContent, readUtf8, Utf8.decodeFrom_of_lt (by decide), Utf8.decodeFrom_of_lt (by decide),
      Utf8.decodeFrom_of_lt (by decide), Utf8.decodeFrom_of_lt (by decide),
      Utf8.decodeFrom_of_lt (by decide), Utf8.decodeFrom]
    rfl
  have hread : readMarkdown files (.ofString "a.b.md") = .ok "    a" := by
    have hfile : readMarkdown files (.ofString "a.b.md") = markdownText "a.b.md" noteContent := by
      unfold readMarkdown
      rw [hnote]
      rfl
    rw [hfile, markdownText, htext]
    rfl
  have hparse : Markdown.parse "    a" = .ok [.code ["a"]] :=
    Markdown.parse_indentedLine (List.cons_ne_nil 'a' []) rfl
  have hsettings : Settings.load [] (fun _ ↦ none) files none = .ok {} := by
    rw [Settings.load, Settings.loadWith, Settings.ofEnvironment_nil]
    rfl
  exact ⟨rfl, {}, "    a", hsettings, hread,
    (convertWith_result (readBlocks_of_parse rfl hparse)).trans hdocument⟩

/-- A run on a note comes to its end if the document can be written. -/
theorem noteSystem_run {files after : FileTree}
    (hnote : files.lookUp (.ofString "a.b.md") = .ok (.file noteContent)) {document : Document}
    (hdocument : (render ((noteSystem files).surroundings {} (.ofString "a.b.md"))
      [.code ["a"]]).2 = .ok document)
    (hwrite : writeOutput files (.ofString "a.b.docx") [80, 75] = (after, none)) :
    ((noteSystem files).run noteArguments).result = .ok 0 ∧
      ((noteSystem files).run noteArguments).files = after := by
  obtain ⟨hpaths, hconverted⟩ := System.converts_iff.mp (noteSystem_converts hnote hdocument)
  have hwrite : writeOutput (noteSystem files).files (.ofString "a.b.docx")
      ((noteSystem files).package document) = (after, none) := hwrite
  rw [System.run, hpaths]
  dsimp only
  rw [hconverted]
  dsimp only
  rw [hwrite]
  exact ⟨rfl, rfl⟩

/-- A note in the working directory. -/
def noteFiles : FileTree where
  workingDirectory := ["home"]
  nodes := [(["home", "a.b.md"], .file 0)]
  contents := [(0, noteContent)]

/-- The run comes to its end, and the directory of its input can be named in a roundabout way. -/
theorem run_all_or_nothing_note :
    ((noteSystem noteFiles).run noteArguments).result = .ok 0 ∧
    NamesParent noteFiles (.ofString "a.b.md") "../home/." ∧
    (∃ input output document, (noteSystem noteFiles).Converts noteArguments input output document ∧
      ((noteSystem noteFiles).run noteArguments).saved = some (output, document) ∧
      noteFiles.Gains ((noteSystem noteFiles).run noteArguments).files output [80, 75]) ∧
    (∃ inside beside,
      outputPath noteFiles (.ofString "a.b.md") (some "../home/.") = .ok inside ∧
      outputPath noteFiles (.ofString "a.b.md") none = .ok beside ∧
      ∀ place, noteFiles.LeadsTo inside place ↔ noteFiles.LeadsTo beside place) ∧
    ((noteSystem noteFiles).run noteArguments).files.lookUp (.ofString "a.b.md") =
      .ok (.file noteContent) := by
  have hresult : ((noteSystem noteFiles).run noteArguments).result = .ok 0 :=
    (noteSystem_run (by decide) rfl rfl).1
  have hfolder : NamesParent noteFiles (.ofString "a.b.md") "../home/." :=
    ⟨by decide, by decide, by decide⟩
  obtain ⟨-, hgains, hinput, -⟩ := run_all_or_nothing (noteSystem noteFiles) noteArguments
  obtain ⟨-, hplace, hkept⟩ := hinput (.ofString "a.b.md") rfl
  obtain ⟨inside, beside, hinside, hbeside, hsame, -⟩ := hplace "../home/." hfolder (by decide)
  refine ⟨hresult, hfolder, hgains hresult, ⟨inside, beside, hinside, hbeside, hsame⟩, ?_⟩
  rw [hkept (.inl rfl) (.inr ⟨FileTree.linkFree_of_nodes (by simp [noteSystem, noteFiles]),
    FileTree.singleNamed_of_nodes (by simp [noteSystem, noteFiles])⟩)]
  decide

/-- A note in a folder of the working directory. -/
def filedNote : FileTree :=
  { noteFiles with nodes := [(["home", "sub"], .directory), (["home", "sub", "a.md"], .file 0)] }

/-- The note in the working directory, which has the name of its document as a second name. -/
def linkedNote : FileTree :=
  { noteFiles with nodes := [(["home", "a.b.md"], .file 0), (["home", "a.b.docx"], .file 0)] }

/-- A directory can be named in several ways, and then the paths of documents in it differ. And the
document of a note is written over the note if this has its name as a second name. -/
theorem run_all_or_nothing_linkedNote :
    (NamesParent filedNote (.ofString "sub/a.md") "sub/../sub" ∧
      outputPath filedNote (.ofString "sub/a.md") (some "sub/../sub") =
        .ok (.ofString "sub/../sub/a.docx") ∧
      outputPath filedNote (.ofString "sub/a.md") none = .ok (.ofString "sub/a.docx") ∧
      PurePath.ofString "sub/../sub/a.docx" ≠ PurePath.ofString "sub/a.docx") ∧
    linkedNote.lookUp (.ofString "a.b.md") = .ok (.file noteContent) ∧
    ((noteSystem linkedNote).run noteArguments).result = .ok 0 ∧
    ((noteSystem linkedNote).run noteArguments).files.lookUp (.ofString "a.b.md") =
      .ok (.file [80, 75]) := by
  obtain ⟨hresult, hfiles⟩ := @noteSystem_run linkedNote _ (by decide) _ rfl rfl
  refine ⟨⟨⟨by decide, by decide, by decide⟩, by decide, by decide, by decide⟩, by decide, hresult,
    ?_⟩
  rw [hfiles]
  decide

end Folio
