import Folio.Proofs.BlockStream
import Folio.Proofs.Styling
import Mathlib.Data.List.DropRight

/-!
# Lines of code

A fenced code block is the lines of its content, each followed by a line feed. Reading it loses the
blank lines at its end (`keptLines`), since line feeds at the end of the content are dropped however
many they are (`codeLines_append_lineFeeds`); all other lines are read as they are, blank ones among
them. Writing a code block gives one paragraph for each of its lines, in order (`fence_lines`).
-/

set_option autoImplicit false
set_option relaxedAutoImplicit false

namespace Folio

open Markdown Word

/-! ### Reading lines -/

/-- The lines that are read from a code block with some lines: all but the blank lines at its end, or
one blank line if there is no other. -/
def keptLines (lines : List String) : List String :=
  let kept := lines.rdropWhile (· = "")
  if kept.isEmpty then [""] else kept

/-- Lines and the blank lines behind them. -/
theorem exists_replicate_of_rdropWhile (lines : List String) :
    ∃ n, lines = lines.rdropWhile (· = "") ++ List.replicate n "" := by
  have hblank : ∀ line ∈ lines.rtakeWhile (· = ""), line = "" := by
    intro line hline
    simpa using List.mem_rtakeWhile_imp hline
  refine ⟨(lines.rtakeWhile (· = "")).length, ?_⟩
  rw [← List.eq_replicate_of_mem hblank, List.rdropWhile_append_rtakeWhile]

/-- Exactly the lines without a blank one at their end are all kept, and a blank line alone. -/
theorem keptLines_eq_iff {lines : List String} (hne : lines ≠ []) :
    keptLines lines = lines ↔ lines = [""] ∨ lines.getLast? ≠ some "" := by
  have hlast : lines.rdropWhile (· = "") = lines ↔ lines.getLast? ≠ some "" := by
    rw [List.rdropWhile_eq_self_iff, List.getLast?_eq_some_getLast hne]
    simp [hne]
  unfold keptLines
  by_cases hkept : lines.rdropWhile (· = "") = []
  · have hblank : lines.getLast? = some "" := by
      rw [List.getLast?_eq_some_getLast hne]
      simpa using List.rdropWhile_eq_nil_iff.mp hkept _ (List.getLast_mem hne)
    simp [hkept, hblank, eq_comm]
  · rw [← hlast]
    have hsingle : lines ≠ [""] := by
      rintro rfl
      exact hkept rfl
    simp [hkept, hsingle]

/-- However many line feeds are added to some content, its lines are the same. -/
theorem codeLines_append_lineFeeds {content : String} (hne : content ≠ "") (n : Nat) :
    codeLines (content ++ String.ofList (List.replicate n '\n')) = codeLines content := by
  have hmore : content ++ String.ofList (List.replicate n '\n') ≠ "" := by
    simpa [String.append_eq_empty_iff] using fun h ↦ absurd h hne
  have hfeeds : ∀ c ∈ List.replicate n '\n', decide (c = '\n') = true := by
    intro c hc
    exact decide_eq_true (List.eq_of_mem_replicate hc)
  simp only [codeLines, if_neg hne, if_neg hmore, String.toList_append, String.toList_ofList,
    List.reverse_append, List.reverse_replicate, List.dropWhile_append_of_pos hfeeds]

/-- The content of a code block with blank lines at its end. -/
theorem codeContent_append_blank (lines : List String) (n : Nat) :
    codeContent (lines ++ List.replicate n "") =
      codeContent lines ++ String.ofList (List.replicate n '\n') := by
  rw [← String.toList_inj]
  simp [codeContent, String.toList_join, List.flatMap_replicate]

theorem codeContent_ne_empty {lines : List String} (hne : lines ≠ []) : codeContent lines ≠ "" := by
  intro hempty
  have hchars := toList_codeContent hne
  simp [hempty] at hchars

/-- What is read from the content of a code block are the lines that are kept. -/
theorem codeLines_eq_keptLines {lines : List String} (hne : lines ≠ [])
    (hlines : ∀ line ∈ lines, '\n' ∉ line.toList) :
    codeLines (codeContent lines) = keptLines lines := by
  obtain ⟨n, hsplit⟩ := exists_replicate_of_rdropWhile lines
  by_cases hkept : lines.rdropWhile (· = "") = []
  · obtain ⟨m, rfl⟩ : ∃ m, n = m + 1 := by
      refine Nat.exists_eq_succ_of_ne_zero ?_
      rintro rfl
      exact hne (by simpa [hkept] using hsplit)
    have hblank : lines = [""] ++ List.replicate m "" := by
      rw [hsplit, hkept, List.nil_append, List.replicate_succ, List.singleton_append]
    have hone : codeContent [""] ≠ "" := codeContent_ne_empty (List.cons_ne_nil _ _)
    rw [keptLines, hkept, hblank, codeContent_append_blank, codeLines_append_lineFeeds hone]
    rfl
  · have hsub : ∀ line ∈ lines.rdropWhile (· = ""), '\n' ∉ line.toList :=
      fun line hline ↦ hlines line ((List.rdropWhile_prefix _ _).subset hline)
    have hlast : (lines.rdropWhile (· = "")).getLast? ≠ some "" := by
      rw [List.getLast?_eq_some_getLast hkept]
      simpa using List.rdropWhile_last_not (· = "") lines hkept
    have hlost : codeLines (codeContent lines) =
        codeLines (codeContent (lines.rdropWhile (· = ""))) := by
      conv_lhs => rw [hsplit]
      rw [codeContent_append_blank, codeLines_append_lineFeeds (codeContent_ne_empty hkept)]
    rw [hlost, codeLines_codeContent hsub hlast, keptLines]
    simp [hkept]

/-! ### Writing lines -/

section Write

variable {env : Surroundings}

/-- Writing a code block writes the passages of its lines as paragraphs. -/
theorem writeBlock_code {lines : List String} (hne : lines ≠ []) (s : RenderState) :
    writeBlock env (.code lines) s =
      ((writePassages env (codePassages true lines)).mapWritten .paragraph) s := by
  have hlines : (if lines.isEmpty then [""] else lines) = lines := by simp [hne]
  rw [writeBlock_eq, Block.parts, hlines, writeParts, Step.forEach_map, writePassages,
    Step.mapWritten_forEach]
  rfl

/-- In accepted settings, a line that XML can hold can be written unless it is not blank and XML
cannot hold the code font. -/
theorem writeCodeLine_eq_ok_iff (haccepted : env.settings.Accepted) {line : String}
    (hline : isCompatibleText line = true) (first last : Bool) (s : RenderState) :
    ((Passage.codeLine first last line).write env s).result = .ok () ↔
      isCompatibleText env.settings.codeFont = true ∨ line = "" := by
  have hformat := ((Passage.codeLine first last line).format_eq_none_iff haccepted
    Paragraph.empty).mpr nofun
  unfold Passage.write writeFormatted
  rcases hmade : (Passage.codeLine first last line).format env.settings Paragraph.empty with
    ⟨q, _ | e⟩
  · simp only [Step.gather_result, Passage.segments]
    split
    · next hblank => simp [hblank]
    · next hblank =>
      have hfont : textRunFailure? env.settings line .ofCodeLine =
          textFailure? env.settings.codeFont := by
        simp [textRunFailure?, textFailure?, hline, RunStyle.fontFailure?, RunStyle.ofCodeLine]
      rw [Step.forEach_singleton]
      show (writeText env line .ofCodeLine s).result = .ok () ↔ _
      rw [writeText_eq_ok_iff RunStyle.sound_ofCodeLine, hfont, textFailure?]
      simp [hblank]
  · rw [hmade] at hformat
    cases hformat

/-- The characters of a text read as the text. -/
theorem Renders.eq_readMarks {text : String} {ms : List Mark} (h : Renders (textPieces text) ms) :
    ms = readMarks text := by
  unfold textPieces readMarks at *
  generalize text.toList = cs at h ⊢
  induction cs generalizing ms with
  | nil =>
    cases h
    rfl
  | cons c cs ih =>
    cases h with
    | char _ hrest => rw [List.map_cons, ih hrest]

/-- Paragraphs that read as the passages of lines read as the lines. -/
theorem forall₂_readMarks {lines : List String} {first : Bool} {ps : List Paragraph}
    (h : List.Forall₂ (fun p q ↦ Renders (Passage.pieces p) q.marks) (codePassages first lines) ps) :
    List.Forall₂ (fun line p ↦ p.marks = readMarks line) lines ps := by
  induction lines generalizing first ps with
  | nil =>
    cases h
    exact .nil
  | cons line lines ih =>
    cases h with
    | cons hfirst hrest => exact .cons hfirst.eq_readMarks (ih hrest)

/-- In accepted settings, lines that XML can hold can be written unless one of them is not blank and
XML cannot hold the code font. -/
theorem writeCodeLines_eq_ok_iff (haccepted : env.settings.Accepted) {lines : List String}
    (hlines : ∀ line ∈ lines, isCompatibleText line = true) (first : Bool) (s : RenderState) :
    (writePassages env (codePassages first lines) s).result = .ok () ↔
      isCompatibleText env.settings.codeFont = true ∨ ∀ line ∈ lines, line = "" := by
  induction lines generalizing first s with
  | nil => simp [codePassages, writePassages]
  | cons line rest ih =>
    obtain ⟨hline, hrest⟩ := List.forall_mem_cons.mp hlines
    have hfirst := writeCodeLine_eq_ok_iff haccepted hline first rest.isEmpty s
    rw [List.forall_mem_cons, or_and_left, ← hfirst, codePassages, writePassages, Step.forEach_cons]
    rcases hresult : ((Passage.codeLine first rest.isEmpty line).write env s).result with e | ⟨⟩
    · rw [Step.bind_of_error hresult]
      simp
    · rw [Step.bind_of_ok hresult]
      simpa [writePassages] using ih hrest false _

end Write

/-- What becomes of the lines of a fenced code block. Wherever blocks are read, a fence with these
lines, each followed by a line feed, is read as a code block with the lines that are kept, and these
are all of them exactly if the last one is not blank or there is no other. In accepted settings,
writing the code block of all these lines, if XML can hold them, succeeds exactly if XML can hold the
code font as well, or they are all blank, and then gives one paragraph for each line, in their order,
which reads as the line. -/
theorem fence_lines {lines : List String} (hne : lines ≠ [])
    (hlines : ∀ line ∈ lines, '\n' ∉ line.toList) :
    (∀ (r : BlockReading) (t : Token), r.TakesBlocks → t.kind = .fence →
      t.content = codeContent lines → r.read t = .ok (r.add (.code (keptLines lines)))) ∧
    (keptLines lines = lines ↔ lines = [""] ∨ lines.getLast? ≠ some "") ∧
    ∀ (env : Surroundings) (s : RenderState), env.settings.Accepted →
      (∀ line ∈ lines, isCompatibleText line = true) →
      ((writeBlock env (.code lines) s).result = .ok () ↔
        isCompatibleText env.settings.codeFont = true ∨ ∀ line ∈ lines, line = "") ∧
      ((writeBlock env (.code lines) s).result = .ok () →
        ∃ ps, (writeBlock env (.code lines) s).written = ps.map .paragraph ∧
          List.Forall₂ (fun line p ↦ p.marks = readMarks line) lines ps) := by
  refine ⟨?_, keptLines_eq_iff hne, ?_⟩
  · intro r t hr hkind hcontent
    rw [hr.read (by simp [hkind]) (by simp [hkind]), BlockReading.takeBlock, hkind, hcontent,
      codeLines_eq_keptLines hne hlines]
  · intro env s haccepted hcompatible
    rw [writeBlock_code hne]
    refine ⟨writeCodeLines_eq_ok_iff haccepted hcompatible true s, fun hok ↦ ?_⟩
    exact ⟨_, rfl, forall₂_readMarks (writePassages_renders hok)⟩

theorem fence_lines_spaced :
    (∀ line ∈ ["a", "", "b"], '\n' ∉ line.toList) ∧
      (({} : BlockReading).read { kind := .fence, content := "a\n\nb\n" } =
        .ok (({} : BlockReading).add (.code ["a", "", "b"]))) ∧
      ∀ s, (writeBlock {} (.code ["a", "", "b"]) s).result = .ok () := by
  have hlines : ∀ line ∈ ["a", "", "b"], '\n' ∉ line.toList := by decide
  obtain ⟨hread, hkept, hwrite⟩ := fence_lines (List.cons_ne_nil _ _) hlines
  have hall : keptLines ["a", "", "b"] = ["a", "", "b"] := hkept.mpr (.inr (by decide))
  refine ⟨hlines, ?_, fun s ↦ ?_⟩
  · rw [← hall]
    exact hread {} _ ⟨rfl, trivial⟩ rfl rfl
  · obtain ⟨hok, -⟩ := hwrite {} s Settings.accepted_default (by decide)
    exact hok.mpr (.inl (by decide))

/-- A blank line at the end of a fenced code block is lost. -/
theorem fence_lines_trailing :
    (∀ line ∈ ["a", ""], '\n' ∉ line.toList) ∧ codeContent ["a", ""] = "a\n\n" ∧
      blocksOf [{ kind := .fence, content := "a\n\n" }] = .ok [.code ["a"]] ∧
      ["a"] ≠ ["a", ""] :=
  ⟨by decide, by decide, rfl, by decide⟩

end Folio
