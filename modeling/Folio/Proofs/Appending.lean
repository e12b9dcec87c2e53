import Folio.Proofs.Part
import Folio.Render.Session

/-!
# Writing blocks appends

A part of a block becomes one element however its writing ends (`Part.write_element`). So a block
adds elements behind those that are there, in the order of its parts, all of them if it succeeds and
the first few if it fails, and it leaves the depth of lists as it was (`block_appends`). The kinds of
the elements are told by the block alone (`Block.kinds`).
-/

set_option autoImplicit false
set_option relaxedAutoImplicit false

namespace Folio

open Word

/-! ### Elements -/

section Parts

variable {env : Surroundings}

/-- The kinds of elements of a body. -/
inductive ElementKind
  | paragraph
  | table
  deriving DecidableEq, Repr

/-- The kind of an element. -/
def Word.Element.kind : Element → ElementKind
  | .paragraph _ => .paragraph
  | .table _ => .table

/-- The kind of the element that a part becomes. -/
def Part.kind : Part → ElementKind
  | .passage _ => .paragraph
  | .table _ => .table

/-- A part becomes an element, in some state and however its writing ends. -/
def Part.Becomes (env : Surroundings) (p : Part) (x : Element) : Prop :=
  ∃ s, (p.write env s).written = [x]

/-- A part becomes one element of its kind, however its writing ends. -/
theorem Part.write_element (p : Part) (s : RenderState) :
    ∃ x : Element, (p.write env s).written = [x] ∧ x.kind = p.kind := by
  cases p with
  | passage p =>
    rw [Part.write]
    unfold Passage.write writeFormatted Step.mapWritten
    rcases p.format env.settings Paragraph.empty with ⟨q, _ | e⟩
    · exact ⟨.paragraph _, rfl, rfl⟩
    · exact ⟨.paragraph q, rfl, rfl⟩
  | table rows => exact ⟨.table _, rfl, rfl⟩

theorem Part.Becomes.kind_eq {p : Part} {x : Element} (h : p.Becomes env x) : x.kind = p.kind := by
  obtain ⟨s, hwritten⟩ := h
  obtain ⟨y, hone, hkind⟩ := p.write_element s
  rw [hwritten] at hone
  rwa [List.singleton_inj.mp hone]

/-- Parts become elements one for one: the first few of them, and all if the writing succeeds. -/
theorem writeParts_elements (ps : List Part) (s : RenderState) :
    List.Forall₂ (Part.Becomes env) (ps.take (writeParts env ps s).written.length)
        (writeParts env ps s).written ∧
      ((writeParts env ps s).result = .ok () →
        (writeParts env ps s).written.length = ps.length) := by
  unfold writeParts
  induction ps generalizing s with
  | nil => exact ⟨.nil, fun _ ↦ rfl⟩
  | cons p ps ih =>
    obtain ⟨x, hwritten, -⟩ := @Part.write_element env p s
    have hbecomes : p.Becomes env x := ⟨s, hwritten⟩
    rw [Step.forEach_cons]
    rcases hresult : (p.write env s).result with e | ⟨⟩
    · rw [Step.bind_of_error hresult, hwritten]
      exact ⟨.cons hbecomes .nil, nofun⟩
    · obtain ⟨hrest, hall⟩ := ih (p.write env s).state
      rw [Step.bind_of_ok hresult, hwritten]
      exact ⟨.cons hbecomes hrest, fun hok ↦ congrArg (· + 1) (hall hok)⟩

/-- Elements have the kinds of the parts that become them. -/
theorem map_kind_of_becomes {ps : List Part} {xs : List Element}
    (h : List.Forall₂ (Part.Becomes env) ps xs) : xs.map Element.kind = ps.map Part.kind := by
  induction h with
  | nil => rfl
  | cons hx _ ih => rw [List.map_cons, List.map_cons, hx.kind_eq, ih]

end Parts

/-! ### Kinds of elements -/

mutual

/-- The kinds of the elements that a block becomes. -/
def Block.kinds : Block → List ElementKind
  | .heading _ _ => [.paragraph]
  | .paragraph _ => [.paragraph]
  | .rule => [.paragraph]
  | .code lines => List.replicate (max 1 lines.length) .paragraph
  | .list _ items => itemsKinds items
  | .table rows => if rows.isEmpty then [] else [.table, .paragraph]
  | .quote blocks => kindsOf blocks
  | .unknown => []

/-- The kinds of the elements that blocks become. -/
def kindsOf : List Block → List ElementKind
  | [] => []
  | b :: bs => b.kinds ++ kindsOf bs

/-- The kinds of the elements that a list item becomes: a paragraph, which takes in the first block
if that is a paragraph, and those of the other blocks. -/
def itemKinds : List Block → List ElementKind
  | .paragraph _ :: rest => .paragraph :: kindsOf rest
  | b :: rest => .paragraph :: (b.kinds ++ kindsOf rest)
  | [] => [.paragraph]

/-- The kinds of the elements that the items of a list become. -/
def itemsKinds : List (List Block) → List ElementKind
  | [] => []
  | item :: items => itemKinds item ++ itemsKinds items

end

theorem map_kind_codePassages (first : Bool) (lines : List String) :
    ((codePassages first lines).map Part.passage).map Part.kind =
      List.replicate lines.length .paragraph := by
  induction lines generalizing first with
  | nil => rfl
  | cons line rest ih =>
    rw [codePassages, List.map_cons, List.map_cons, ih, List.length_cons, List.replicate_succ]
    rfl

mutual

/-- The parts of a block have its kinds. -/
theorem Block.map_kind_parts : ∀ (b : Block) (level : Int),
    (b.parts level).map Part.kind = b.kinds
  | .heading _ _, _ => rfl
  | .paragraph _, _ => rfl
  | .rule, _ => rfl
  | .unknown, _ => rfl
  | .table rows, level => by
    rw [Block.parts, Block.kinds, tableParts]
    split <;> rfl
  | .code lines, level => by
    rw [Block.parts, Block.kinds, map_kind_codePassages]
    cases lines with
    | nil => rfl
    | cons line rest => simp
  | .list ordered items, level => map_kind_listParts ordered items level 1
  | .quote blocks, level => map_kind_quoteParts blocks level

theorem map_kind_partsOf : ∀ (bs : List Block) (level : Int),
    (partsOf level bs).map Part.kind = kindsOf bs
  | [], _ => rfl
  | b :: bs, level => by
    rw [partsOf, kindsOf, List.map_append, b.map_kind_parts, map_kind_partsOf bs]

theorem map_kind_quoteParts : ∀ (bs : List Block) (level : Int),
    (quoteParts level bs).map Part.kind = kindsOf bs
  | [], _ => rfl
  | b :: bs, level => by
    have hblock := b.map_kind_parts level
    have hrest := map_kind_quoteParts bs level
    cases b with
    | paragraph content => rw [quoteParts, kindsOf, List.map_cons, hrest]; rfl
    | _ => rw [quoteParts, kindsOf, List.map_append, hblock, hrest]; nofun

theorem map_kind_itemParts (mark : String) : ∀ (bs : List Block) (level : Int),
    (itemParts level mark bs).map Part.kind = itemKinds bs
  | [], _ => rfl
  | b :: bs, level => by
    have hblock := b.map_kind_parts (level + 1)
    have hrest := map_kind_partsOf bs (level + 1)
    cases b with
    | paragraph content => rw [itemParts, itemKinds, List.map_cons, hrest]; rfl
    | _ =>
      rw [itemParts, itemKinds, List.map_cons, List.map_append, hblock, hrest]
      · rfl
      · nofun
      · nofun

theorem map_kind_listParts (ordered : Bool) :
    ∀ (items : List (List Block)) (level : Int) (number : Nat),
      (listParts ordered level number items).map Part.kind = itemsKinds items
  | [], _, _ => rfl
  | item :: items, level, number => by
    rw [listParts, itemsKinds, List.map_append, map_kind_itemParts _ item,
      map_kind_listParts ordered items]

end

/-! ### Rendering only appends -/

/-- A block that is rendered into any document and from any state, whether that succeeds or fails,
leaves the elements that are there as they are and the depth of lists as it was; the settings are
no part of the state. It adds elements behind them, one for each of its parts in order, up to the
part that fails. Their kinds are the first of the kinds that the block becomes, and all of them if
it succeeds. -/
theorem block_appends (env : Surroundings) (x : Session) (b : Block) :
    ∃ added : List Element,
      (x.step env (.block b)).1.body = x.body ++ added ∧
      (x.step env (.block b)).1.state.listDepth = x.state.listDepth ∧
      List.Forall₂ (Part.Becomes { env with web := x.web })
        ((b.parts (x.state.listDepth + 1)).take added.length) added ∧
      added.map Element.kind <+: b.kinds ∧
      ((∃ value, (x.step env (.block b)).2 = .ok value) → added.map Element.kind = b.kinds) := by
  have hwrite := @writeBlock_eq { env with web := x.web } b x.state
  obtain ⟨helements, hall⟩ := @writeParts_elements { env with web := x.web }
    (b.parts (x.state.listDepth + 1)) x.state
  rw [← hwrite] at helements hall
  refine ⟨(writeBlock { env with web := x.web } b x.state).written, rfl, ?_, helements, ?_, ?_⟩
  · show (writeBlock { env with web := x.web } b x.state).state.listDepth = _
    rw [hwrite]
    exact (ignoresDepth_writeParts _).listDepth_eq x.state
  · rw [map_kind_of_becomes helements, List.map_take, b.map_kind_parts]
    exact List.take_prefix _ _
  · rintro ⟨value, hok⟩
    have hresult : (writeBlock { env with web := x.web } b x.state).result = .ok () := by
      simp only [Session.step] at hok
      rcases hwritten : (writeBlock { env with web := x.web } b x.state).result with e | ⟨⟩
      · rw [hwritten] at hok
        cases hok
      · rfl
    rw [map_kind_of_becomes helements, hall hresult, List.take_length, b.map_kind_parts]

end Folio
