import Folio.Proofs.Building
import Folio.Proofs.Registration

/-!
# Failed hyperlinks in a session

A session builds a document step by step, and goes on after failures. In every state that it can
reach, the relationships are distinct and the hyperlinks that the state counts are those of the
document (`Session.Reachable.tidy`). So it can be told what a hyperlink leaves whose label cannot be
written (`failed_hyperlink`): the paragraph is as before, but the relationships are as before only
if the target had none, or one that two hyperlinks of the document share, and if every image that
the label registered is drawn in it.
-/

set_option autoImplicit false
set_option relaxedAutoImplicit false

namespace Folio

open Word

/-! ### Keeping count of hyperlinks -/

/-- A later state, in which hyperlinks with given relationships have become part of the document. -/
structure RenderState.Keeps (s : RenderState) (ids : List Nat) (t : RenderState) : Prop where
  linked : t.linked = s.linked ++ ids
  distinct : s.relationships.Distinct → t.relationships.Distinct
  single : s.Single → t.Single

namespace RenderState.Keeps

variable {s t u : RenderState}

theorem of_eq (hlinked : t.linked = s.linked) (hrelationships : t.relationships = s.relationships) :
    s.Keeps [] t where
  linked := by rw [hlinked, List.append_nil]
  distinct := by rw [hrelationships]; exact id
  single hs := by
    unfold Single at *
    rwa [hlinked, hrelationships]

theorem append {v w : List Nat} (h : s.Keeps v t) (h' : t.Keeps w u) : s.Keeps (v ++ w) u where
  linked := by rw [h'.linked, h.linked, List.append_assoc]
  distinct := h'.distinct ∘ h.distinct
  single := h'.single ∘ h.single

/-- Keeping count composes along sequences of steps. -/
theorem sequential : Step.Sequential Keeps := ⟨fun _ ↦ of_eq rfl rfl, append⟩

end RenderState.Keeps

/-- Writing runs keeps count: no hyperlink becomes part of the document. -/
theorem Registers.keeps {s t : RenderState} {runs : List Run} (h : Registers s runs t) :
    s.Keeps [] t where
  linked := by rw [h.linked, List.append_nil]
  distinct := h.distinct
  single hs id hid := by
    rw [h.linked]
    exact hs id fun hold ↦ hid (ids_subset h.relationships hold)

/-- Taking a label back keeps count: no hyperlink becomes part of the document, and a relationship
that two hyperlinks use is not given up. -/
theorem Registers.takenBack_keeps {s t : RenderState} {url : String} {runs : List Run}
    (h : Registers (labelStart url s) runs t) :
    s.Keeps [] (takeBack (targetId url s) runs t) := by
  have hlinked : t.linked = s.linked := h.linked.trans (labelStart_linked url s)
  have hsubset : s.relationships.ids ⊆ t.relationships.ids :=
    ids_subset ((Relationships.prefix_relate _ _).trans h.relationships)
  refine ⟨?_, fun hs ↦ (h.distinct (hs.relate _)).foldl_drop _ _, ?_⟩
  · rw [List.append_nil]
    exact hlinked
  · intro hs id hid
    show t.linked.count id ≤ 1
    by_contra hfew
    have hcount : 2 ≤ s.linked.count id := by
      rw [← hlinked]
      omega
    have hold : id ∈ s.relationships.ids := by
      by_contra hfree
      have hone := hs id hfree
      omega
    obtain ⟨r, hr, rfl⟩ := Relationships.mem_ids.mp (hsubset hold)
    refine hid (List.mem_map_of_mem ?_)
    rw [takeBack, Relationships.foldl_drop_eq, hlinked]
    exact List.mem_filter.mpr ⟨hr, decide_eq_true (Or.inr hcount)⟩

/-- A hyperlink that is built keeps count: it becomes part of the document with its relationship. -/
theorem Registers.built_keeps {s t u : RenderState} {url : String} {runs : List Run}
    (h : Registers (labelStart url s) runs t) (hlinked : u.linked = t.linked ++ [targetId url s])
    (hrelationships : u.relationships = t.relationships) : s.Keeps [targetId url s] u := by
  have hbefore : t.linked = s.linked := h.linked.trans (labelStart_linked url s)
  have hsubset : s.relationships.ids ⊆ t.relationships.ids :=
    ids_subset ((Relationships.prefix_relate _ _).trans h.relationships)
  refine ⟨?_, fun hs ↦ ?_, ?_⟩
  · rw [hlinked, hbefore]
  · rw [hrelationships]
    exact h.distinct (hs.relate _)
  · intro hs id hid
    rw [hrelationships] at hid
    have hother : targetId url s ≠ id := fun hsame ↦ hid
      (ids_subset h.relationships (hsame ▸ Relationships.relate_mem_ids _ _))
    have hcount := hs id fun hold ↦ hid (hsubset hold)
    rw [hlinked, hbefore, List.count_append, List.count_singleton]
    simpa [hother] using hcount

/-- Documents are built with the count kept, whether a hyperlink is built, refused or taken back. -/
theorem RenderState.Keeps.building (env : Surroundings) : Building env Keeps where
  toSequential := sequential
  runs h s := (h.registers s).keeps
  hyperlink url {label} h s := by
    have hregisters := h.registers (labelStart url s)
    rcases writeHyperlink_cases env url label s with
      ⟨-, log, hlink⟩ | ⟨-, e, log, -, hlink⟩ | ⟨-, -, hlink⟩
    all_goals rw [hlink]
    · exact .of_eq rfl rfl
    · exact hregisters.takenBack_keeps.append (.of_eq rfl rfl)
    · exact hregisters.built_keeps rfl rfl

/-! ### Sessions -/

namespace Session

/-- The sessions that steps lead to, whether they fail or not. -/
inductive Reachable (env : Surroundings) : Session → Prop
  | start : Reachable env { web := env.web }
  | step {x : Session} (h : Reachable env x) (s : SessionStep) : Reachable env (x.step env s).1

/-- The relationships are distinct, the hyperlinks that the state counts are those of the document,
and the paragraph that a step may continue is one. -/
structure Tidy (x : Session) : Prop where
  distinct : x.state.relationships.Distinct
  single : x.state.Single
  linked : x.state.linked.Perm (hyperlinksOf x.body)
  current : ∀ i, x.current = some i → ∃ p, x.body[i]? = some (.paragraph p)

/-- More content in a paragraph of the body brings its hyperlinks. -/
theorem hyperlinksOf_changeAt {items : List ParagraphItem} {p : Paragraph} {i : Nat}
    {body : List Element} (h : body[i]? = some (.paragraph p)) :
    (hyperlinksOf (changeAt (extend items) i body)).Perm
      (hyperlinksOf body ++ items.flatMap ParagraphItem.hyperlinks) := by
  induction body generalizing i with
  | nil => simp at h
  | cons x xs ih =>
    have hcons (y : Element) (ys : List Element) : hyperlinksOf (y :: ys) =
        y.paragraphs.flatMap Paragraph.hyperlinks ++ hyperlinksOf ys := by
      simp [hyperlinksOf, paragraphsOf]
    cases i with
    | zero =>
      obtain rfl : x = .paragraph p := by simpa using h
      have hextended : (extend items (.paragraph p)).paragraphs.flatMap Paragraph.hyperlinks =
          p.hyperlinks ++ items.flatMap ParagraphItem.hyperlinks := by
        simp [extend, Element.paragraphs]
      rw [changeAt, hcons, hcons, hextended, Element.paragraphs, List.flatMap_singleton,
        List.append_assoc, List.append_assoc]
      exact List.perm_append_comm.append_left _
    | succ i =>
      rw [changeAt, hcons, hcons, List.append_assoc]
      exact (ih (by simpa using h)).append_left _

/-- A change at a place changes what is there. -/
theorem getElem?_changeAt {α : Type} (f : α → α) (i : Nat) (xs : List α) :
    (changeAt f i xs)[i]? = xs[i]?.map f := by
  induction xs generalizing i with
  | nil => simp [changeAt]
  | cons x xs ih =>
    cases i with
    | zero => rfl
    | succ i => simpa [changeAt] using ih i

namespace Tidy

variable {x : Session}

theorem start (web : Web) : Tidy { web := web } where
  distinct := Relationships.distinct_nil
  single := by simp [RenderState.Single]
  linked := List.Perm.refl _
  current := nofun

/-- A step that keeps count and brings its hyperlinks into the body leaves a tidy session. -/
theorem keeps (h : x.Tidy) {y : Session} {ids : List Nat} (hkeeps : x.state.Keeps ids y.state)
    (hbody : (hyperlinksOf y.body).Perm (hyperlinksOf x.body ++ ids))
    (hcurrent : ∀ i, y.current = some i → ∃ p, y.body[i]? = some (.paragraph p)) : y.Tidy where
  distinct := hkeeps.distinct h.distinct
  single := hkeeps.single h.single
  linked := by
    rw [hkeeps.linked]
    exact (h.linked.append_right ids).trans hbody.symm
  current := hcurrent

/-- Writing into a paragraph leaves a tidy session. -/
theorem intoParagraph (h : x.Tidy) (continued : Bool) {α : Type} {step : Step ParagraphItem α}
    (hstep : step.Obeys fun s ws t ↦ s.Keeps (ws.flatMap ParagraphItem.hyperlinks) t) :
    (x.intoParagraph continued step).1.Tidy := by
  unfold Session.intoParagraph
  dsimp only
  split
  · next i hplace =>
    have hcurrent : x.current = some i := by
      cases continued
      · cases hplace
      · exact hplace
    obtain ⟨p, hp⟩ := h.current i hcurrent
    refine h.keeps (hstep x.state) (hyperlinksOf_changeAt hp) ?_
    intro j hj
    obtain rfl : i = j := Option.some.inj (hcurrent.symm.trans hj)
    exact ⟨p.append (step x.state).written, by rw [getElem?_changeAt, hp]; rfl⟩
  · refine h.keeps (hstep x.state) ?_ ?_
    · simp [hyperlinksOf, paragraphsOf, Element.paragraphs]
    · intro j hj
      obtain rfl : x.body.length = j := Option.some.inj hj
      exact ⟨Paragraph.empty.append (step x.state).written, by simp⟩

end Tidy

/-- A step of a session leaves a tidy session. -/
theorem Tidy.step (env : Surroundings) {x : Session} (h : x.Tidy) (s : SessionStep) :
    (x.step env s).1.Tidy := by
  have hbuilding := RenderState.Keeps.building { env with web := x.web }
  cases s with
  | block b =>
    refine h.keeps (hbuilding.writeBlock b x.state) ?_ ?_
    · simp [Session.step, hyperlinksOf, paragraphsOf]
    · intro i hi
      obtain ⟨p, hp⟩ := h.current i hi
      have hplace := (List.getElem?_eq_some_iff.mp hp).1
      exact ⟨p, (List.getElem?_append_left hplace).trans hp⟩
  | inlines content style runsOnly continued =>
    cases runsOnly
    · exact h.intoParagraph continued (hbuilding.writeItems content style)
    · exact h.intoParagraph continued (hbuilding.inParagraph (.writeRuns content style))
  | link url label content style failing continued =>
    exact h.intoParagraph continued (hbuilding.hyperlink url (linkLabel_writer _ _ _ _ _))
  | image url alt style continued =>
    exact h.intoParagraph continued (hbuilding.inParagraph (.image url alt style))
  | load url =>
    have hbody : (hyperlinksOf x.body).Perm (hyperlinksOf x.body ++ []) := by simp
    rcases hload : loadImage { env with web := x.web } url x.state with ⟨t, result⟩
    have hkeeps : x.state.Keeps [] t :=
      .of_eq (linked_of_load hload) (relationships_of_load hload)
    simp only [Session.step, hload]
    exact h.keeps hkeeps hbody h.current
  | depth value => exact h.keeps (.of_eq rfl rfl) (by simp [Session.step]) h.current
  | network web => exact h.keeps (.of_eq rfl rfl) (by simp [Session.step]) h.current

/-- Every session that can be reached is tidy. -/
theorem Reachable.tidy {env : Surroundings} {x : Session} (h : x.Reachable env) : x.Tidy := by
  induction h with
  | start => exact .start env.web
  | step _ s ih => exact ih.step env s

end Session

/-! ### Failed hyperlinks -/

/-- What a hyperlink leaves whose label cannot be written, in any session that can be reached: the
paragraph is as before. The relationships are as before exactly if the target of the link had none,
or one that two hyperlinks of the document share, and every image that the label registered is drawn
in it. A relationship goes on leading where it led exactly if it is not that of the target, or two
hyperlinks of the document share it. -/
theorem failed_hyperlink {env now : Surroundings} {x : Session} (hx : x.Reachable env)
    {url : String} {label : Step Run Unit} (hlabel : RunWriter now false label)
    (hasked : now.faults.relate x.state.registrations = none) {e : Failure}
    (hfail : (label (labelStart url x.state)).result = .error e) :
    ∃ t, writeHyperlink now url label x.state = ⟨[], t, .ok false⟩ ∧
      (t.relationships = x.state.relationships ↔
        (x.state.relationships.external? (Url.resolved url) = none ∨
          2 ≤ (hyperlinksOf x.body).count (targetId url x.state)) ∧
        DrawsAll (labelStart url x.state) (label (labelStart url x.state)).written
          (label (labelStart url x.state)).state) ∧
      ∀ id ∈ x.state.relationships.ids,
        t.relationships.target? id = x.state.relationships.target? id ↔
          x.state.relationships.external? (Url.resolved url) = none ∨
            2 ≤ (hyperlinksOf x.body).count (targetId url x.state) ∨ id ≠ targetId url x.state := by
  have htidy := hx.tidy
  have hregisters := hlabel.registers (labelStart url x.state)
  obtain ⟨log, hlink⟩ := writeHyperlink_of_failed hasked hfail
  rw [← htidy.linked.count_eq]
  exact ⟨_, hlink, takeBack_eq_iff htidy.distinct htidy.single hregisters,
    fun id hid ↦ takeBack_target?_eq_iff htidy.distinct htidy.single hregisters hid⟩

/-- A session with one hyperlink. -/
def oneHyperlink : Session :=
  (Session.step {} { web := Surroundings.web {} }
    (.link "http://a/" ["x"] [] .plain false false)).1

theorem oneHyperlink_reachable : oneHyperlink.Reachable {} := .step .start _

/-- A second hyperlink to the same target fails. -/
theorem failed_hyperlink_oneHyperlink :
    oneHyperlink.Reachable {} ∧ ∃ t,
      writeHyperlink {} "http://a/" (Session.linkLabel {} ["y"] [] .plain true)
        oneHyperlink.state = ⟨[], t, .ok false⟩ ∧
      t.relationships ≠ oneHyperlink.state.relationships := by
  obtain ⟨t, hlink, hrelationships, -⟩ := failed_hyperlink oneHyperlink_reachable
    (Session.linkLabel_writer {} ["y"] [] .plain true) rfl
    (show (Session.linkLabel {} ["y"] [] .plain true
      (labelStart "http://a/" oneHyperlink.state)).result = .error (.service "label refused") by
        decide +kernel)
  refine ⟨oneHyperlink_reachable, t, hlink, fun heq ↦ ?_⟩
  obtain ⟨hshared, -⟩ := hrelationships.mp heq
  exact absurd hshared (by decide +kernel)

/-- The hyperlink that was there before leads nowhere afterwards. -/
theorem oneHyperlink_dangles :
    hyperlinksOf oneHyperlink.body = [9] ∧
      oneHyperlink.state.relationships.target? 9 = some (.external "http://a/") ∧
      (writeHyperlink {} "http://a/" (Session.linkLabel {} ["y"] [] .plain true)
        oneHyperlink.state).state.relationships.target? 9 = none := by
  decide +kernel

end Folio
