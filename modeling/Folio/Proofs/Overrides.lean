import Folio.Proofs.SettingsFile

/-!
# Overrides in sequence

Overrides act on each setting by itself. What a setting holds after them is the value given to it
last, converted, or else what it held before (`Entries.outcome`), and the check looks at each setting
by itself as well (`checkSettings_eq_ok_iff`); so overrides give settings exactly if each entry can be
converted and what each setting then holds passes (`withOverrides_eq_ok_iff`). From this follow the
laws of `overrides_compose`: settings overridden by all that they hold stay as they are, overrides in
sequence are one mapping updated by the other, and overrides of different settings commute.
-/

set_option autoImplicit false
set_option relaxedAutoImplicit false

namespace Folio

open Word

/-! ### Settings by what they hold -/

/-- What settings hold for a setting, as a value. -/
def Field.value (s : Settings) : Field → Value
  | number f => .float (f.get s)
  | color f => .text (f.get s)
  | text f => .text (f.get s)

/-- The setting that is assigned. -/
def Assignment.field : Assignment → Field
  | number f _ => .number f
  | color f _ => .color f
  | text f _ => .text f

/-- All settings by name, with what they hold. -/
def Settings.entries (s : Settings) : Entries := Field.all.map fun f ↦ (.text f.name, f.value s)

/-- Settings are what they hold. -/
theorem Settings.ext_held {s t : Settings} (h : ∀ f : Field, f.held s = f.held t) : s = t := by
  have hnumber (f : NumberField) : f.get s = f.get t := by simpa [Field.held] using h (.number f)
  have hcolor (f : ColorField) : f.get s = f.get t := by simpa [Field.held] using h (.color f)
  have htext (f : TextField) : f.get s = f.get t := by simpa [Field.held] using h (.text f)
  cases s
  cases t
  congr 1
  exacts [hnumber .fetchTimeout, htext .userAgent, htext .codeFont, hcolor .link, hcolor .code,
    hcolor .codeShade, hcolor .headerShade, hcolor .rule, hcolor .caption, hnumber .imageWidth,
    hnumber .imageHeight]

/-- An assignment changes its own setting and no other. -/
theorem Field.held_apply (f : Field) (change : Assignment) (s : Settings) :
    f.held (change.apply s) = if change.field = f then change else f.held s := by
  cases change with
  | number g x => cases f with
    | number f => cases f <;> cases g <;> rfl
    | _ => cases g <;> rfl
  | color g x => cases f with
    | color f => cases f <;> cases g <;> rfl
    | _ => cases g <;> rfl
  | text g x => cases f with
    | text f => cases f <;> cases g <;> rfl
    | _ => cases g <;> rfl

/-! ### Values by name -/

/-- The name of a setting is that of no other. -/
theorem Field.ofName?_name (f : Field) : Field.ofName? f.name = some f := by
  rcases f with f | f | f <;> cases f <;> decide

/-- A setting is named by its name only, as a text. -/
theorem Value.field?_eq_some_iff {v : Value} {f : Field} :
    v.field? = some f ↔ v = .text f.name := by
  constructor
  · intro h
    cases v with
    | text s =>
      have hname := List.find?_some (h : Field.all.find? (fun f ↦ f.name = s) = some f)
      rw [of_decide_eq_true hname]
    | _ => cases h
  · rintro rfl
    exact f.ofName?_name

/-- The text that a key is tells the setting that a value names. -/
theorem Value.key?_eq_text_iff {v : Value} {s : String} : v.key? = some (.text s) ↔ v = .text s := by
  cases v with
  | float x => cases x <;> simp [key?, fraction?]
  | _ => simp [key?, fraction?]

/-- Values that are the same key name the same setting. -/
theorem Value.field?_eq_of_isSameKey {v w : Value} (h : v.isSameKey w = true) :
    v.field? = w.field? := by
  have hkey : v.key? = w.key? := by
    simp only [isSameKey, Bool.and_eq_true, decide_eq_true_eq] at h
    exact h.2
  have hnames (f : Field) : v.field? = some f ↔ w.field? = some f := by
    rw [field?_eq_some_iff, field?_eq_some_iff, ← key?_eq_text_iff, ← key?_eq_text_iff, hkey]
  exact Option.ext hnames

theorem Value.isSameKey_of_field? {v w : Value} {f : Field} (hv : v.field? = some f)
    (hw : w.field? = some f) : v.isSameKey w = true := by
  rw [field?_eq_some_iff] at hv hw
  simp [hv, hw, isSameKey, key?]

namespace Entries

/-- The value that entries give a setting last. -/
def given? : Entries → Field → Option Value
  | [], _ => none
  | (name, v) :: rest, f => (given? rest f).or (if name.field? = some f then some v else none)

/-- A mapping updated by another: the values of the other count where both name a key. -/
def updated (a b : Entries) : Entries := b.foldl (fun es e ↦ es.put e.1 e.2) a

theorem given?_append (a b : Entries) (f : Field) :
    (a ++ b : Entries).given? f = (b.given? f).or (a.given? f) := by
  induction a with
  | nil => simp [given?]
  | cons e a ih => rw [List.cons_append, given?, ih, given?, Option.or_assoc]

/-- Entries give a setting a value exactly if one of them names it. -/
theorem given?_eq_none_iff {entries : Entries} {f : Field} :
    entries.given? f = none ↔ ∀ e ∈ entries, e.1.field? ≠ some f := by
  induction entries with
  | nil => simp [given?]
  | cons e entries ih => simp [given?, ih, and_comm]

/-- The value that is given last is that of an entry. -/
theorem exists_mem_of_given? {entries : Entries} {f : Field} {v : Value}
    (h : entries.given? f = some v) : ∃ e ∈ entries, e.1.field? = some f ∧ e.2 = v := by
  induction entries with
  | nil => cases h
  | cons e entries ih =>
    rcases Option.or_eq_some_iff.mp h with hrest | ⟨-, hfirst⟩
    · obtain ⟨d, hd, hname, hvalue⟩ := ih hrest
      exact ⟨d, List.mem_cons_of_mem e hd, hname, hvalue⟩
    · split at hfirst
      · next hname => exact ⟨e, List.mem_cons_self, hname, Option.some.inj hfirst⟩
      · cases hfirst

/-- Entries in which the value of a key is replaced. -/
theorem given?_replace (entries : Entries) (key v : Value) (f : Field) :
    given? (entries.map fun e ↦ if e.1.isSameKey key then (e.1, v) else e) f =
      if key.field? = some f then (entries.given? f).map fun _ ↦ v else entries.given? f := by
  induction entries with
  | nil => simp [given?]
  | cons e entries ih =>
    rw [List.map_cons, given?, given?, ih]
    by_cases hsame : e.1.isSameKey key = true
    · rw [if_pos hsame, ← Value.field?_eq_of_isSameKey hsame]
      split <;> cases given? entries f <;> simp
    · rw [if_neg hsame]
      by_cases hkey : key.field? = some f
      · have hname : e.1.field? ≠ some f := fun h ↦ hsame (Value.isSameKey_of_field? h hkey)
        simp [hkey, hname]
      · simp [hkey]

/-- One more entry gives its setting its value. -/
theorem given?_put (entries : Entries) (key v : Value) (f : Field) :
    (entries.put key v).given? f = if key.field? = some f then some v else entries.given? f := by
  unfold put
  split
  · next hany =>
    obtain ⟨e, he, hsame⟩ := List.any_eq_true.mp hany
    rw [given?_replace]
    split
    · next hkey =>
      have hgiven : entries.given? f ≠ none := fun hnone ↦
        given?_eq_none_iff.mp hnone e he ((Value.field?_eq_of_isSameKey hsame).trans hkey)
      obtain ⟨w, hw⟩ := Option.ne_none_iff_exists'.mp hgiven
      rw [hw, Option.map_some]
    · rfl
  · rw [given?_append]
    simp only [given?, Option.none_or]
    split <;> simp

/-- A mapping updated by another gives the values of the other where that gives one. -/
theorem given?_updated (a b : Entries) (f : Field) :
    (a.updated b).given? f = (b.given? f).or (a.given? f) := by
  induction b generalizing a with
  | nil => simp [updated, given?]
  | cons e b ih =>
    rw [updated, List.foldl_cons, ← updated, ih, given?_put, given?, Option.or_assoc]
    split <;> simp

end Entries

/-! ### Entries that can be converted -/

/-- Converting looks at the setting that an entry names, and at its value. -/
theorem IsConvertible.of_field? {e : Value × Value} (h : IsConvertible e) {name : Value}
    (hname : name.field? = e.1.field?) : IsConvertible (name, e.2) := by
  obtain ⟨field, change, hfield, hchange⟩ := h
  exact ⟨field, change, hname.trans hfield, hchange⟩

/-- One more entry that can be converted. -/
theorem isConvertible_put {entries : Entries} {e : Value × Value}
    (h : ∀ d ∈ entries, IsConvertible d) (he : IsConvertible e) :
    ∀ d ∈ entries.put e.1 e.2, IsConvertible d := by
  unfold Entries.put
  split
  · intro d hd
    obtain ⟨d, hold, rfl⟩ := List.mem_map.mp hd
    split
    · next hsame => exact he.of_field? (Value.field?_eq_of_isSameKey hsame)
    · exact h d hold
  · exact List.forall_mem_append.mpr ⟨h, List.forall_mem_singleton.mpr he⟩

/-- A mapping updated by another can be converted if both can. -/
theorem isConvertible_updated {a b : Entries} (ha : ∀ e ∈ a, IsConvertible e)
    (hb : ∀ e ∈ b, IsConvertible e) : ∀ e ∈ a.updated b, IsConvertible e := by
  induction b generalizing a with
  | nil => exact ha
  | cons e b ih =>
    obtain ⟨he, hb⟩ := List.forall_mem_cons.mp hb
    exact ih (isConvertible_put ha he) hb

/-- What is converted for a setting is assigned to it. -/
theorem field_of_convertValue {field : Field} {v : Value} {change : Assignment}
    (h : convertValue field v = .ok change) : change.field = field := by
  -- a value that is refused for its kind has no assignment, whether it has a form or not
  have hrefused (fault : String → SettingsFault) :
      (v.formOrFault.bind fun form ↦ .error (fault form)) ≠ .ok change := by
    rcases v.formOrFault with e | form <;> simp [Except.bind]
  unfold convertValue at h
  split at h
  · split at h
    · cases h
      rfl
    · cases h
    · exact absurd h (hrefused _)
  · split at h
    · cases h
      rfl
    · exact absurd h (hrefused _)
  · split at h
    · cases h
      rfl
    · cases h

/-! ### What settings hold after overrides -/

/-- What a setting holds after overrides: the value that is given to it last, converted, or else what
it held before. -/
def Entries.outcome (entries : Entries) (s : Settings) (f : Field) :
    Except SettingsFault Assignment :=
  match entries.given? f with
  | some v => convertValue f v
  | none => .ok (f.held s)

section Outcome

variable {s t : Settings} {entries : Entries}

/-- The first entry counts for its setting as if it had been assigned before. -/
theorem Entries.outcome_cons {e : Value × Value} {field : Field} {change : Assignment}
    (hname : e.1.field? = some field) (hchange : convertValue field e.2 = .ok change)
    (s : Settings) (f : Field) :
    outcome (e :: entries) s f = outcome entries (change.apply s) f := by
  unfold outcome
  rw [given?]
  rcases given? entries f with _ | v
  · rw [Option.none_or, hname, Field.held_apply, field_of_convertValue hchange]
    by_cases hfield : field = f
    · subst hfield
      simp [hchange]
    · simp [hfield]
  · rfl

/-- Entries that can be converted give assignments, and after these each setting holds its outcome. -/
theorem exists_assignments (h : ∀ e ∈ entries, IsConvertible e) :
    ∃ changes, assignments entries = .ok changes ∧
      ∀ (s : Settings) (f : Field),
        entries.outcome s f = .ok (f.held (changes.foldl Assignment.apply s)) := by
  induction entries with
  | nil => exact ⟨[], rfl, fun _ _ ↦ rfl⟩
  | cons e entries ih =>
    obtain ⟨⟨field, change, hname, hchange⟩, hrest⟩ := List.forall_mem_cons.mp h
    obtain ⟨changes, hchanges, houtcome⟩ := ih hrest
    refine ⟨change :: changes, ?_, fun s f ↦ ?_⟩
    · rw [assignments] at hchanges ⊢
      simp only [List.mapM_cons, hname, hchange, hchanges]
      rfl
    · rw [Entries.outcome_cons hname hchange, houtcome, List.foldl_cons]

/-- Entries that give assignments can be converted. -/
theorem isConvertible_of_assignments {changes : List Assignment}
    (h : assignments entries = .ok changes) : ∀ e ∈ entries, IsConvertible e := by
  induction entries generalizing changes with
  | nil => exact List.forall_mem_nil _
  | cons e entries ih =>
    rw [assignments, List.mapM_cons] at h
    obtain ⟨change, hchange, h⟩ := exists_ok_of_bind h
    obtain ⟨rest, hrest, -⟩ := exists_ok_of_bind h
    refine List.forall_mem_cons.mpr ⟨?_, ih hrest⟩
    split at hchange
    · next field hname => exact ⟨field, change, hname, hchange⟩
    · cases hchange

/-- Overrides give settings exactly if each of their entries can be converted, and what each setting
then holds is its outcome and passes the check. -/
theorem withOverrides_eq_ok_iff :
    s.withOverrides entries = .ok t ↔
      (∀ e ∈ entries, IsConvertible e) ∧ (∀ f : Field, entries.outcome s f = .ok (f.held t)) ∧
        ∀ f : Field, (f.held t).passes = true := by
  constructor
  · intro h
    by_cases hknown : entries.unknown = []
    · rw [withOverrides_of_known hknown] at h
      obtain ⟨changes, hchanges, h⟩ := exists_ok_of_bind h
      have hconvertible := isConvertible_of_assignments hchanges
      obtain ⟨changes', hchanges', houtcome⟩ := exists_assignments hconvertible
      cases hchanges.symm.trans hchanges'
      obtain ⟨rfl, hpasses⟩ := checkSettings_eq_ok_iff.mp h
      exact ⟨hconvertible, houtcome s, hpasses⟩
    · rw [withOverrides_of_unknown hknown] at h
      cases h
  · rintro ⟨hconvertible, houtcome, hpasses⟩
    have hknown : entries.unknown = [] := by
      rw [Entries.unknown, List.filter_eq_nil_iff]
      intro name hname
      obtain ⟨e, he, rfl⟩ := List.mem_map.mp hname
      obtain ⟨field, -, hfield, -⟩ := hconvertible e he
      simp [hfield]
    obtain ⟨changes, hchanges, hheld⟩ := exists_assignments hconvertible
    have ht : changes.foldl Assignment.apply s = t :=
      Settings.ext_held fun f ↦ Except.ok.inj ((hheld s f).symm.trans (houtcome f))
    rw [withOverrides_of_known hknown, hchanges, Except.bind, ht]
    exact checkSettings_eq_ok_iff.mpr ⟨rfl, hpasses⟩

end Outcome

/-! ### All settings at once -/

/-- A hexadecimal colour has no blanks around it. -/
theorem trimmed_of_isHexColor {s : String} (h : isHexColor s = true) : trimmed s = s := by
  have hblank {c : Char} (hc : c ∈ s.toList) : isBlank c = false := by
    simp only [isHexColor, Bool.and_eq_true, List.all_eq_true] at h
    exact of_isHexDigit (P := fun d ↦ isBlank d = false) (by decide) (h.2 c hc)
  have hstart : trimStart s.toList = s.toList :=
    trimStart_of_head fun c hc ↦ hblank (List.mem_of_mem_head? hc)
  have hend : trimEnd s.toList = s.toList :=
    trimEnd_of_last fun c hc ↦ hblank (List.mem_of_mem_getLast? hc)
  rw [trimmed, trimChars, hstart, hend, String.ofList_toList]

/-- What passes the check of its setting is converted to itself. -/
theorem convertValue_value {s : Settings} {f : Field} (h : (f.held s).passes = true) :
    convertValue f (f.value s) = .ok (f.held s) := by
  cases f with
  | number f => rfl
  | color f => rw [Field.value, convertValue, trimmed_of_isHexColor h, Field.held]
  | text f => rfl

/-- All settings by name give each setting what it holds. -/
theorem Settings.given?_entries (s : Settings) (f : Field) : s.entries.given? f = some (f.value s) := by
  have hfields (fields : List Field) :
      Entries.given? (fields.map fun g ↦ (.text g.name, g.value s)) f =
        if f ∈ fields then some (f.value s) else none := by
    induction fields with
    | nil => rfl
    | cons g fields ih =>
      rw [List.map_cons, Entries.given?, ih, Value.field?, Field.ofName?_name]
      by_cases hrest : f ∈ fields
      · simp [hrest]
      · by_cases hfirst : g = f
        · subst hfirst
          simp [hrest]
        · simp [hrest, hfirst, Ne.symm hfirst]
  have hall : f ∈ Field.all := by rcases f with f | f | f <;> cases f <;> decide
  rw [entries, hfields, if_pos hall]

/-- All settings by name can be converted if they pass their check. -/
theorem Settings.isConvertible_entries {s : Settings}
    (h : ∀ f : Field, (f.held s).passes = true) : ∀ e ∈ s.entries, IsConvertible e := by
  intro e he
  obtain ⟨f, -, rfl⟩ := List.mem_map.mp he
  exact ⟨f, f.held s, f.ofName?_name, convertValue_value (h f)⟩

/-! ### Laws of overrides -/

section Laws

variable {s t u : Settings} {a b : Entries}

/-- Entries that do not name a setting leave it what it held. -/
theorem Entries.outcome_of_forall_ne {f : Field} (h : ∀ e ∈ a, e.1 ≠ .text f.name) :
    a.outcome s f = .ok (f.held s) := by
  have hnone : a.given? f = none :=
    given?_eq_none_iff.mpr fun e he hname ↦ h e he (Value.field?_eq_some_iff.mp hname)
  rw [outcome, hnone]

/-- A mapping updated by another has the outcome of the two in sequence. -/
theorem Entries.outcome_updated (ha : ∀ f : Field, a.outcome s f = .ok (f.held t)) (f : Field) :
    (a.updated b).outcome s f = b.outcome t f := by
  have hfirst := ha f
  unfold outcome at hfirst ⊢
  rw [given?_updated]
  rcases b.given? f with _ | v
  · exact hfirst
  · rfl

/-- Overrides in sequence are the first mapping updated by the second. -/
theorem withOverrides_updated (ha : s.withOverrides a = .ok t) (hb : t.withOverrides b = .ok u) :
    s.withOverrides (a.updated b) = .ok u := by
  obtain ⟨haconvertible, haoutcome, -⟩ := withOverrides_eq_ok_iff.mp ha
  obtain ⟨hbconvertible, hboutcome, hpasses⟩ := withOverrides_eq_ok_iff.mp hb
  refine withOverrides_eq_ok_iff.mpr
    ⟨isConvertible_updated haconvertible hbconvertible, fun f ↦ ?_, hpasses⟩
  rw [Entries.outcome_updated haoutcome, hboutcome]

/-- A setting that overrides do not name stays. -/
theorem held_of_forall_ne (ha : s.withOverrides a = .ok t) {f : Field}
    (h : ∀ e ∈ a, e.1 ≠ .text f.name) : f.held t = f.held s := by
  obtain ⟨-, houtcome, -⟩ := withOverrides_eq_ok_iff.mp ha
  exact Except.ok.inj ((houtcome f).symm.trans (Entries.outcome_of_forall_ne h))

/-- Overrides that settings accept are accepted by what other overrides make of these settings, too:
the check does not look at two settings together. -/
theorem exists_withOverrides_after (ha : s.withOverrides a = .ok t)
    (hb : s.withOverrides b = .ok u) :
    ∃ v, t.withOverrides b = .ok v ∧
      ∀ f : Field, f.held v = if (b.given? f).isSome then f.held u else f.held t := by
  obtain ⟨-, -, htpasses⟩ := withOverrides_eq_ok_iff.mp ha
  obtain ⟨hconvertible, houtcome, hupasses⟩ := withOverrides_eq_ok_iff.mp hb
  obtain ⟨changes, -, hchanges⟩ := exists_assignments hconvertible
  have hheld (f : Field) : f.held (changes.foldl Assignment.apply t) =
      if (b.given? f).isSome then f.held u else f.held t := by
    have hafter := hchanges t f
    have hbefore := houtcome f
    unfold Entries.outcome at hafter hbefore
    rcases hgiven : b.given? f with _ | v
    · rw [hgiven] at hafter
      exact (Except.ok.inj hafter).symm
    · rw [hgiven] at hafter hbefore
      exact Except.ok.inj (hafter.symm.trans hbefore)
  refine ⟨_, withOverrides_eq_ok_iff.mpr ⟨hconvertible, hchanges t, fun f ↦ ?_⟩, hheld⟩
  rw [hheld]
  split
  · exact hupasses f
  · exact htpasses f

/-- Overrides without a common key give the same settings in either order. -/
theorem exists_withOverrides_comm (hdisjoint : ∀ d ∈ a, ∀ e ∈ b, d.1.isSameKey e.1 = false)
    (ha : s.withOverrides a = .ok t) (hb : s.withOverrides b = .ok u) :
    ∃ v, t.withOverrides b = .ok v ∧ u.withOverrides a = .ok v := by
  obtain ⟨v, hv, hheld⟩ := exists_withOverrides_after ha hb
  obtain ⟨w, hw, hheld'⟩ := exists_withOverrides_after hb ha
  have hvw : v = w := by
    refine Settings.ext_held fun f ↦ ?_
    rw [hheld, hheld']
    rcases hagiven : a.given? f with _ | x <;> rcases hbgiven : b.given? f with _ | y
    · have hat := (withOverrides_eq_ok_iff.mp ha).2.1 f
      have hbu := (withOverrides_eq_ok_iff.mp hb).2.1 f
      rw [Entries.outcome, hagiven] at hat
      rw [Entries.outcome, hbgiven] at hbu
      exact Except.ok.inj (hat.symm.trans hbu)
    · rfl
    · rfl
    · obtain ⟨d, hd, hdname, -⟩ := Entries.exists_mem_of_given? hagiven
      obtain ⟨e, he, hename, -⟩ := Entries.exists_mem_of_given? hbgiven
      exact absurd (Value.isSameKey_of_field? hdname hename) (by simp [hdisjoint d hd e he])
  exact ⟨v, hv, hvw ▸ hw⟩

end Laws

/-- Accepted settings overridden by all that they hold stay as they are. Overrides in sequence are
the first mapping updated by the second, and what neither names stays. Overrides that have no key in
common and are each accepted are accepted in either order, and give the same settings. -/
theorem overrides_compose {s : Settings} (hs : s.Accepted) :
    s.withOverrides s.entries = .ok s ∧
    (∀ {a b : Entries} {t u : Settings}, s.withOverrides a = .ok t → t.withOverrides b = .ok u →
      s.withOverrides (a.updated b) = .ok u ∧
        ∀ f : Field, (∀ e ∈ a ++ b, e.1 ≠ .text f.name) → f.held u = f.held s) ∧
    ∀ {a b : Entries} {t u : Settings}, (∀ d ∈ a, ∀ e ∈ b, d.1.isSameKey e.1 = false) →
      s.withOverrides a = .ok t → s.withOverrides b = .ok u →
        ∃ v, t.withOverrides b = .ok v ∧ u.withOverrides a = .ok v := by
  refine ⟨?_, fun ha hb ↦ ⟨withOverrides_updated ha hb, fun f h ↦ ?_⟩,
    fun hdisjoint ha hb ↦ exists_withOverrides_comm hdisjoint ha hb⟩
  · have hpasses := (checkSettings_eq_ok_iff.mp hs.check).2
    refine withOverrides_eq_ok_iff.mpr
      ⟨Settings.isConvertible_entries hpasses, fun f ↦ ?_, hpasses⟩
    rw [Entries.outcome, Settings.given?_entries]
    exact convertValue_value (hpasses f)
  · obtain ⟨hfirst, hsecond⟩ := List.forall_mem_append.mp h
    rw [held_of_forall_ne hb hsecond, held_of_forall_ne ha hfirst]

/-- The default settings, with an agent from the environment, a width that is given twice, and a
colour that is trimmed. -/
theorem overrides_compose_widthTwice :
    let s : Settings := { userAgent := "Reader" }
    let a : Entries := [(.text "image_width_in", .int 3), (.text "link_color", .text " 00ff00 ")]
    let b : Entries := [(.text "image_width_in", .text "4.5")]
    let c : Entries := [(.text "code_font", .int 7)]
    let t : Settings := { s with imageWidth := .ofNat 3, linkColor := "00ff00" }
    let u : Settings := { t with imageWidth := .ofRatio false 9 2 }
    s.Accepted ∧ s.withOverrides s.entries = .ok s ∧
      (s.withOverrides a = .ok t ∧ t.withOverrides b = .ok u ∧
        s.withOverrides (a.updated b) = .ok u ∧ u.codeFont = s.codeFont) ∧
      s.withOverrides c = .ok { s with codeFont := "7" } ∧
        ∃ v, t.withOverrides c = .ok v ∧
          Settings.withOverrides { s with codeFont := "7" } a = .ok v := by
  intro s a b c t u
  have hs : s.Accepted :=
    @Settings.Accepted.ofEnvironment [("MARKDOCX_USER_AGENT", " Reader")] s (by decide)
  have ha : s.withOverrides a = .ok t := by decide
  have hb : t.withOverrides b = .ok u := by decide
  have hc : s.withOverrides c = .ok { s with codeFont := "7" } := by decide
  have hdisjoint : ∀ d ∈ a, ∀ e ∈ c, d.1.isSameKey e.1 = false := by decide
  have hfont : ∀ e ∈ a ++ b, e.1 ≠ .text (Field.text .codeFont).name := by
    simp [a, b, Field.name, TextField.name]
  obtain ⟨hall, hsequence, hcommute⟩ := overrides_compose hs
  obtain ⟨hupdated, hkept⟩ := hsequence ha hb
  refine ⟨hs, hall, ⟨ha, hb, hupdated, ?_⟩, hc, hcommute hdisjoint ha hc⟩
  have hheld := hkept (.text .codeFont) hfont
  simpa [Field.held, TextField.get] using hheld

end Folio
