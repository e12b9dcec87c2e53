import Folio.Proofs.Settings
import Folio.Settings.Source

/-!
# Loading settings

Most faults of the settings are reported as such (`SettingsFault.isReported`). The others stop the
program, and here is exactly when: a value stops the conversion for a setting if it is an integer
beyond all numbers of the format, or if its text is needed and holds an integer of too many digits
(`Unconvertible`); overrides stop it at a name that is no text among the unknown ones, or else at the
first such value (`OverrideEscape`); and a settings file stops it if its path has no home directory or
holds a NUL character, if its content is not UTF-8, if reading the notation fails in a scalar, or if its
overrides do (`LoadEscape`). `load_escapes_iff` says that nothing else does, whatever the environment,
the file and its content are, and whatever reads the notation.
-/

set_option autoImplicit false
set_option relaxedAutoImplicit false

namespace Folio

/-! ### Values that cannot be written -/

namespace Value

mutual

/-- Whether a value is or holds, at any depth, an integer of too many digits to be written. -/
def holdsLong : Value → Bool
  | int n => decide (digitLimit < (Nat.toDigits 10 n.natAbs).length)
  | list items => anyLong items
  | pair first second => first.holdsLong || second.holdsLong
  | set items => anyLong items
  | map entries => anyLongEntry entries
  | null | bool _ | float _ | text _ | bytes _ | date _ | moment _ | enclosing _ => false

/-- Whether one of some values is or holds an integer of too many digits. -/
def anyLong : List Value → Bool
  | [] => false
  | v :: vs => v.holdsLong || anyLong vs

/-- Whether a key or a value of some entries is or holds an integer of too many digits. -/
def anyLongEntry : List (Value × Value) → Bool
  | [] => false
  | (key, v) :: entries => key.holdsLong || v.holdsLong || anyLongEntry entries

end

mutual

/-- A value has no form exactly if it holds an integer of too many digits. -/
theorem form?_eq_none_iff : ∀ {v : Value}, v.form? = none ↔ v.holdsLong = true
  | int n => by
    rw [form?, intText?, holdsLong]
    split <;> simp [*]
  | list items => by
    rw [form?, Option.map_eq_none_iff, holdsLong]
    exact forms?_eq_none_iff
  | pair first second => by
    have hfirst : first.form? = none ↔ first.holdsLong = true := form?_eq_none_iff
    have hsecond : second.form? = none ↔ second.holdsLong = true := form?_eq_none_iff
    rw [form?, holdsLong, Bool.or_eq_true, ← hfirst, ← hsecond]
    rcases first.form? with _ | a <;> rcases second.form? with _ | b <;> simp
  | set [] => by simp [form?, holdsLong, anyLong]
  | set (v :: vs) => by
    rw [form?, Option.map_eq_none_iff, holdsLong]
    · exact forms?_eq_none_iff
    · simp
  | map entries => by
    rw [form?, Option.map_eq_none_iff, holdsLong]
    exact entryForms?_eq_none_iff
  | null | bool _ | float _ | text _ | bytes _ | date _ | moment _ | enclosing _ => by
    simp [form?, holdsLong]

theorem forms?_eq_none_iff : ∀ {vs : List Value}, forms? vs = none ↔ anyLong vs = true
  | [] => by simp [forms?, anyLong]
  | v :: vs => by
    have hfirst : v.form? = none ↔ v.holdsLong = true := form?_eq_none_iff
    have hrest : forms? vs = none ↔ anyLong vs = true := forms?_eq_none_iff
    rw [forms?, anyLong, Bool.or_eq_true, ← hfirst, ← hrest]
    rcases v.form? with _ | a <;> rcases forms? vs with _ | b <;> simp

theorem entryForms?_eq_none_iff : ∀ {entries : List (Value × Value)},
    entryForms? entries = none ↔ anyLongEntry entries = true
  | [] => by simp [entryForms?, anyLongEntry]
  | (key, v) :: entries => by
    have hkey : key.form? = none ↔ key.holdsLong = true := form?_eq_none_iff
    have hvalue : v.form? = none ↔ v.holdsLong = true := form?_eq_none_iff
    have hrest : entryForms? entries = none ↔ anyLongEntry entries = true :=
      entryForms?_eq_none_iff
    rw [entryForms?, anyLongEntry, Bool.or_eq_true, Bool.or_eq_true, ← hkey, ← hvalue, ← hrest]
    rcases key.form? with _ | a <;> rcases v.form? with _ | b <;>
      rcases entryForms? entries with _ | c <;> simp

end

/-- A value has no text exactly if it holds an integer of too many digits. -/
theorem text?_eq_none_iff {v : Value} : v.text? = none ↔ v.holdsLong = true := by
  rw [← form?_eq_none_iff]
  cases v <;> simp [text?, form?]

end Value

/-! ### Converting values -/

/-- Why the program stops at converting a value for a setting: the value is an integer beyond all
numbers, or it holds an integer of too many digits and its text is needed, as that of the setting or
for the report that it is of the wrong kind. -/
inductive Unconvertible : Field → Value → SettingsFault → Prop
  | huge {f : NumberField} {n : Int} (h : Binary64.ofInt? n = none) :
      Unconvertible (.number f) (.int n) .hugeInteger
  | noNumber {f : NumberField} {v : Value} (hother : ∀ n, v ≠ .int n) (hlong : v.holdsLong = true) :
      Unconvertible (.number f) v .textTooLong
  | noColor {f : ColorField} {v : Value} (hlong : v.holdsLong = true) :
      Unconvertible (.color f) v .textTooLong
  | noText {f : TextField} {v : Value} (hlong : v.holdsLong = true) :
      Unconvertible (.text f) v .textTooLong

/-- The report of a value needs its form. -/
theorem reportForm_escapes_iff {α : Type} {v : Value} {report : String → SettingsFault}
    (hreport : ∀ form, (report form).isReported = true) {fault : SettingsFault} :
    ((v.formOrFault.bind fun form ↦ .error (report form)) = (.error fault : Except _ α) ∧
      fault.isReported = false) ↔ v.holdsLong = true ∧ fault = .textTooLong := by
  rw [← Value.form?_eq_none_iff, Value.formOrFault]
  rcases v.form? with _ | form
  · simp only [Except.bind, Except.error.injEq, true_and]
    constructor
    · exact fun h ↦ h.1.symm
    · rintro rfl
      exact ⟨rfl, rfl⟩
  · simp only [Except.bind, Except.error.injEq, reduceCtorEq, false_and, iff_false, not_and,
      Bool.not_eq_false]
    rintro rfl
    exact hreport form

/-- A value gives a number that is too large exactly if it is an integer beyond all numbers. -/
theorem number?_eq_some_none_iff {v : Value} :
    v.number? = some none ↔ ∃ n, v = .int n ∧ Binary64.ofInt? n = none := by
  cases v with
  | bytes content => cases h : asciiText? content <;> simp [Value.number?, h]
  | _ => simp [Value.number?]

/-- A value that holds an integer of too many digits without being one gives no number. -/
theorem number?_of_holdsLong {v : Value} (hother : ∀ n, v ≠ .int n) (h : v.holdsLong = true) :
    v.number? = none := by
  cases v with
  | int n => exact absurd rfl (hother n)
  | list | pair | set | map => rfl
  | _ => cases h

section Convert

variable {v : Value} {fault : SettingsFault}

/-- When converting a value for a setting that takes a number stops the program. -/
theorem convertNumber_escapes_iff {f : NumberField} :
    (convertValue (.number f) v = .error fault ∧ fault.isReported = false) ↔
      Unconvertible (.number f) v fault := by
  rw [convertValue]
  rcases hnumber : v.number? with _ | _ | x
  · rw [reportForm_escapes_iff fun _ ↦ rfl]
    constructor
    · rintro ⟨hlong, rfl⟩
      refine .noNumber (fun n hn ↦ ?_) hlong
      rw [hn] at hnumber
      cases hnumber
    · rintro (hhuge | ⟨-, hlong⟩)
      · cases hnumber
      · exact ⟨hlong, rfl⟩
  · obtain ⟨n, rfl, hhuge⟩ := number?_eq_some_none_iff.mp hnumber
    constructor
    · rintro ⟨hfault, -⟩
      cases hfault
      exact .huge hhuge
    · rintro (_ | ⟨hother, -⟩)
      · exact ⟨rfl, rfl⟩
      · exact absurd rfl (hother n)
  · refine iff_of_false (by simp) ?_
    rintro (hhuge | ⟨hother, hlong⟩)
    · cases (number?_eq_some_none_iff.mpr ⟨_, rfl, hhuge⟩).symm.trans hnumber
    · cases (number?_of_holdsLong hother hlong).symm.trans hnumber

/-- When converting a value for a setting that takes a colour stops the program. -/
theorem convertColor_escapes_iff {f : ColorField} :
    (convertValue (.color f) v = .error fault ∧ fault.isReported = false) ↔
      Unconvertible (.color f) v fault := by
  by_cases htext : ∃ s, v = .text s
  · obtain ⟨s, rfl⟩ := htext
    refine iff_of_false (by simp [convertValue]) fun h ↦ ?_
    cases h with
    | noColor hlong => cases hlong
  · have hreport : convertValue (.color f) v =
        v.formOrFault.bind fun form ↦ .error (.noColor f.name form) := by
      cases v with
      | text s => exact absurd ⟨s, rfl⟩ htext
      | _ => rfl
    rw [hreport, reportForm_escapes_iff fun _ ↦ rfl]
    constructor
    · rintro ⟨hlong, rfl⟩
      exact .noColor hlong
    · intro h
      cases h with
      | noColor hlong => exact ⟨hlong, rfl⟩

/-- When converting a value for a setting that takes any text stops the program. -/
theorem convertText_escapes_iff {f : TextField} :
    (convertValue (.text f) v = .error fault ∧ fault.isReported = false) ↔
      Unconvertible (.text f) v fault := by
  rw [convertValue]
  rcases htext : v.text? with _ | s
  · constructor
    · rintro ⟨hfault, -⟩
      cases hfault
      exact .noText (Value.text?_eq_none_iff.mp htext)
    · intro h
      cases h
      exact ⟨rfl, rfl⟩
  · refine iff_of_false (by simp) fun h ↦ ?_
    cases h with
    | noText hlong => cases (Value.text?_eq_none_iff.mpr hlong).symm.trans htext

/-- Converting a value for a setting stops the program exactly for one of these reasons. -/
theorem convertValue_escapes_iff {field : Field} :
    (convertValue field v = .error fault ∧ fault.isReported = false) ↔
      Unconvertible field v fault := by
  cases field with
  | number f => exact convertNumber_escapes_iff
  | color f => exact convertColor_escapes_iff
  | text f => exact convertText_escapes_iff

end Convert

/-! ### Overrides -/

/-- A computation for every element of a list fails exactly if it fails for one of them and succeeds
for those in front. -/
theorem mapM_eq_error_iff {ε α β : Type} {f : α → Except ε β} {xs : List α} {e : ε} :
    xs.mapM f = .error e ↔ ∃ before x after, xs = before ++ x :: after ∧
      (∀ y ∈ before, ∃ b, f y = .ok b) ∧ f x = .error e := by
  induction xs with
  | nil => simp [pure, Except.pure]
  | cons x xs ih =>
    rw [List.mapM_cons]
    rcases hx : f x with e' | b
    · constructor
      · intro h
        cases h
        exact ⟨[], x, xs, rfl, by simp, hx⟩
      · rintro ⟨_ | ⟨y, before⟩, z, after, hsplit, hbefore, hz⟩
        · cases hsplit
          rw [hx] at hz
          cases hz
          rfl
        · cases hsplit
          obtain ⟨b, hb⟩ := hbefore x List.mem_cons_self
          cases hb.symm.trans hx
    · have hrest : (do let b ← Except.ok b; let bs ← xs.mapM f; pure (b :: bs)) = .error e ↔
          xs.mapM f = .error e := by
        rcases xs.mapM f with e' | bs <;> simp [bind, Except.bind, pure, Except.pure]
      rw [hrest, ih]
      constructor
      · rintro ⟨before, z, after, rfl, hbefore, hz⟩
        exact ⟨x :: before, z, after, rfl, List.forall_mem_cons.mpr ⟨⟨b, hx⟩, hbefore⟩, hz⟩
      · rintro ⟨_ | ⟨y, before⟩, z, after, hsplit, hbefore, hz⟩
        · cases hsplit
          cases hz.symm.trans hx
        · cases hsplit
          exact ⟨before, z, after, rfl, (List.forall_mem_cons.mp hbefore).2, hz⟩

/-- The names of overrides that are not those of settings. -/
def Entries.unknown (entries : Entries) : List Value :=
  (entries.map (·.1)).filter fun name ↦ name.field?.isNone

/-- Whether an entry names a setting and gives it a value that can be converted. -/
def IsConvertible (entry : Value × Value) : Prop :=
  ∃ field change, entry.1.field? = some field ∧ convertValue field entry.2 = .ok change

/-- Why the program stops at overrides: among the unknown names is one that is no text, or else the
values in front can be converted and one cannot. -/
inductive OverrideEscape (entries : Entries) : SettingsFault → Prop
  | name (h : ∃ name ∈ entries.unknown, name.nameText? = none) :
      OverrideEscape entries (unknownFault entries.unknown)
  | value {before after : Entries} {name v : Value} {field : Field} {fault : SettingsFault}
      (hknown : entries.unknown = []) (hentries : entries = before ++ (name, v) :: after)
      (hbefore : ∀ entry ∈ before, IsConvertible entry) (hname : name.field? = some field)
      (h : Unconvertible field v fault) : OverrideEscape entries fault

/-- Unknown names are reported exactly if all of them are texts. -/
theorem isReported_unknownFault {names : List Value} :
    (unknownFault names).isReported = false ↔ ∃ name ∈ names, name.nameText? = none := by
  have hnames : names.mapM Value.nameText? = none ↔ ∃ name ∈ names, name.nameText? = none := by
    induction names with
    | nil => simp
    | cons name names ih =>
      rcases hname : name.nameText? with _ | text
      · simp [hname]
      · rcases hrest : names.mapM Value.nameText? with _ | texts <;> simp_all
  rw [← hnames]
  unfold unknownFault
  rcases names.mapM Value.nameText? with _ | texts
  · simp only [iff_true]
    split
    · rfl
    · split <;> rfl
    · rfl
  · simp [SettingsFault.isReported]

/-- What a check refuses is reported. -/
theorem isReported_of_checkSettings {s : Settings} {fault : SettingsFault}
    (h : checkSettings s = .error fault) : fault.isReported = true := by
  unfold checkSettings at h
  split at h
  · cases h
    rfl
  · split at h
    · cases h
      rfl
    · split at h
      · cases h
        rfl
      · cases h

/-- What an environment is refused for is reported. -/
theorem isReported_of_ofEnvironment {env : Environment} {fault : SettingsFault}
    (h : Settings.ofEnvironment env = .error fault) : fault.isReported = true := by
  unfold Settings.ofEnvironment at h
  dsimp only at h
  split at h
  · simp only [bind, Except.bind] at h
    exact isReported_of_checkSettings h
  · split at h
    · simp only [bind, Except.bind] at h
      exact isReported_of_checkSettings h
    · cases h
      rfl

/-- Names that are all known are those of settings. -/
theorem exists_field_of_unknown_eq_nil {entries : Entries} (hknown : entries.unknown = [])
    {entry : Value × Value} (hentry : entry ∈ entries) : ∃ field, entry.1.field? = some field := by
  have hnone := List.filter_eq_nil_iff.mp hknown entry.1 (List.mem_map_of_mem hentry)
  rwa [Bool.not_eq_true, Option.isNone_eq_false_iff, Option.isSome_iff_exists] at hnone

/-- Converting the values of known names fails for the first that cannot be converted. -/
theorem assignments_eq_error_iff {entries : Entries} (hknown : entries.unknown = [])
    {fault : SettingsFault} :
    assignments entries = .error fault ↔ ∃ before name v after field,
      entries = before ++ (name, v) :: after ∧ (∀ entry ∈ before, IsConvertible entry) ∧
        name.field? = some field ∧ convertValue field v = .error fault := by
  rw [assignments, mapM_eq_error_iff]
  constructor
  · rintro ⟨before, ⟨name, v⟩, after, rfl, hbefore, hfault⟩
    obtain ⟨field, hfield⟩ := exists_field_of_unknown_eq_nil hknown
      (List.mem_append_right before (List.mem_cons_self (a := (name, v))))
    refine ⟨before, name, v, after, field, rfl, fun entry hentry ↦ ?_, hfield, ?_⟩
    · obtain ⟨f, hf⟩ := exists_field_of_unknown_eq_nil hknown (List.mem_append_left _ hentry)
      obtain ⟨change, hchange⟩ := hbefore entry hentry
      rw [hf] at hchange
      exact ⟨f, change, hf, hchange⟩
    · simpa only [hfield] using hfault
  · rintro ⟨before, name, v, after, field, rfl, hbefore, hfield, hfault⟩
    refine ⟨before, (name, v), after, rfl, fun entry hentry ↦ ?_, by simpa only [hfield]⟩
    obtain ⟨f, change, hf, hchange⟩ := hbefore entry hentry
    exact ⟨change, by simpa only [hf]⟩

/-- Overrides of known settings are refused when converting them or when checking the result. -/
theorem withOverrides_of_known {s : Settings} {entries : Entries} (hknown : entries.unknown = []) :
    s.withOverrides entries =
      (assignments entries).bind fun changes ↦ checkSettings (changes.foldl Assignment.apply s) := by
  rw [Settings.withOverrides, ← Entries.unknown, hknown]
  rfl

/-- Overrides with unknown names are refused for these. -/
theorem withOverrides_of_unknown {s : Settings} {entries : Entries}
    (hunknown : entries.unknown ≠ []) :
    s.withOverrides entries = .error (unknownFault entries.unknown) := by
  rw [Settings.withOverrides, ← Entries.unknown]
  split
  · contradiction
  · rfl

/-- Overrides stop the program exactly for one of these reasons, whatever settings they change. -/
theorem withOverrides_escapes_iff {s : Settings} {entries : Entries} {fault : SettingsFault} :
    (s.withOverrides entries = .error fault ∧ fault.isReported = false) ↔
      OverrideEscape entries fault := by
  by_cases hknown : entries.unknown = []
  · rw [withOverrides_of_known hknown]
    constructor
    · rintro ⟨hfault, hreported⟩
      rcases hchanges : assignments entries with e | changes
      · rw [hchanges] at hfault
        cases hfault
        obtain ⟨before, name, v, after, field, hentries, hbefore, hfield, hvalue⟩ :=
          (assignments_eq_error_iff hknown).mp hchanges
        exact .value hknown hentries hbefore hfield
          (convertValue_escapes_iff.mp ⟨hvalue, hreported⟩)
      · rw [hchanges] at hfault
        cases (isReported_of_checkSettings hfault).symm.trans hreported
    · intro h
      cases h with
      | name h =>
        obtain ⟨name, hname, -⟩ := h
        rw [hknown] at hname
        cases hname
      | value _ hentries hbefore hfield h =>
        obtain ⟨hvalue, hreported⟩ := convertValue_escapes_iff.mpr h
        have hchanges := (assignments_eq_error_iff hknown).mpr
          ⟨_, _, _, _, _, hentries, hbefore, hfield, hvalue⟩
        rw [hchanges]
        exact ⟨rfl, hreported⟩
  · rw [withOverrides_of_unknown hknown]
    constructor
    · rintro ⟨hfault, hreported⟩
      cases hfault
      exact .name (isReported_unknownFault.mp hreported)
    · intro h
      cases h with
      | name h => exact ⟨rfl, isReported_unknownFault.mpr h⟩
      | value h => exact absurd h hknown

/-! ### The file -/

/-- Why the program stops at a settings file, where `parse` reads YAML: its path has no home directory
or holds a NUL character, its content is not UTF-8, one of its scalars has no value, or its overrides
stop the program. -/
inductive LoadEscape (parse : List Char → Except Yaml.Fault Value) (homes : Homes)
    (files : FileTree) (file : String) : SettingsFault → Prop
  | home (h : (PurePath.ofString file).expanded? homes = none) :
      LoadEscape parse homes files file .noHome
  | nul {path : PurePath} (hpath : (PurePath.ofString file).expanded? homes = some path)
      (h : path.holdsNul = true) : LoadEscape parse homes files file .nulInPath
  | content {path : PurePath} {bytes : List UInt8} {fault : Utf8Fault}
      (hpath : (PurePath.ofString file).expanded? homes = some path)
      (hnul : path.holdsNul = false) (hread : files.read path = .ok bytes)
      (h : readUtf8 bytes = .error fault) : LoadEscape parse homes files file (.undecodable fault)
  | scalar {path : PurePath} {text : List Char} {fault : Yaml.Fault}
      (hpath : (PurePath.ofString file).expanded? homes = some path)
      (htext : settingsText files path = .ok text) (h : parse text = .error fault)
      (hfault : fault ≠ .malformed) : LoadEscape parse homes files file (.noValue fault)
  | overrides {path : PurePath} {text : List Char} {entries : Entries} {fault : SettingsFault}
      (hpath : (PurePath.ofString file).expanded? homes = some path)
      (htext : settingsText files path = .ok text) (hentries : parse text = .ok (.map entries))
      (h : OverrideEscape (withItself entries) fault) : LoadEscape parse homes files file fault

section Load

variable {parse : List Char → Except Yaml.Fault Value} {homes : Homes} {files : FileTree}

/-- Reading a settings file stops the program at a NUL character in its path or at content that is
not UTF-8. -/
theorem settingsText_escapes_iff {path : PurePath} {fault : SettingsFault} :
    (settingsText files path = .error fault ∧ fault.isReported = false) ↔
      (path.holdsNul = true ∧ fault = .nulInPath) ∨
      (path.holdsNul = false ∧ ∃ bytes e, files.read path = .ok bytes ∧
        readUtf8 bytes = .error e ∧ fault = .undecodable e) := by
  unfold settingsText
  rcases path.holdsNul
  · rcases files.read path with e | bytes
    · exact iff_of_false (by rintro ⟨⟨⟩, ⟨⟩⟩) (by simp)
    · simp only [Bool.false_eq_true, if_false, false_and, false_or, true_and]
      rcases htext : readUtf8 bytes with e | text
      · constructor
        · rintro ⟨hfault, -⟩
          cases hfault
          exact ⟨bytes, e, rfl, htext, rfl⟩
        · rintro ⟨bytes', e', hbytes, he, rfl⟩
          cases hbytes
          cases htext.symm.trans he
          exact ⟨rfl, rfl⟩
      · simp [htext]
  · constructor
    · rintro ⟨hfault, -⟩
      cases hfault
      exact .inl ⟨rfl, rfl⟩
    · rintro (⟨-, rfl⟩ | ⟨hnul, -⟩)
      · exact ⟨rfl, rfl⟩
      · cases hnul

/-- A scalar without a value stops the program. -/
theorem overridesOf_of_fault {path : PurePath} {e : Yaml.Fault} (he : e ≠ .malformed) :
    overridesOf path (.error e) = .error (.noValue e) := by
  cases e <;> first | rfl | contradiction

/-- Nothing but a scalar without a value stops the program before the overrides of a settings text
are known. -/
theorem exists_fault_of_overridesOf {path : PurePath} {parsed : Except Yaml.Fault Value}
    {fault : SettingsFault} (h : overridesOf path parsed = .error fault)
    (hreported : fault.isReported = false) :
    ∃ e, parsed = .error e ∧ e ≠ .malformed ∧ fault = .noValue e := by
  unfold overridesOf at h
  split at h
  · cases h
    cases hreported
  · next e hne =>
    cases h
    exact ⟨e, rfl, hne, rfl⟩
  · cases h
  · split at h
    · cases h
    · cases h
      cases hreported

/-- The overrides of a settings text are those of its mapping, or none. -/
theorem eq_nil_or_of_overridesOf {path : PurePath} {parsed : Except Yaml.Fault Value}
    {overrides : Entries} (h : overridesOf path parsed = .ok overrides) :
    overrides = [] ∨ ∃ entries, parsed = .ok (.map entries) ∧ overrides = withItself entries := by
  unfold overridesOf at h
  split at h
  · cases h
  · cases h
  · next entries =>
    cases h
    exact .inr ⟨entries, rfl, rfl⟩
  · split at h
    · cases h
      exact .inl rfl
    · cases h

/-- No overrides, no escape. -/
theorem not_overrideEscape_nil {fault : SettingsFault} : ¬ OverrideEscape [] fault := by
  intro h
  cases h with
  | name h => simp [Entries.unknown] at h
  | value _ hentries => simp at hentries

/-- A settings file is read, its text understood and its overrides applied, in this order. -/
theorem load_of_path {env : Environment} {s : Settings} {file : String} {path : PurePath}
    (hs : Settings.ofEnvironment env = .ok s)
    (hpath : (PurePath.ofString file).expanded? homes = some path) :
    Settings.loadWith parse env homes files (some file) =
      (settingsText files path).bind fun text ↦
        (overridesOf path (parse text)).bind fun overrides ↦ s.withOverrides overrides := by
  simp only [Settings.loadWith, hs, bind, Except.bind, hpath]

section File

variable {env : Environment} {s : Settings} {file : String} {fault : SettingsFault}
  (hs : Settings.ofEnvironment env = .ok s)

include hs

/-- A file whose path has no home directory stops the program. -/
theorem load_of_noHome (hpath : (PurePath.ofString file).expanded? homes = none) :
    Settings.loadWith parse env homes files (some file) = .error .noHome := by
  simp only [Settings.loadWith, hs, bind, Except.bind, hpath]

/-- What stops the program at a settings file without a report is one of the reasons of
`LoadEscape`. -/
theorem loadEscape_of_load
    (hfault : Settings.loadWith parse env homes files (some file) = .error fault)
    (hreported : fault.isReported = false) : LoadEscape parse homes files file fault := by
  rcases hpath : (PurePath.ofString file).expanded? homes with _ | path
  · rw [load_of_noHome hs hpath] at hfault
    cases hfault
    exact .home hpath
  · rw [load_of_path hs hpath] at hfault
    rcases htext : settingsText files path with e | text
    · rw [htext] at hfault
      cases hfault
      rcases settingsText_escapes_iff.mp ⟨htext, hreported⟩ with
        ⟨hnul, rfl⟩ | ⟨hnul, bytes, e, hread, hbytes, rfl⟩
      · exact .nul hpath hnul
      · exact .content hpath hnul hread hbytes
    · rcases hoverrides : overridesOf path (parse text) with e | overrides
      · rw [htext, Except.bind, hoverrides] at hfault
        cases hfault
        obtain ⟨e, hparse, he, rfl⟩ := exists_fault_of_overridesOf hoverrides hreported
        exact .scalar hpath htext hparse he
      · rw [htext, Except.bind, hoverrides, Except.bind] at hfault
        have hescape := withOverrides_escapes_iff.mp ⟨hfault, hreported⟩
        rcases eq_nil_or_of_overridesOf hoverrides with rfl | ⟨entries, hparse, rfl⟩
        · exact absurd hescape not_overrideEscape_nil
        · exact .overrides hpath htext hparse hescape

/-- Each reason of `LoadEscape` stops the program at a settings file without a report. -/
theorem load_of_loadEscape (h : LoadEscape parse homes files file fault) :
    Settings.loadWith parse env homes files (some file) = .error fault ∧
      fault.isReported = false := by
  cases h with
  | home hpath => exact ⟨load_of_noHome hs hpath, rfl⟩
  | @nul path hpath hnul =>
    have hescape := @settingsText_escapes_iff files path .nulInPath
    obtain ⟨htext, hreported⟩ := hescape.mpr (.inl ⟨hnul, rfl⟩)
    exact ⟨by rw [load_of_path hs hpath, htext, Except.bind], hreported⟩
  | content hpath hnul hread hbytes =>
    obtain ⟨htext, hreported⟩ := settingsText_escapes_iff.mpr
      (.inr ⟨hnul, _, _, hread, hbytes, rfl⟩)
    exact ⟨by rw [load_of_path hs hpath, htext, Except.bind], hreported⟩
  | scalar hpath htext hparse he =>
    refine ⟨?_, rfl⟩
    rw [load_of_path hs hpath, htext, Except.bind, hparse, overridesOf_of_fault he,
      Except.bind]
  | overrides hpath htext hparse hescape =>
    obtain ⟨hfault, hreported⟩ := withOverrides_escapes_iff.mpr hescape
    refine ⟨?_, hreported⟩
    rw [load_of_path hs hpath, htext, Except.bind, hparse, overridesOf]
    exact hfault

end File

/-- Loading settings fails in a way that is not told to the user exactly if the environment gives
settings and a file is named that stops the program for one of the reasons of `LoadEscape`. In every
other case it gives settings or reports why not. This is so whatever reads YAML. -/
theorem load_escapes_iff (parse : List Char → Except Yaml.Fault Value) (env : Environment)
    (homes : Homes) (files : FileTree) (path : Option String) (fault : SettingsFault) :
    (Settings.loadWith parse env homes files path = .error fault ∧ fault.isReported = false) ↔
      (∃ s, Settings.ofEnvironment env = .ok s) ∧
        ∃ file, path = some file ∧ LoadEscape parse homes files file fault := by
  rcases hs : Settings.ofEnvironment env with e | s
  · refine iff_of_false ?_ (by rintro ⟨⟨s, ⟨⟩⟩, -⟩)
    rintro ⟨hfault, hreported⟩
    rw [Settings.loadWith, hs] at hfault
    cases hfault
    cases (isReported_of_ofEnvironment hs).symm.trans hreported
  · rcases path with _ | file
    · simp [Settings.loadWith, hs, bind, Except.bind]
    · constructor
      · rintro ⟨hfault, hreported⟩
        exact ⟨⟨s, rfl⟩, file, rfl, loadEscape_of_load hs hfault hreported⟩
      · rintro ⟨-, file, hfile, hescape⟩
        cases hfile
        exact load_of_loadEscape hs hescape

/-- A tree with a settings file whose only byte starts no character. -/
def strayByte : FileTree where
  workingDirectory := []
  nodes := [(["c.yaml"], .file 0)]
  contents := [(0, [0xff])]

/-- A settings file whose only byte starts no character stops the program without a report. -/
theorem load_strayByte :
    ∃ fault, Settings.load [] (fun _ ↦ none) strayByte (some "c.yaml") =
      .error fault ∧ fault.isReported = false :=
  ⟨.undecodable ⟨0xff, 0, 1, .badStart⟩, by decide +kernel⟩

end Load

end Folio
