import Folio.Settings.Override
import Folio.Word.Character
import Mathlib.Tactic.IntervalCases

/-!
# Accepted settings

Settings are accepted if they come from an environment by any number of overrides. Accepted settings
have passed their check (`Settings.Accepted.check`), which looks at each setting by itself
(`checkSettings_eq_ok_iff`). So each of their colours is six hexadecimal digits
(`Settings.Accepted.isHexColor`), which a document can be given (`readColor_of_isHexColor`) and XML
can hold (`isCompatibleText_of_isHexColor`).
-/

set_option autoImplicit false
set_option relaxedAutoImplicit false

namespace Folio

open Word

/-! ### Colours of six hexadecimal digits -/

/-- The hexadecimal digits. -/
def hexDigitChars : List Char := "0123456789abcdefABCDEF".toList

/-- A hexadecimal digit is one of the sixteen, the letters in either case. -/
theorem mem_hexDigitChars {c : Char} (h : isHexDigit c = true) : c ∈ hexDigitChars := by
  have hc : c = Char.ofNat c.toNat := (Char.ofNat_toNat c).symm
  have hval : c.toNat = c.val.toNat := rfl
  have hrange : (48 ≤ c.toNat ∧ c.toNat ≤ 57) ∨ (97 ≤ c.toNat ∧ c.toNat ≤ 102) ∨
      (65 ≤ c.toNat ∧ c.toNat ≤ 70) := by
    simp only [isHexDigit, hexValue?, Char.le_def, UInt32.le_iff_toNat_le] at h
    grind
  rw [hc]
  rcases hrange with h | h | h
  all_goals
    obtain ⟨hlow, hhigh⟩ := h
    interval_cases c.toNat <;> decide

/-- What a look at the hexadecimal digits shows holds of each of them. -/
theorem of_isHexDigit {P : Char → Prop} [DecidablePred P]
    (hall : (hexDigitChars.all fun d ↦ decide (P d)) = true) {c : Char}
    (h : isHexDigit c = true) : P c :=
  of_decide_eq_true (List.all_eq_true.mp hall c (mem_hexDigitChars h))

/-- A hexadecimal digit is read as itself, and is none of the marks that may stand in a number. -/
theorem hexDigit_plain {c : Char} (h : isHexDigit c = true) :
    Numeral.plainDigit c = c ∧ Numeral.isMargin c = false ∧
      c ≠ '-' ∧ c ≠ '+' ∧ c ≠ 'x' ∧ c ≠ 'X' ∧ c ≠ '_' :=
  of_isHexDigit (P := fun d ↦ Numeral.plainDigit d = d ∧ Numeral.isMargin d = false ∧
    d ≠ '-' ∧ d ≠ '+' ∧ d ≠ 'x' ∧ d ≠ 'X' ∧ d ≠ '_') (by decide +kernel) h

theorem hexValue_le {c : Char} (h : isHexDigit c = true) : (hexValue? c).getD 0 ≤ 15 :=
  of_isHexDigit (P := fun d ↦ (hexValue? d).getD 0 ≤ 15) (by decide) h

theorem isCompatibleChar_of_isHexDigit {c : Char} (h : isHexDigit c = true) :
    isCompatibleChar c = true :=
  of_isHexDigit (P := fun d ↦ isCompatibleChar d = true) (by decide) h

/-- Two hexadecimal digits spell the number that they stand for. -/
theorem readHex_pair {c d : Char} (hc : isHexDigit c = true) (hd : isHexDigit d = true) :
    readHex? [c, d] = some (hexNumber [c, d] : Int) := by
  obtain ⟨hplain, hmargin, hminus, hplus, hx, hX, hline⟩ := hexDigit_plain hc
  obtain ⟨hplain', hmargin', -, -, hx', hX', hline'⟩ := hexDigit_plain hd
  have hmargins : Numeral.withoutMargins [c, d] = [c, d] := by
    simp [Numeral.withoutMargins, hmargin, hmargin']
  have hsign : Numeral.sign [c, d] = (false, [c, d]) := by
    unfold Numeral.sign
    split <;> simp_all
  have hmark : withoutHexMark [c, d] = [c, d] := by
    unfold withoutHexMark
    split <;> simp_all
  have hdigits : hexDigitsOf? [c, d] = some [c, d] := by
    unfold hexDigitsOf?
    split <;> simp_all [hexDigitsOf?]
  simp only [readHex?, List.map_cons, List.map_nil, hplain, hplain', hmargins, hsign, hmark,
    hdigits]
  rfl

/-- Two hexadecimal digits are a part of a colour, which is written with them in upper case. -/
theorem colorPart_pair {c d : Char} (hc : isHexDigit c = true) (hd : isHexDigit d = true) :
    ∃ n : Nat, colorPart [c, d] = .ok n ∧ n ≤ 255 ∧ upperHex n = [c.toUpper, d.toUpper] := by
  have hwritten {b : Char} (hb : isHexDigit b = true) :
      (hexDigit ((hexValue? b).getD 0)).toUpper = b.toUpper :=
    of_isHexDigit (P := fun b ↦ (hexDigit ((hexValue? b).getD 0)).toUpper = b.toUpper)
      (by decide) hb
  have hfirst := hexValue_le hc
  have hsecond := hexValue_le hd
  refine ⟨hexNumber [c, d], by rw [colorPart, readHex_pair hc hd], ?_, ?_⟩
  all_goals simp only [hexNumber, List.foldl_cons, List.foldl_nil, Nat.zero_mul, Nat.zero_add]
  · omega
  · have hhigh : ((hexValue? c).getD 0 * 16 + (hexValue? d).getD 0) / 16 % 16 =
        (hexValue? c).getD 0 := by omega
    have hlow : ((hexValue? c).getD 0 * 16 + (hexValue? d).getD 0) % 16 =
        (hexValue? d).getD 0 := by omega
    simp [upperHex, hexDigits, hhigh, hlow, hwritten hc, hwritten hd]

/-- Six hexadecimal digits are a colour, which is written with them in upper case. -/
theorem readColor_of_isHexColor {s : String} (h : isHexColor s = true) :
    readColor s = .ok s.toUpper := by
  simp only [isHexColor, Bool.and_eq_true, decide_eq_true_eq] at h
  obtain ⟨hlength, hdigits⟩ := h
  match hs : s.toList, hlength with
  | [a, b, c, d, e, f], _ =>
    rw [hs] at hdigits
    simp only [List.all_cons, List.all_nil, Bool.and_true, Bool.and_eq_true] at hdigits
    obtain ⟨ha, hb, hc, hd, he, hf⟩ := hdigits
    obtain ⟨red, hred, hred1, hredUpper⟩ := colorPart_pair ha hb
    obtain ⟨green, hgreen, hgreen1, hgreenUpper⟩ := colorPart_pair hc hd
    obtain ⟨blue, hblue, hblue1, hblueUpper⟩ := colorPart_pair he hf
    have hupper : s.toUpper = String.ofList
        [a.toUpper, b.toUpper, c.toUpper, d.toUpper, e.toUpper, f.toUpper] := by
      rw [← String.toList_inj, String.toUpper, String.toList_map, hs]
      simp
    simp [readColor, bind, Except.bind, *]

theorem isEmpty_of_isHexColor {s : String} (h : isHexColor s = true) : s.isEmpty = false := by
  rw [← Bool.not_eq_true, String.isEmpty_iff]
  rintro rfl
  exact absurd h (by decide)

/-- XML can hold six hexadecimal digits. -/
theorem isCompatibleText_of_isHexColor {s : String} (h : isHexColor s = true) :
    isCompatibleText s = true := by
  simp only [isHexColor, Bool.and_eq_true, List.all_eq_true] at h
  simp only [isCompatibleText, isCompatible, List.all_eq_true]
  intro c hc
  exact isCompatibleChar_of_isHexDigit (h.2 c hc)

/-! ### Settings -/

/-- Settings that an environment gives, changed by any number of overrides. -/
inductive Settings.Accepted : Settings → Prop
  | ofEnvironment {env : Environment} {s : Settings} (h : Settings.ofEnvironment env = .ok s) :
      Accepted s
  | withOverrides {s t : Settings} {entries : Entries} (h : Accepted s)
      (ht : s.withOverrides entries = .ok t) : Accepted t

/-- The assignment that gives a setting what some settings hold. -/
def Field.held (s : Settings) : Field → Assignment
  | number f => .number f (f.get s)
  | color f => .color f (f.get s)
  | text f => .text f (f.get s)

/-- Whether what is assigned passes the check of its setting. -/
def Assignment.passes : Assignment → Bool
  | number _ x => !x.isNonPositive
  | color _ s => isHexColor s
  | text _ _ => true

/-- Settings pass their check exactly if what each of them holds passes. -/
theorem checkSettings_eq_ok_iff {s t : Settings} :
    checkSettings s = .ok t ↔ t = s ∧ ∀ f : Field, (f.held s).passes = true := by
  constructor
  · intro h
    unfold checkSettings at h
    split at h
    · cases h
    · next htimeout =>
      split at h
      · cases h
      · next hextent =>
        simp only [Bool.or_eq_true, not_or, Bool.not_eq_true] at htimeout hextent
        split at h
        · cases h
        · next hfind =>
          obtain rfl := Except.ok.inj h
          refine ⟨rfl, fun f ↦ ?_⟩
          rcases f with (_ | _ | _) | f | f
          · simp [Field.held, Assignment.passes, NumberField.get, htimeout]
          · simp [Field.held, Assignment.passes, NumberField.get, hextent]
          · simp [Field.held, Assignment.passes, NumberField.get, hextent]
          · have hcolor := List.find?_eq_none.mp hfind f (by cases f <;> decide)
            simpa [Field.held, Assignment.passes] using hcolor
          · rfl
  · rintro ⟨rfl, h⟩
    have htimeout : t.fetchTimeout.isNonPositive = false := by
      simpa [Field.held, Assignment.passes, NumberField.get] using h (.number .fetchTimeout)
    have hwidth : t.imageWidth.isNonPositive = false := by
      simpa [Field.held, Assignment.passes, NumberField.get] using h (.number .imageWidth)
    have hheight : t.imageHeight.isNonPositive = false := by
      simpa [Field.held, Assignment.passes, NumberField.get] using h (.number .imageHeight)
    have hcolors : (ColorField.all.find? fun f ↦ !isHexColor (f.get t)) = none :=
      List.find?_eq_none.mpr fun f _ ↦ by simpa [Field.held, Assignment.passes] using h (.color f)
    simp [checkSettings, htimeout, hwidth, hheight, hcolors]

/-- A sequence of two computations succeeds only if both do. -/
theorem exists_ok_of_bind {ε α β : Type} {first : Except ε α} {next : α → Except ε β} {b : β}
    (h : first >>= next = .ok b) : ∃ a, first = .ok a ∧ next a = .ok b := by
  cases first with
  | error e => cases h
  | ok a => exact ⟨a, rfl, h⟩

/-- Accepted settings have passed their check. -/
theorem Settings.Accepted.check {s : Settings} (h : s.Accepted) : checkSettings s = .ok s := by
  have hpassed : ∃ t, checkSettings t = .ok s := by
    cases h with
    | ofEnvironment h =>
      unfold Settings.ofEnvironment at h
      dsimp only at h
      split at h
      · obtain ⟨t, -, ht⟩ := exists_ok_of_bind h
        exact ⟨_, ht⟩
      · split at h
        all_goals
          obtain ⟨t, -, ht⟩ := exists_ok_of_bind h
          exact ⟨_, ht⟩
    | withOverrides _ h =>
      unfold Settings.withOverrides at h
      split at h
      · obtain ⟨changes, -, ht⟩ := exists_ok_of_bind h
        exact ⟨_, ht⟩
      · cases h
  obtain ⟨t, ht⟩ := hpassed
  rw [← (checkSettings_eq_ok_iff.mp ht).1] at ht
  exact ht

/-- The colours of accepted settings are six hexadecimal digits each. -/
theorem Settings.Accepted.isHexColor {s : Settings} (h : s.Accepted) (f : ColorField) :
    Word.isHexColor (f.get s) = true :=
  (checkSettings_eq_ok_iff.mp h.check).2 (.color f)

/-- The default settings are those that an empty environment gives. -/
theorem Settings.ofEnvironment_nil : Settings.ofEnvironment [] = .ok {} := by decide +kernel

theorem Settings.accepted_default : Settings.Accepted {} := .ofEnvironment ofEnvironment_nil

end Folio
