import Mathlib
import RecordRules.Proofs.Decimal.Written
import RecordRules.Proofs.Numeral.Spelling
import RecordRules.Value.Literals

/-!
# Values as they are shown

A string is shown between quotes, and every other value without characters that could be taken for
something else. What is shown of a value of a known kind is that value, and a value that is shown
like another one is written like it. Main statement: `Value.display_inj`.
-/

namespace RecordRules

namespace Numeral

/-- A numeral is its text. -/
theorem text_inj {numeral other : Numeral} (htext : numeral.text = other.text) :
    numeral = other := by
  rw [← Option.some.injEq, ← ofText?_text, htext, ofText?_text]

theorem text_ne_empty (numeral : Numeral) : numeral.text ≠ "" := by
  intro hempty
  have hread := ofText?_text numeral
  rw [hempty] at hread
  cases hread

theorem isDigit_of_mem_text {numeral : Numeral} (hexponent : numeral.exponent = none) {char : Char}
    (hchar : char ∈ numeral.text.toList) : char.isDigit = true ∨ char = '-' ∨ char = '.' := by
  rw [toList_text hexponent, List.mem_append, List.mem_append] at hchar
  rcases hchar with hsign | hwhole | hfraction
  · cases hnegative : numeral.negative <;> simp_all [signText]
  · exact .inl (Nat.isDigit_of_mem_toDigits (by decide) (by decide) hwhole)
  · cases hdigits : numeral.fraction with
    | nil => simp [hdigits, fractionText] at hfraction
    | cons digit rest =>
        have hdigit (digit : Digit) : digit.char.isDigit = true := by
          revert digit
          decide
        rw [hdigits, toList_fractionText_cons, List.mem_cons] at hfraction
        rcases hfraction with hpoint | hdigits
        · exact .inr (.inr hpoint)
        · obtain ⟨digit, -, rfl⟩ := List.mem_map.mp hdigits
          exact .inl (hdigit digit)

end Numeral

/-- The digits of a decimal tell its scale, and a sign is written even before zero. -/
theorem Decimal.text_inj {decimal other : Decimal} (htext : decimal.text = other.text) :
    decimal = other := by
  have hnumerals : decimal.toNumeral = other.toNumeral := Numeral.text_inj htext
  have hsign : decimal.negative = other.negative := congrArg Numeral.negative hnumerals
  have hdigits : decimal.unsignZero = other.unsignZero := by
    rw [← Option.some.injEq, ← ofNumeral?_toNumeral, hnumerals, ofNumeral?_toNumeral]
  obtain ⟨negative, mantissa, scale, _, _⟩ := decimal
  obtain ⟨negative, mantissa, scale, _, _⟩ := other
  simp_all [unsignZero]

namespace Value

variable {value other : Value}

theorem display_of_string (hkind : value.kind = .string) :
    value.display.toList = '"' :: value.text.toList ++ ['"'] := by
  cases value with
  | string text => simp [display, Value.text]
  | _ => cases hkind

theorem display_of_plain (hkind : value.kind ≠ .string) : value.display = value.text := by
  cases value with
  | string text => exact absurd rfl hkind
  | _ => rfl

/-- What is shown without quotes is a numeral or a truth value. -/
theorem display_eq_of_plain (hkind : value.kind ≠ .string) :
    (∃ numeral : Numeral, numeral.exponent = none ∧ value.display = numeral.text) ∨
      ∃ truth : Bool, value.display = toString truth := by
  cases value with
  | int32 value => exact .inl ⟨.ofInt value.toInt, rfl, (Numeral.text_ofInt _).symm⟩
  | int64 value => exact .inl ⟨.ofInt value.toInt, rfl, (Numeral.text_ofInt _).symm⟩
  | string text => exact absurd rfl hkind
  | decimal value => exact .inl ⟨value.toNumeral, rfl, rfl⟩
  | bool value => exact .inr ⟨value, rfl⟩

theorem isAlphanum_of_mem_display (hkind : value.kind ≠ .string) {char : Char}
    (hchar : char ∈ value.display.toList) :
    char.isAlphanum = true ∨ char = '-' ∨ char = '.' := by
  rcases display_eq_of_plain hkind with ⟨numeral, hexponent, hdisplay⟩ | ⟨truth, hdisplay⟩
  · rw [hdisplay] at hchar
    refine (Numeral.isDigit_of_mem_text hexponent hchar).imp_left fun hdigit => ?_
    rw [Char.isAlphanum, hdigit, Bool.or_true]
  · have hletters : (toString truth).toList.all Char.isAlphanum = true := by
      cases truth <;> decide
    exact .inl (List.all_eq_true.mp hletters char (hdisplay ▸ hchar))

theorem notMem_display (hkind : value.kind ≠ .string) {char : Char}
    (hchar : char = ' ' ∨ char = '[' ∨ char = '"') : char ∉ value.display.toList := by
  intro hmem
  have halphanum := isAlphanum_of_mem_display hkind hmem
  rcases hchar with rfl | rfl | rfl <;> revert halphanum <;> decide

theorem display_ne_empty (value : Value) : value.display ≠ "" := by
  by_cases hkind : value.kind = .string
  · intro hempty
    simpa [hempty] using display_of_string hkind
  · rcases display_eq_of_plain hkind with ⟨numeral, -, hdisplay⟩ | ⟨truth, hdisplay⟩
    · exact hdisplay ▸ numeral.text_ne_empty
    · rw [hdisplay]
      cases truth <;> decide

theorem getLast?_display_ne_bracket (value : Value) : value.display.toList.getLast? ≠ some '[' := by
  intro hlast
  by_cases hkind : value.kind = .string
  · rw [display_of_string hkind, List.getLast?_concat] at hlast
    cases hlast
  · exact notMem_display hkind (.inr (.inl rfl)) (List.mem_of_getLast? hlast)

theorem getLast?_display_eq_quote_iff :
    value.display.toList.getLast? = some '"' ↔ value.kind = .string := by
  constructor
  · intro hlast
    by_contra hkind
    exact notMem_display hkind (.inr (.inr rfl)) (List.mem_of_getLast? hlast)
  · intro hkind
    rw [display_of_string hkind, List.getLast?_concat]

theorem display_inj (hkind : value.kind = other.kind) (hdisplay : value.display = other.display) :
    value = other := by
  cases value <;> cases other <;> cases hkind
  case int32.int32 value other =>
    exact congrArg int32 (Int32.toInt_inj.mp (Int.repr_inj.mp hdisplay))
  case int64.int64 value other =>
    exact congrArg int64 (Int64.toInt_inj.mp (Int.repr_inj.mp hdisplay))
  case string.string value other =>
    exact congrArg string (by simpa [display] using hdisplay)
  case decimal.decimal value other => exact congrArg decimal (Decimal.text_inj hdisplay)
  case bool.bool value other =>
    revert hdisplay
    cases value <;> cases other <;> decide

theorem text_eq_of_display_eq (hdisplay : value.display = other.display) :
    value.text = other.text := by
  have hquote {value other : Value} (hkind : value.kind = .string) (hother : other.kind ≠ .string) :
      value.display ≠ other.display := by
    intro hdisplay
    apply notMem_display hother (.inr (.inr rfl))
    rw [← hdisplay, display_of_string hkind]
    exact List.mem_cons_self
  by_cases hkind : value.kind = .string <;> by_cases hother : other.kind = .string
  · exact congrArg text (display_inj (hkind.trans hother.symm) hdisplay)
  · exact absurd hdisplay (hquote hkind hother)
  · exact absurd hdisplay.symm (hquote hother hkind)
  · rwa [display_of_plain hkind, display_of_plain hother] at hdisplay

end Value

end RecordRules
