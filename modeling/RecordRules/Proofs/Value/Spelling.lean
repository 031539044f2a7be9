import RecordRules.Proofs.Decimal.Written
import RecordRules.Proofs.Json.Reading
import RecordRules.Proofs.Numeral.Spelling
import RecordRules.Proofs.Value.Elementwise
import Mathlib.Data.List.Induction

/-!
# The spelling of literals

A literal that is read from a number is written as the number was, up to the sign of a zero: an
integer always, and a decimal as long as there is room for each of the digits. Main statements:
`Kind.Denotes.shows` and `Numeral.IsSpelled.ofNumeral?_eq`.
-/

namespace RecordRules

/-! ### Decimals -/

namespace Digits

theorem value_lt (digits : Digits) : digits.value < 10 ^ digits.length := by
  induction digits using List.reverseRecOn with
  | nil => decide
  | append_singleton digits last ih =>
      have hbound := last.isLt
      rw [value_concat, List.length_append, List.length_singleton, pow_succ']
      omega

/-- The last digits of a number are the ones that were put after the others. -/
theorem lastOf_append (digits : Digits) (whole : Nat) :
    lastOf digits.length (whole * 10 ^ digits.length + digits.value) = digits := by
  induction digits using List.reverseRecOn with
  | nil => rfl
  | append_singleton digits last ih =>
      have hbound := last.isLt
      have hnumber : whole * 10 ^ (digits.length + 1) + value (digits ++ [last]) =
          10 * (whole * 10 ^ digits.length + value digits) + last.val := by
        rw [value_concat]
        ring
      have hbefore (number : Nat) : (10 * number + last.val) / 10 = number := by omega
      have hdigit (number : Nat) : Fin.ofNat 10 (10 * number + last.val) = last := by
        apply Fin.ext
        rw [Fin.val_ofNat]
        omega
      rw [List.length_append, List.length_singleton, hnumber, lastOf, hbefore, hdigit, ih]

end Digits

namespace Numeral

variable {numeral : Numeral}

/-- All digits find room in a decimal. -/
structure FitsDecimal (numeral : Numeral) : Prop where
  mantissa_lt : numeral.mantissa < mantissaLimit
  length_le : numeral.fraction.length ≤ 28

/-- The decimal of a number, digit for digit. -/
def toDecimal (numeral : Numeral) (hfits : numeral.FitsDecimal) : Decimal :=
  ⟨numeral.negative, numeral.mantissa, numeral.fraction.length, hfits.mantissa_lt, hfits.length_le⟩

theorem mantissa_div (numeral : Numeral) :
    numeral.mantissa / 10 ^ numeral.fraction.length = numeral.whole := by
  have hpower : 0 < 10 ^ numeral.fraction.length := Nat.pow_pos (by decide)
  rw [mantissa, Nat.mul_comm, Nat.mul_add_div hpower, Nat.div_eq_of_lt numeral.fraction.value_lt,
    Nat.add_zero]

theorem toNumeral_toDecimal (hexponent : numeral.exponent = none) (hfits : numeral.FitsDecimal) :
    (numeral.toDecimal hfits).toNumeral = numeral := by
  have hwhole := numeral.mantissa_div
  have hfraction : Digits.lastOf numeral.fraction.length numeral.mantissa = numeral.fraction :=
    Digits.lastOf_append numeral.fraction numeral.whole
  obtain ⟨negative, whole, fraction, exponent⟩ := numeral
  cases hexponent
  exact (Numeral.mk.injEq ..).mpr ⟨rfl, hwhole, hfraction, rfl⟩

theorem ofNumeral?_of_fits (hexponent : numeral.exponent = none) (hfits : numeral.FitsDecimal) :
    Decimal.ofNumeral? numeral = some (numeral.toDecimal hfits).unsignZero := by
  rw [← Decimal.ofNumeral?_toNumeral, toNumeral_toDecimal hexponent hfits]

/-- A sign is dropped from the decimal exactly if it is dropped from the numeral. -/
theorem toNumeral_unsignZero (hexponent : numeral.exponent = none) (hfits : numeral.FitsDecimal) :
    (numeral.toDecimal hfits).unsignZero.toNumeral = numeral.unsignZero :=
  congrArg (fun kept : Numeral => { kept with
    negative := numeral.negative && numeral.mantissa != 0 }) (toNumeral_toDecimal hexponent hfits)

end Numeral

/-- A text all of whose digits find room in a decimal. -/
structure Text.FitsDecimal (text : String) : Prop where
  places_le : (Digits.afterPoint text).length ≤ 28
  value_le : (Digits.ofText text).value ≤ 79228162514264337593543950335

namespace Numeral

variable {numeral : Numeral} {text : String}

theorem IsSpelled.fitsDecimal (hspelled : numeral.IsSpelled text) (hfits : Text.FitsDecimal text) :
    numeral.FitsDecimal := by
  obtain ⟨hexponent, rfl⟩ := hspelled.exponent_and_text
  obtain ⟨hplaces, hvalue⟩ := hfits
  rw [afterPoint_text hexponent] at hplaces
  rw [value_ofText_text hexponent] at hvalue
  exact ⟨Nat.lt_of_le_of_lt hvalue (by decide), hplaces⟩

/-- The text is JSON. -/
theorem IsSpelled.ofText_eq (hspelled : numeral.IsSpelled text) :
    Json.ofText text = .ok (.number numeral) := by
  have hscalar : (Json.number numeral).nesting = 0 := rfl
  have hread := Json.readWithin_text Json.depthLimit (Json.isOrdered_scalar hscalar)
  rwa [Json.reread_scalar hscalar, Json.text, hspelled.exponent_and_text.2] at hread

theorem IsSpelled.text_unsignZero (hspelled : numeral.IsSpelled text) :
    numeral.unsignZero.text = Text.unsignZero text := by
  obtain ⟨hexponent, rfl⟩ := hspelled.exponent_and_text
  exact numeral.text_unsignZero hexponent

/-- A decimal comes out of the digits as they are written. -/
theorem IsSpelled.ofNumeral?_eq (hspelled : numeral.IsSpelled text)
    (hfits : Text.FitsDecimal text) : ∃ decimal, Decimal.ofNumeral? numeral = some decimal ∧
      decimal.scale = (Digits.afterPoint text).length ∧ decimal.text = Text.unsignZero text := by
  obtain ⟨hexponent, htext⟩ := hspelled.exponent_and_text
  have hroom := hspelled.fitsDecimal hfits
  refine ⟨_, ofNumeral?_of_fits hexponent hroom, ?_, ?_⟩
  · rw [← htext, afterPoint_text hexponent]
    rfl
  · rw [Decimal.text, toNumeral_unsignZero hexponent hroom, hspelled.text_unsignZero]

/-- The largest mantissa has room at the largest scale. -/
example : Text.FitsDecimal "-7.9228162514264337593543950335" :=
  ⟨by decide +kernel, by decide +kernel⟩

/-- Of the integers, one text alone is not kept. -/
theorem IsSpelled.unsignZero_eq (hspelled : numeral.IsSpelled text)
    (hfraction : numeral.fraction = []) :
    Text.unsignZero text = if text = "-0" then "0" else text := by
  obtain ⟨hexponent, rfl⟩ := hspelled.exponent_and_text
  obtain ⟨negative, whole, fraction, exponent⟩ := numeral
  obtain rfl : fraction = [] := hfraction
  obtain rfl : exponent = none := hexponent
  split
  · rename_i hminus
    rw [hminus]
    decide
  · rename_i hminus
    rw [← Numeral.text_unsignZero rfl]
    have hkept : (negative && whole != 0) = negative := by
      rw [Bool.and_eq_left_iff_imp]
      rintro rfl
      rw [bne_iff_ne]
      rintro rfl
      exact hminus rfl
    rw [unsignZero, mantissa_of_fraction_eq_nil rfl, hkept]

end Numeral

namespace Kind

variable {kind : Kind} {numeral : Numeral} {text : String}

/-- A number without an exponent is shown as it is spelled, if a decimal has room for it. -/
def Shows (kind : Kind) (element : Json) (shown : String) : Prop :=
  ∀ text (numeral : Numeral), element = .number numeral → numeral.IsSpelled text →
    (kind = .decimal → Text.FitsDecimal text) → shown = Text.unsignZero text

theorem text_of_toInt? {number : Int} (hspelled : numeral.IsSpelled text)
    (hinteger : numeral.toInt? = some number) : toString number = Text.unsignZero text := by
  rw [← Numeral.text_ofInt, Numeral.ofInt_of_toInt? hinteger, hspelled.text_unsignZero]

/-- A literal is written as it was in its document. -/
theorem Denotes.shows {element : Json} {item : kind.Carrier}
    (hdenotes : kind.Denotes element item) : kind.Shows element (kind.toValue item).text := by
  rintro text numeral rfl hspelled hfits
  cases kind with
  | int32 | int64 =>
      obtain ⟨_, ⟨⟩, hinteger⟩ := hdenotes
      exact text_of_toInt? hspelled hinteger
  | decimal =>
      obtain ⟨_, ⟨⟩, hdecimal⟩ := hdenotes
      obtain ⟨decimal, hread, -, htext⟩ := hspelled.ofNumeral?_eq (hfits rfl)
      rw [hdecimal] at hread
      cases hread
      exact htext
  | string | bool => cases hdenotes

/-- What is read from a number is not a string, so it is displayed as its text. -/
theorem Denotes.shows_display {element : Json} {item : kind.Carrier}
    (hdenotes : kind.Denotes element item) : kind.Shows element (kind.toValue item).display := by
  have hshows := hdenotes.shows
  cases kind with
  | int32 | int64 | decimal | bool => exact hshows
  | string =>
      rintro text numeral rfl
      cases hdenotes

end Kind

end RecordRules
