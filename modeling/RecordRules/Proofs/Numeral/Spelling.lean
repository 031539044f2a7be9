import Mathlib.Tactic.Ring
import RecordRules.Proofs.Numeral.Reading

/-!
# The spelling of numerals

A numeral keeps every digit of the text it is read from, so a number without an exponent has one
spelling, the text of its numeral; and its digits can be counted and added up in the text itself.
What is lost later is at most the sign of a zero. Main statements:
`Numeral.IsSpelled.exponent_and_text` and `Numeral.text_unsignZero`.
-/

namespace RecordRules

theorem Digit.char_of_ofChar? {char : Char} {digit : Digit} (hdigit : ofChar? char = some digit) :
    digit.char = char := by
  rw [ofChar?] at hdigit
  split at hdigit
  · cases hdigit
    rw [Digit.char, ← Char.toNat_inj]
    dsimp only
    rw [Nat.toNat_digitChar_of_lt_ten (by omega)]
    omega
  · cases hdigit

/-! ### What has been read -/

namespace NumeralPart

/-- The characters that have been read, as long as there is no exponent among them. A point is not
followed by an empty row of digits. -/
def plain? : NumeralPart → Option (List Char)
  | .sign => some ['-']
  | .whole negative number => some ((Numeral.signText negative).toList ++ Nat.toDigits 10 number)
  | .point negative number =>
    some ((Numeral.signText negative).toList ++ Nat.toDigits 10 number ++ ['.'])
  | .fraction negative number (last :: read) =>
    some ((Numeral.signText negative).toList ++ Nat.toDigits 10 number ++
      '.' :: (last :: read).reverse.map Digit.char)
  | _ => none

variable {part next : NumeralPart} {char : Char} {before : List Char}

theorem plain?_of_start? (hstart : start? char = some part) : part.plain? = some [char] := by
  rw [start?] at hstart
  split at hstart
  · cases hstart
    simp [plain?, *]
  · obtain ⟨digit, hdigit, rfl⟩ := Option.map_eq_some_iff.mp hstart
    rw [← Digit.char_of_ofChar? hdigit, plain?, Nat.toDigits_of_lt_base digit.isLt]
    rfl

theorem plain?_of_digit {digit : Digit} (hdigit : Digit.ofChar? char = some digit)
    (hstep : part.step? char = some next) (hbefore : part.plain? = some before) :
    next.plain? = some (before ++ [char]) := by
  rw [← Digit.char_of_ofChar? hdigit]
  cases part with
  | sign =>
      simp only [step?, hdigit] at hstep
      cases hstep
      cases hbefore
      rw [plain?, Nat.toDigits_of_lt_base digit.isLt]
      rfl
  | whole negative number =>
      simp only [step?, hdigit] at hstep
      split at hstep
      · cases hstep
      · rename_i hnumber
        cases hstep
        cases hbefore
        rw [plain?, ← Nat.toDigits_append_toDigits (by decide) (by omega) digit.isLt,
          Nat.toDigits_of_lt_base digit.isLt, List.append_assoc]
        rfl
  | point negative number =>
      simp only [step?, hdigit] at hstep
      cases hstep
      cases hbefore
      simp [plain?]
  | fraction negative number read =>
      simp only [step?, hdigit] at hstep
      cases hstep
      cases read with
      | nil => cases hbefore
      | cons last read =>
          cases hbefore
          simp [plain?]
  | exponentMark | exponentSign | exponent => cases hbefore

/-- A character that is taken is added to what has been read. -/
theorem plain?_of_step? (hstep : part.step? char = some next) (hbefore : part.plain? = some before)
    (hplain : isExponentMark char = false) : next.plain? = some (before ++ [char]) := by
  cases hdigit : Digit.ofChar? char with
  | some digit => exact plain?_of_digit hdigit hstep hbefore
  | none =>
      -- The point is the only other character that does not begin an exponent.
      cases part with
      | whole negative number =>
          simp only [step?, hdigit, hplain] at hstep
          split at hstep
          · cases hstep
            cases hbefore
            simp [plain?, *]
          · cases hstep
      | sign | point | fraction => simp [step?, hdigit, hplain] at hstep
      | exponentMark | exponentSign | exponent => cases hbefore

theorem plain?_of_foldlM {chars : List Char} (hfold : chars.foldlM step? part = some next)
    (hbefore : part.plain? = some before) (hplain : ∀ char ∈ chars, isExponentMark char = false) :
    next.plain? = some (before ++ chars) := by
  induction chars generalizing part before with
  | nil =>
      cases hfold
      rwa [List.append_nil]
  | cons char rest ih =>
      obtain ⟨hchar, hrest⟩ := List.forall_mem_cons.mp hplain
      rw [List.foldlM_cons] at hfold
      obtain ⟨middle, hstep, hfold⟩ := Option.bind_eq_some_iff.mp hfold
      rw [ih hfold (plain?_of_step? hstep hbefore hchar) hrest, List.append_assoc,
        List.singleton_append]

/-- What has been read is the text of the numeral that it makes. -/
theorem text_of_plain? {numeral : Numeral} (hbefore : part.plain? = some before)
    (hnumeral : part.numeral? = some numeral) :
    numeral.exponent = none ∧ numeral.text.toList = before := by
  cases part with
  | whole negative number =>
      cases hbefore
      cases hnumeral
      simp [Numeral.text, Numeral.fractionText]
  | fraction negative number read =>
      cases read with
      | nil => cases hbefore
      | cons last read =>
          cases hbefore
          cases hnumeral
          simp [Numeral.text, Numeral.fractionText, Digits.text]
  | sign | point => cases hnumeral
  | exponentMark | exponentSign | exponent => cases hbefore

end NumeralPart

namespace Numeral

/-- The text of a number that is written without an exponent. -/
structure IsSpelled (numeral : Numeral) (text : String) : Prop where
  read : ofText? text = some numeral
  plain : ∀ char ∈ text.toList, NumeralPart.isExponentMark char = false

variable {numeral : Numeral} {text : String}

theorem IsSpelled.exponent_and_text (hspelled : numeral.IsSpelled text) :
    numeral.exponent = none ∧ numeral.text = text := by
  obtain ⟨hread, hplain⟩ := hspelled
  rw [ofText?] at hread
  cases hchars : text.toList with
  | nil => simp [hchars] at hread
  | cons first rest =>
      rw [hchars] at hread hplain
      obtain ⟨start, hstart, hread⟩ := Option.bind_eq_some_iff.mp hread
      obtain ⟨part, hfold, hnumeral⟩ := Option.bind_eq_some_iff.mp hread
      have hpart := NumeralPart.plain?_of_foldlM hfold (NumeralPart.plain?_of_start? hstart)
        (List.forall_mem_cons.mp hplain).2
      obtain ⟨hexponent, htext⟩ := NumeralPart.text_of_plain? hpart hnumeral
      rw [← String.toList_inj, htext, hchars]
      exact ⟨hexponent, rfl⟩

end Numeral

/-! ### Digits in the text -/

namespace Digits

theorem foldl_eq (digits : Digits) (before : Nat) :
    digits.foldl (fun value digit => 10 * value + digit.val) before =
      before * 10 ^ digits.length + digits.value := by
  induction digits generalizing before with
  | nil => simp [value]
  | cons digit rest ih =>
      rw [value, List.foldl_cons, List.foldl_cons, ih, ih (10 * 0 + digit.val), List.length_cons]
      ring

theorem value_append (digits others : Digits) :
    value (digits ++ others) = value digits * 10 ^ others.length + value others := by
  rw [value, List.foldl_append, foldl_eq]
  rfl

theorem value_concat (digits : Digits) (last : Digit) :
    value (digits ++ [last]) = 10 * digits.value + last.val := by
  rw [value, List.foldl_append]
  rfl

/-- The digits among the characters. -/
def ofChars (chars : List Char) : Digits := chars.filterMap Digit.ofChar?

@[simp]
theorem ofChars_append (chars others : List Char) :
    ofChars (chars ++ others) = ofChars chars ++ ofChars others := List.filterMap_append

@[simp]
theorem ofChars_map_char (digits : Digits) : ofChars (digits.map Digit.char) = digits := by
  have hread : Digit.ofChar? ∘ Digit.char = some := funext Digit.ofChar?_char
  rw [ofChars, List.filterMap_map, hread, List.filterMap_some]

theorem value_ofChars_toDigits (number : Nat) :
    value (ofChars (Nat.toDigits 10 number)) = number := by
  induction number using Nat.strongRecOn with
  | ind number ih =>
      let last : Digit := ⟨number % 10, by omega⟩
      have hlast : ofChars [last.char] = [last] := ofChars_map_char [last]
      by_cases hsmall : number < 10
      · have hself : last.val = number := Nat.mod_eq_of_lt hsmall
        have hdigits : Nat.toDigits 10 number = [last.char] := by
          rw [Nat.toDigits_of_lt_base hsmall, Digit.char, hself]
        rw [hdigits, hlast]
        simp [value, hself]
      · have hdigits : Nat.toDigits 10 number = Nat.toDigits 10 (number / 10) ++ [last.char] :=
          Nat.toDigits_of_base_le (by decide) (by omega)
        rw [hdigits, ofChars_append, hlast, value_concat, ih (number / 10) (by omega)]
        exact Nat.div_add_mod number 10

/-- The digits of a text, whatever stands between them. -/
def ofText (text : String) : Digits := ofChars text.toList

/-- The digits of a text after its point. -/
def afterPoint (text : String) : Digits := ofChars (text.toList.dropWhile (· ≠ '.'))

end Digits

/-- A text without its minus if all of its digits are zeros, and any other text as it is. -/
def Text.unsignZero (text : String) : String :=
  if (Digits.ofText text).value = 0 then String.ofList (text.toList.filter (· ≠ '-')) else text

namespace Numeral

variable {numeral : Numeral}

/-- All of the digits before the exponent as one number. -/
def mantissa (numeral : Numeral) : Nat :=
  numeral.whole * 10 ^ numeral.fraction.length + numeral.fraction.value

theorem mantissa_of_fraction_eq_nil (hfraction : numeral.fraction = []) :
    numeral.mantissa = numeral.whole := by
  simp [mantissa, hfraction, Digits.value]

/-- Zero without its sign, and every other numeral as it is. -/
def unsignZero (numeral : Numeral) : Numeral :=
  { numeral with negative := numeral.negative && numeral.mantissa != 0 }

theorem toList_text (hexponent : numeral.exponent = none) :
    numeral.text.toList = (signText numeral.negative).toList ++
      (Nat.toDigits 10 numeral.whole ++ (fractionText numeral.fraction).toList) := by
  simp [text, hexponent]

theorem ofChars_signText (negative : Bool) : Digits.ofChars (signText negative).toList = [] := by
  cases negative <;> rfl

theorem toList_fractionText_cons (digit : Digit) (rest : Digits) :
    (fractionText (digit :: rest)).toList = '.' :: (digit :: rest).map Digit.char := by
  simp [fractionText, Digits.text]

theorem ofChars_fractionText (fraction : Digits) :
    Digits.ofChars (fractionText fraction).toList = fraction := by
  cases fraction with
  | nil => rfl
  | cons digit rest =>
      rw [toList_fractionText_cons]
      exact Digits.ofChars_map_char (digit :: rest)

theorem value_ofText_text (hexponent : numeral.exponent = none) :
    (Digits.ofText numeral.text).value = numeral.mantissa := by
  rw [Digits.ofText, toList_text hexponent, Digits.ofChars_append, Digits.ofChars_append,
    ofChars_signText, ofChars_fractionText, List.nil_append, Digits.value_append,
    Digits.value_ofChars_toDigits, mantissa]

theorem ne_of_mem_toDigits {number : Nat} {char other : Char}
    (hchar : char ∈ Nat.toDigits 10 number) (hother : other.isDigit = false) : char ≠ other := by
  rintro rfl
  rw [Nat.isDigit_of_mem_toDigits (by decide) (by decide) hchar] at hother
  cases hother

theorem afterPoint_text (hexponent : numeral.exponent = none) :
    Digits.afterPoint numeral.text = numeral.fraction := by
  have hpoint : ∀ char ∈ (signText numeral.negative).toList ++ Nat.toDigits 10 numeral.whole,
      decide (char ≠ '.') = true := by
    intro char hchar
    rw [decide_eq_true_eq]
    rcases List.mem_append.mp hchar with hchar | hchar
    · cases hnegative : numeral.negative <;> simp_all [signText]
    · exact ne_of_mem_toDigits hchar rfl
  have hfraction : (fractionText numeral.fraction).toList.dropWhile (· ≠ '.') =
      (fractionText numeral.fraction).toList := by
    cases numeral.fraction with
    | nil => rfl
    | cons digit rest =>
        rw [toList_fractionText_cons]
        rfl
  rw [Digits.afterPoint, toList_text hexponent, ← List.append_assoc,
    List.dropWhile_append_of_pos hpoint, hfraction, ofChars_fractionText]

/-- The minus is in the sign and nowhere else. -/
theorem filter_minus_text (hexponent : numeral.exponent = none) :
    numeral.text.toList.filter (· ≠ '-') = { numeral with negative := false }.text.toList := by
  have hsign : (signText numeral.negative).toList.filter (· ≠ '-') = [] := by
    cases numeral.negative <;> rfl
  have hwhole : (Nat.toDigits 10 numeral.whole).filter (· ≠ '-') =
      Nat.toDigits 10 numeral.whole := by
    rw [List.filter_eq_self]
    intro char hchar
    exact decide_eq_true (ne_of_mem_toDigits hchar rfl)
  have hfraction : (fractionText numeral.fraction).toList.filter (· ≠ '-') =
      (fractionText numeral.fraction).toList := by
    have hdigit (digit : Digit) : decide (digit.char ≠ '-') = true := by
      revert digit
      decide
    cases numeral.fraction with
    | nil => rfl
    | cons digit rest =>
        rw [toList_fractionText_cons, List.filter_cons_of_pos rfl, List.filter_eq_self.mpr]
        rintro char hchar
        obtain ⟨digit, -, rfl⟩ := List.mem_map.mp hchar
        exact hdigit digit
  have hunsigned : { numeral with negative := false }.exponent = none := hexponent
  rw [toList_text hexponent, List.filter_append, List.filter_append, hsign, hwhole, hfraction,
    toList_text hunsigned]
  rfl

theorem text_unsignZero (hexponent : numeral.exponent = none) :
    numeral.unsignZero.text = Text.unsignZero numeral.text := by
  rw [Text.unsignZero, value_ofText_text hexponent, filter_minus_text hexponent,
    String.ofList_toList, unsignZero]
  by_cases hzero : numeral.mantissa = 0
  · simp [hzero]
  · have hkept : (numeral.negative && numeral.mantissa != 0) = numeral.negative := by
      simp [hzero]
    rw [if_neg hzero, hkept]

/-! ### Integers -/

theorem text_ofInt (number : Int) : (ofInt number).text = toString number := by
  cases number with
  | ofNat number =>
      simp [ofInt, text, signText, fractionText]
      rfl
  | negSucc number =>
      simp [ofInt, text, signText, fractionText]
      rfl

theorem ofInt_of_toInt? {number : Int} (hinteger : numeral.toInt? = some number) :
    ofInt number = numeral.unsignZero := by
  obtain ⟨negative, whole, fraction, exponent⟩ := numeral
  rw [toInt?] at hinteger
  split at hinteger
  · rename_i hwritten
    obtain ⟨rfl, rfl⟩ : fraction = [] ∧ exponent = none := by simpa using hwritten
    cases hinteger
    rw [unsignZero, mantissa_of_fraction_eq_nil rfl]
    cases negative with
    | true => by_cases hzero : whole = 0 <;> simp [ofInt, hzero, Nat.pos_iff_ne_zero]
    | false => simp [ofInt]
  · cases hinteger

end Numeral

end RecordRules
