import RecordRules.Numeral.Reader

/-!
# Reading numerals back

A numeral is its own text: what is read from the text of a numeral is that numeral, and the part
that has been read at the end of the text tells every digit of it. Main statement:
`Numeral.ofText?_text`.
-/

namespace RecordRules

@[simp]
theorem Digit.ofChar?_char (digit : Digit) : Digit.ofChar? digit.char = some digit := by
  revert digit
  decide

namespace Numeral

/-- What has been read at the end of the text of a numeral. -/
def part (numeral : Numeral) : NumeralPart :=
  match numeral.exponent with
  | some exponent =>
    .exponent { numeral with exponent := none } exponent.negative exponent.lead exponent.rest.reverse
  | none =>
    if numeral.fraction.isEmpty then .whole numeral.negative numeral.whole
    else .fraction numeral.negative numeral.whole numeral.fraction.reverse

@[simp]
theorem numeral?_part (numeral : Numeral) : numeral.part.numeral? = some numeral := by
  obtain ⟨negative, whole, fraction, exponent⟩ := numeral
  cases exponent with
  | some exponent => simp [part, NumeralPart.numeral?]
  | none =>
      by_cases hempty : fraction.isEmpty
      · simp_all [part, NumeralPart.numeral?]
      · simp [part, NumeralPart.numeral?, hempty]

end Numeral

namespace NumeralPart

theorem start?_char (digit : Digit) : start? digit.char = some (.whole false digit.val) := by
  have hsign : digit.char ≠ '-' := by
    revert digit
    decide
  rw [start?, if_neg hsign, Digit.ofChar?_char]
  rfl

theorem step?_sign_char (digit : Digit) :
    step? .sign digit.char = some (.whole true digit.val) := by
  simp [step?]

/-- The digits of a number are read one after another, which never meets a zero in front of
another digit. -/
theorem foldlM_step?_toDigits (negative : Bool) (number : Nat) :
    ∃ (first : Digit) (rest : List Char), Nat.toDigits 10 number = first.char :: rest ∧
      rest.foldlM step? (.whole negative first.val) = some (.whole negative number) := by
  induction number using Nat.strongRecOn with
  | ind number ih =>
      by_cases hsmall : number < 10
      · exact ⟨⟨number, hsmall⟩, [], Nat.toDigits_of_lt_base hsmall, rfl⟩
      · have hbase : 10 ≤ number := by omega
        obtain ⟨first, rest, hdigits, hrest⟩ := ih (number / 10) (by omega)
        let last : Digit := ⟨number % 10, by omega⟩
        refine ⟨first, rest ++ [last.char], ?_, ?_⟩
        · rw [Nat.toDigits_of_base_le (by decide) hbase, hdigits]
          rfl
        · have hne : number / 10 ≠ 0 := by omega
          have hvalue : 10 * (number / 10) + last.val = number := Nat.div_add_mod number 10
          rw [List.foldlM_append, hrest]
          simp [step?, hne, hvalue]

/-- A row of digits grows by each digit that is read. -/
theorem foldlM_step?_row (row : Digits → NumeralPart)
    (hrow : ∀ read (digit : Digit), step? (row read) digit.char = some (row (digit :: read)))
    (read digits : Digits) :
    (digits.map Digit.char).foldlM step? (row read) = some (row (digits.reverse ++ read)) := by
  induction digits generalizing read with
  | nil => rfl
  | cons digit rest ih =>
      rw [List.map_cons, List.foldlM_cons, hrow, List.reverse_cons, List.append_assoc]
      exact ih (digit :: read)

theorem foldlM_step?_fractionText (negative : Bool) (number : Nat) (fraction : Digits) :
    (Numeral.fractionText fraction).toList.foldlM step? (.whole negative number) =
      some (Numeral.part ⟨negative, number, fraction, none⟩) := by
  cases fraction with
  | nil => rfl
  | cons digit rest =>
      have hpoint : step? (.whole negative number) '.' = some (.point negative number) := rfl
      have hfirst : step? (.point negative number) digit.char =
          some (.fraction negative number [digit]) := by
        simp [step?]
      have hrow := foldlM_step?_row (.fraction negative number)
        (fun read digit => by simp [step?]) [digit] rest
      simp [Numeral.fractionText, Digits.text, Numeral.part, hpoint, hfirst, hrow]

/-- An exponent can follow a whole part and a fraction alike. -/
theorem step?_part_exponentMark (negative : Bool) (number : Nat) (fraction : Digits) :
    step? (Numeral.part ⟨negative, number, fraction, none⟩) 'e' =
      some (.exponentMark ⟨negative, number, fraction, none⟩) := by
  have hdigit : Digit.ofChar? 'e' = none := rfl
  by_cases hempty : fraction.isEmpty
  · simp_all [Numeral.part, step?, isExponentMark]
  · simp [Numeral.part, step?, isExponentMark, hdigit, hempty]

theorem foldlM_step?_exponentText (negative : Bool) (number : Nat) (fraction : Digits)
    (exponent : Exponent) :
    exponent.text.toList.foldlM step? (Numeral.part ⟨negative, number, fraction, none⟩) =
      some (Numeral.part ⟨negative, number, fraction, some exponent⟩) := by
  obtain ⟨below, lead, rest⟩ := exponent
  have hlead (base : Numeral) : step? (.exponentSign base below) lead.char =
      some (.exponent base below lead []) := by
    simp [step?]
  have hsign (base : Numeral) : step? (.exponentMark base) (if below then '-' else '+') =
      some (.exponentSign base below) := by
    cases below <;> rfl
  have hchars : (Exponent.text ⟨below, lead, rest⟩).toList =
      'e' :: (if below then '-' else '+') :: lead.char :: rest.map Digit.char := by
    cases below <;> simp [Exponent.text, Exponent.digits, Digits.text]
  have hrow (base : Numeral) := foldlM_step?_row (.exponent base below lead)
    (fun read digit => by simp [step?]) [] rest
  rw [hchars, List.foldlM_cons, step?_part_exponentMark]
  simp [hsign, hlead, hrow, Numeral.part]

end NumeralPart

namespace Numeral

open NumeralPart

/-- The first character of the text of a numeral begins a numeral, and the others complete it. -/
theorem foldlM_step?_text (numeral : Numeral) :
    ∃ first rest start, numeral.text.toList = first :: rest ∧ start? first = some start ∧
      rest.foldlM step? start = some numeral.part := by
  obtain ⟨negative, whole, fraction, exponent⟩ := numeral
  obtain ⟨first, rest, hdigits, hrest⟩ := foldlM_step?_toDigits negative whole
  let tail := (fractionText fraction).toList ++ ((exponent.map Exponent.text).getD "").toList
  have htail : tail.foldlM step? (.whole negative whole) =
      some (part ⟨negative, whole, fraction, exponent⟩) := by
    rw [List.foldlM_append, foldlM_step?_fractionText]
    cases exponent with
    | none => rfl
    | some exponent => exact foldlM_step?_exponentText negative whole fraction exponent
  have hunsigned : (rest ++ tail).foldlM step? (.whole negative first.val) =
      some (part ⟨negative, whole, fraction, exponent⟩) := by
    rw [List.foldlM_append, hrest]
    exact htail
  cases negative with
  | true =>
      refine ⟨'-', first.char :: (rest ++ tail), .sign, ?_, rfl, ?_⟩
      · simp [text, signText, hdigits, tail]
      · rw [List.foldlM_cons, step?_sign_char]
        exact hunsigned
  | false =>
      refine ⟨first.char, rest ++ tail, _, ?_, start?_char first, hunsigned⟩
      simp [text, signText, hdigits, tail]

/-- **A numeral is its own text.** -/
@[simp]
theorem ofText?_text (numeral : Numeral) : ofText? numeral.text = some numeral := by
  obtain ⟨first, rest, start, htext, hstart, hrest⟩ := foldlM_step?_text numeral
  rw [ofText?, htext]
  simp [hstart, hrest]

end Numeral

end RecordRules
