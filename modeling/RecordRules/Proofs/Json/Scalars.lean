import RecordRules.Json.Printer
import RecordRules.Proofs.Json.Reread
import RecordRules.Proofs.Numeral.Reading
import Mathlib.Tactic.IntervalCases

/-!
# Reading strings, numbers and words back

A string is escaped so that its reader comes back to the same characters, and the text of a value
without containers is read to its end in whatever container it stands. A number ends only with the
character after it, so `endMode` says what has been read at the end of a text. Main statement:
`foldlM_scalarText`.
-/

namespace RecordRules.Json

/-- A machine that follows another one character by character follows it through a text. -/
theorem foldlM_of_steps {π σ ε : Type} {step? : π → Char → Option π} {step : σ → Char → Except ε σ}
    (embed : π → σ)
    (hstep : ∀ part char next, step? part char = some next →
      step (embed part) char = .ok (embed next))
    {chars : List Char} {part last : π} (hrun : chars.foldlM step? part = some last) :
    chars.foldlM step (embed part) = .ok (embed last) := by
  induction chars generalizing part with
  | nil =>
      rw [Option.some.inj hrun]
      rfl
  | cons char rest ih =>
      rw [List.foldlM_cons] at hrun ⊢
      obtain ⟨next, hnext, hrest⟩ := Option.bind_eq_some_iff.mp hrun
      rw [hstep part char next hnext, ok_bind]
      exact ih hrest

/-! ### Strings -/

/-- A step of a string that does not end it. -/
def inside? : StringPart → Char → Option StringPart
  | .plain _, '"' => none
  | part, char => part.step? char

theorem foldlM_inside?_control (read : List Char) {code : Nat} (hcode : code < 32) :
    (['\\', 'u'] ++ Text.hexDigits 4 code).foldlM inside? (.plain read) =
      some (.plain (Char.ofNat code :: read)) := by
  interval_cases code <;> rfl

theorem inside?_plain {char : Char} (hquote : char ≠ '"') (hbackslash : char ≠ '\\')
    (hcontrol : ¬char.toNat < 32) (read : List Char) :
    inside? (.plain read) char = some (.plain (char :: read)) := by
  simp [inside?, StringPart.step?, hquote, hbackslash, hcontrol]

theorem foldlM_inside?_escape (read : List Char) (char : Char) :
    (escape char).foldlM inside? (.plain read) = some (.plain (char :: read)) := by
  unfold escape
  split_ifs with hquote hbackslash hbackspace htab hline hpage hreturn hcontrol
  · rw [hquote]
    rfl
  · rw [hbackslash]
    rfl
  · rw [hbackspace]
    rfl
  · rw [htab]
    rfl
  · rw [hline]
    rfl
  · rw [hpage]
    rfl
  · rw [hreturn]
    rfl
  · rw [foldlM_inside?_control read hcontrol, Char.ofNat_toNat]
  · rw [List.foldlM_cons, inside?_plain hquote hbackslash hcontrol]
    rfl

theorem foldlM_inside?_escapes (chars read : List Char) :
    (chars.flatMap escape).foldlM inside? (.plain read) =
      some (.plain (chars.reverse ++ read)) := by
  induction chars generalizing read with
  | nil => rfl
  | cons char rest ih =>
      rw [List.flatMap_cons, List.foldlM_append, foldlM_inside?_escape, List.reverse_cons,
        List.append_assoc]
      exact ih (char :: read)

theorem toList_stringText (text : String) :
    (stringText text).toList = '"' :: (text.toList.flatMap escape ++ ['"']) := by
  simp [stringText, Text.quoted]

variable {limit : Nat}

/-- Values and keys are read alike, in a mode of their own. -/
theorem foldlM_stringText {mode : StringPart → Mode} {frames : List Frame} {start closed : State}
    {text : String} (hopen : start.step limit '"' = .ok ⟨mode (.plain []), frames⟩)
    (hinside : ∀ part char next, inside? part char = some next →
      State.step limit ⟨mode part, frames⟩ char = .ok ⟨mode next, frames⟩)
    (hclose : State.step limit ⟨mode (.plain text.toList.reverse), frames⟩ '"' = .ok closed) :
    (stringText text).toList.foldlM (State.step limit) start = .ok closed := by
  have hrun := foldlM_inside?_escapes text.toList []
  rw [List.append_nil] at hrun
  have hbody : (text.toList.flatMap escape).foldlM (State.step limit)
      ⟨mode (.plain []), frames⟩ = .ok ⟨mode (.plain text.toList.reverse), frames⟩ :=
    foldlM_of_steps (fun part => State.mk (mode part) frames) hinside hrun
  rw [toList_stringText, List.foldlM_cons, hopen, ok_bind, List.foldlM_append, hbody, ok_bind,
    List.foldlM_cons, hclose]
  rfl

theorem step_string {part next : StringPart} {char : Char} (hnext : inside? part char = some next)
    (frames : List Frame) :
    State.step limit ⟨.string part, frames⟩ char = .ok ⟨.string next, frames⟩ := by
  unfold inside? at hnext
  split at hnext
  · cases hnext
  · simp only [State.step, hnext]
    rfl

theorem step_keyText {part next : StringPart} {char : Char} (hnext : inside? part char = some next)
    (members : Members) (frames : List Frame) :
    State.step limit ⟨.keyText members part, frames⟩ char =
      .ok ⟨.keyText members next, frames⟩ := by
  unfold inside? at hnext
  split at hnext
  · cases hnext
  · simp only [State.step, hnext]
    rfl

theorem foldlM_string (text : String) (frames : List Frame) :
    (stringText text).toList.foldlM (State.step limit) ⟨.value, frames⟩ =
      .ok ⟨.done (.string text), frames⟩ := by
  refine foldlM_stringText rfl (fun part char next hnext => step_string hnext frames) ?_
  simp [State.step]

theorem foldlM_key (key : String) {start : State} {members : Members} {frames : List Frame}
    (hopen : start.step limit '"' = .ok ⟨.keyText members (.plain []), frames⟩) :
    (stringText key).toList.foldlM (State.step limit) start =
      .ok ⟨.colon members key, frames⟩ := by
  refine foldlM_stringText hopen (fun part char next hnext => step_keyText hnext members frames) ?_
  simp [State.step]

/-! ### Numbers -/

/-- No numeral begins with a character that begins or ends anything else. -/
theorem not_mem_of_start? {char : Char} {start : NumeralPart}
    (hstart : NumeralPart.start? char = some start) :
    char ∉ [' ', '\t', '\n', '\r', '[', ']', '\x7b', '"', 'n', 't', 'f'] := by
  intro hmem
  have hnone : [' ', '\t', '\n', '\r', '[', ']', '\x7b', '"', 'n', 't', 'f'].all
      (fun other => (NumeralPart.start? other).isNone) = true := rfl
  have hchar := List.all_eq_true.mp hnone char hmem
  rw [hstart] at hchar
  cases hchar

theorem foldlM_number (numeral : Numeral) (frames : List Frame) :
    numeral.text.toList.foldlM (State.step limit) ⟨.value, frames⟩ =
      .ok ⟨.number numeral.part, frames⟩ := by
  obtain ⟨first, rest, start, htext, hstart, hrest⟩ := Numeral.foldlM_step?_text numeral
  have hfirst := not_mem_of_start? hstart
  have hnumber : ∀ (part : NumeralPart) (char : Char) (next : NumeralPart),
      part.step? char = some next →
        State.step limit ⟨.number part, frames⟩ char = .ok ⟨.number next, frames⟩ := by
    intro part char next hnext
    simp only [State.step, hnext]
  rw [htext, List.foldlM_cons]
  have hbegin : State.step limit ⟨.value, frames⟩ first = .ok ⟨.number start, frames⟩ := by
    simp only [List.mem_cons, List.not_mem_nil, or_false, not_or] at hfirst
    simp [State.step, isBlank, beginValue, hfirst, hstart, wellFormed, Except.map]
  rw [hbegin, ok_bind]
  exact foldlM_of_steps (fun part => State.mk (.number part) frames) hnumber hrest

/-! ### Values without containers -/

/-- What the reader is about to do at the end of the text of a value that is read as `read`. -/
def endMode : Json → (read : Json) → Mode
  | .number numeral, _ => .number numeral.part
  | _, read => .done read

/-- A character that ends a value in its container. -/
def IsClosing (char : Char) : Prop := char = ',' ∨ char = ']' ∨ char = '\x7d'

theorem IsClosing.comma : IsClosing ',' := .inl rfl

theorem IsClosing.bracket : IsClosing ']' := .inr (.inl rfl)

theorem IsClosing.brace : IsClosing '\x7d' := .inr (.inr rfl)

theorem IsClosing.ofChar? {char : Char} (hclosing : IsClosing char) :
    Digit.ofChar? char = none := by
  rcases hclosing with rfl | rfl | rfl <;> rfl

theorem IsClosing.isBlank {char : Char} (hclosing : IsClosing char) : isBlank char = false := by
  rcases hclosing with rfl | rfl | rfl <;> rfl

/-- No part of a numeral goes on with such a character. -/
theorem IsClosing.step?_part {char : Char} (hclosing : IsClosing char) (numeral : Numeral) :
    numeral.part.step? char = none := by
  have hdigit := hclosing.ofChar?
  have hmark : NumeralPart.isExponentMark char = false := by
    rcases hclosing with rfl | rfl | rfl <;> rfl
  have hpoint : char ≠ '.' := by
    rintro rfl
    simp [IsClosing] at hclosing
  obtain ⟨negative, whole, fraction, exponent⟩ := numeral
  cases exponent with
  | some exponent => simp [Numeral.part, NumeralPart.step?, hdigit]
  | none =>
      by_cases hempty : fraction.isEmpty
      · simp [Numeral.part, NumeralPart.step?, hempty, hdigit, hmark, hpoint]
      · simp [Numeral.part, NumeralPart.step?, hempty, hdigit, hmark]

theorem step_endMode {value read : Json} {room : Nat} (hread : value.reread room = .ok read)
    {char : Char} (hclosing : IsClosing char) (frames : List Frame) :
    State.step limit ⟨endMode value read, frames⟩ char = afterValue read frames char := by
  cases value with
  | number numeral =>
      rw [reread_scalar (rfl : (number numeral).nesting = 0)] at hread
      rw [← Except.ok.inj hread]
      simp [State.step, endMode, hclosing.step?_part, hclosing.ofChar?]
  | _ => rfl

/-- At the end of a text the value that has been read is whole. -/
theorem value?_endMode {value read : Json} {room : Nat} (hread : value.reread room = .ok read)
    (frames : List Frame) : State.value? ⟨endMode value read, frames⟩ = some read := by
  cases value with
  | number numeral =>
      rw [reread_scalar (rfl : (number numeral).nesting = 0)] at hread
      rw [← Except.ok.inj hread]
      simp [State.value?, endMode]
  | _ => rfl

theorem toList_arrayText (elements : List Json) :
    (array elements).text.toList =
      '[' :: ((String.intercalate "," (elementTexts elements)).toList ++ [']']) := by
  simp [text]

theorem toList_objectText (members : Members) :
    (object members).text.toList =
      '\x7b' :: ((String.intercalate "," (memberTexts members)).toList ++ ['\x7d']) := by
  simp [text]

/-- A text begins with a character of its value, so the reader is not held up by it. -/
theorem toList_text (value : Json) :
    ∃ first rest, value.text.toList = first :: rest ∧ isBlank first = false ∧ first ≠ ']' := by
  cases value with
  | null => exact ⟨_, _, rfl, by decide, by decide⟩
  | bool value => cases value <;> exact ⟨_, _, rfl, by decide, by decide⟩
  | number numeral =>
      obtain ⟨first, rest, start, htext, hstart, -⟩ := Numeral.foldlM_step?_text numeral
      have hfirst := not_mem_of_start? hstart
      simp only [List.mem_cons, List.not_mem_nil, or_false, not_or] at hfirst
      exact ⟨first, rest, htext, by simp [isBlank, hfirst], by simp [hfirst]⟩
  | string contents => exact ⟨_, _, toList_stringText contents, by decide, by decide⟩
  | array elements => exact ⟨_, _, toList_arrayText elements, by decide, by decide⟩
  | object members => exact ⟨_, _, toList_objectText members, by decide, by decide⟩

theorem foldlM_scalarText {value : Json} (hscalar : value.nesting = 0) (frames : List Frame) :
    value.text.toList.foldlM (State.step limit) ⟨.value, frames⟩ =
      .ok ⟨endMode value value, frames⟩ := by
  cases value with
  | null => rfl
  | bool value => cases value <;> rfl
  | number numeral => exact foldlM_number numeral frames
  | string text => exact foldlM_string text frames
  | array elements => simp [nesting] at hscalar
  | object members => simp [nesting] at hscalar

end RecordRules.Json
