import RecordRules.Proofs.Value.Order

/-!
# Values as numbers and as bytes

Integers and decimals are ordered by the numbers that they stand for, whatever their sizes and
scales. Texts begin with one another character by character, which is the same as byte by byte: the
bytes of a character are never the beginning of those of another one. Main statements:
`Value.exceeds_iff_number` and `Text.bytes_prefix_iff`.
-/

namespace RecordRules

namespace Kind

/-- The kinds whose values are numbers. -/
def IsNumber (kind : Kind) : Prop := kind = .int32 ∨ kind = .int64 ∨ kind = .decimal

end Kind

namespace Value

/-- The number that a value stands for. Texts and truth values are no numbers and count as zero. -/
def number : Value → ℚ
  | .int32 value => value.toInt
  | .int64 value => value.toInt
  | .decimal value => value.value
  | .string _ | .bool _ => 0

variable {value literal : Value}

theorem equals_iff_number (hnumber : literal.kind.IsNumber) :
    value.Equals literal ↔ value.kind = literal.kind ∧ value.number = literal.number := by
  cases literal with
  | int32 literal | int64 literal =>
      cases value <;> simp [Equals, kind, number, Int32.toInt_inj, Int64.toInt_inj]
  | decimal literal => cases value <;> simp [Equals, kind, number]
  | string _ | bool _ => simp [Kind.IsNumber, kind] at hnumber

theorem exceeds_iff_number (hnumber : literal.kind.IsNumber) :
    value.Exceeds literal ↔ value.kind = literal.kind ∧ literal.number < value.number := by
  cases literal with
  | int32 literal | int64 literal => cases value <;> simp [Exceeds, kind, number]
  | decimal literal => cases value <;> simp [Exceeds, kind, number]
  | string _ | bool _ => simp [Kind.IsNumber, kind] at hnumber

end Value

/-- The bytes of a text begin with those of another text exactly if its characters do. -/
theorem Text.bytes_prefix_iff {start text : String} :
    (∃ rest, start.toByteArray ++ rest = text.toByteArray) ↔ start.toList <+: text.toList := by
  constructor
  · rintro ⟨rest, hrest⟩
    rw [← String.utf8Encode_toList, ← String.utf8Encode_toList] at hrest
    exact List.isPrefix_of_utf8Encode_append_eq_utf8Encode rest hrest
  · rintro ⟨rest, hrest⟩
    refine ⟨rest.utf8Encode, ?_⟩
    rw [← String.utf8Encode_toList, ← String.utf8Encode_toList, ← hrest, List.utf8Encode_append]

end RecordRules
