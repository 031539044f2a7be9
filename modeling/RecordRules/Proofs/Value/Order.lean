import Mathlib
import RecordRules.Decimal.Value
import RecordRules.Value.Literals

/-!
# Equal and greater values

What it means that a value equals a literal or exceeds it, said without the comparison that runs:
integers by the numbers they hold, texts character by character, decimals by the rational number
that mantissa and scale stand for. Values of two kinds are neither equal nor ordered. The main
statements are that matching decides the first (`Value.isMatch_iff`) and being above the second
(`Value.isAbove_iff`).
-/

namespace RecordRules

namespace Decimal

/-- Bringing both mantissas to one scale compares the values. -/
theorem compare_eq (left right : Decimal) :
    left.compare right = Ord.compare left.value right.value := by
  have hleft : (0 : ℚ) < 10 ^ left.scale := by positivity
  have hright : (0 : ℚ) < 10 ^ right.scale := by positivity
  have hlt : ∀ one other : Decimal, (0 : ℚ) < 10 ^ one.scale → (0 : ℚ) < 10 ^ other.scale →
      (one.signed * Nat.pow 10 other.scale < other.signed * Nat.pow 10 one.scale ↔
        one.value < other.value) := by
    intro one other hone hother
    rw [value, value, div_lt_div_iff₀ hone hother]
    norm_cast
  rw [compare]
  rcases lt_trichotomy left.value right.value with hvalue | hvalue | hvalue
  · rw [compare_lt_iff_lt.mpr hvalue, compare_lt_iff_lt]
    exact (hlt left right hleft hright).mpr hvalue
  · rw [compare_eq_iff_eq.mpr hvalue, compare_eq_iff_eq]
    apply le_antisymm
    · rw [← not_lt, hlt right left hright hleft]
      exact hvalue.not_gt
    · rw [← not_lt, hlt left right hleft hright]
      exact hvalue.not_lt
  · rw [compare_gt_iff_gt.mpr hvalue, compare_gt_iff_gt]
    exact (hlt right left hright hleft).mpr hvalue

theorem compare_eq_eq_iff {left right : Decimal} :
    left.compare right = .eq ↔ left.value = right.value := by
  rw [compare_eq, compare_eq_iff_eq]

theorem compare_eq_gt_iff {left right : Decimal} :
    left.compare right = .gt ↔ right.value < left.value := by
  rw [compare_eq, compare_gt_iff_gt]

end Decimal

namespace Value

/-- Values of one kind that are the same; decimals are the numbers that they stand for. -/
def Equals : Value → Value → Prop
  | .int32 value, .int32 literal => value = literal
  | .int64 value, .int64 literal => value = literal
  | .string value, .string literal => value = literal
  | .decimal value, .decimal literal => value.value = literal.value
  | .bool value, .bool literal => value = literal
  | _, _ => False

/-- Values of one kind the first of which is the greater one. -/
def Exceeds : Value → Value → Prop
  | .int32 value, .int32 literal => literal.toInt < value.toInt
  | .int64 value, .int64 literal => literal.toInt < value.toInt
  | .string value, .string literal => literal.toList < value.toList
  | .decimal value, .decimal literal => literal.value < value.value
  | .bool value, .bool literal => literal = false ∧ value = true
  | _, _ => False

theorem Equals.refl (value : Value) : value.Equals value := by
  cases value <;> rfl

theorem Equals.symm {value literal : Value} (hequal : value.Equals literal) :
    literal.Equals value := by
  cases value <;> cases literal <;> simp_all [Equals]

theorem Equals.trans {first second third : Value} (hfirst : first.Equals second)
    (hsecond : second.Equals third) : first.Equals third := by
  cases first <;> cases second <;> cases third <;> simp_all [Equals]

theorem Exceeds.congr {value literal other : Value} (hequal : literal.Equals other)
    (hexceeds : value.Exceeds literal) : value.Exceeds other := by
  cases value <;> cases literal <;> cases other <;> simp_all [Equals, Exceeds]

theorem isMatch_iff {value literal : Value} :
    value.isMatch literal = true ↔ value.Equals literal := by
  rw [isMatch, decide_eq_true_eq]
  cases value <;> cases literal <;> simp [compare, Equals, Decimal.compare_eq_eq_iff]

theorem isAbove_iff {value literal : Value} :
    value.isAbove literal = true ↔ value.Exceeds literal := by
  rw [isAbove, decide_eq_true_eq]
  cases value <;> cases literal
  case string.string value literal =>
      rw [compare, Option.some.injEq, compare_gt_iff_gt]
      exact String.lt_iff_toList_lt
  case bool.bool value literal =>
      rw [compare, Option.some.injEq, compare_gt_iff_gt]
      exact Bool.lt_iff
  all_goals
    simp [compare, Exceeds, Std.compare_eq_gt, Decimal.compare_eq_gt_iff, Int32.lt_iff_toInt_lt,
      Int64.lt_iff_toInt_lt]

instance (value literal : Value) : Decidable (value.Equals literal) :=
  decidable_of_iff _ isMatch_iff

instance (value literal : Value) : Decidable (value.Exceeds literal) :=
  decidable_of_iff _ isAbove_iff

/-- Equal literals match the same values. -/
theorem isMatch_congr {literal other : Value} (hequal : literal.Equals other) (value : Value) :
    value.isMatch literal = value.isMatch other := by
  rw [Bool.eq_iff_iff, isMatch_iff, isMatch_iff]
  exact ⟨fun hvalue => hvalue.trans hequal, fun hvalue => hvalue.trans hequal.symm⟩

theorem isAbove_congr {literal other : Value} (hequal : literal.Equals other) (value : Value) :
    value.isAbove literal = value.isAbove other := by
  rw [Bool.eq_iff_iff, isAbove_iff, isAbove_iff]
  exact ⟨Exceeds.congr hequal, Exceeds.congr hequal.symm⟩

/-- Only decimals can be equal and still be written differently. -/
theorem Equals.text_eq {value literal : Value} (hequal : value.Equals literal)
    (hkind : value.kind ≠ .decimal) : value.text = literal.text := by
  cases value <;> cases literal <;> simp_all [Equals, kind]

end Value

end RecordRules
