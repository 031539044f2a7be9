import RecordRules.Proofs.Value.Order
import RecordRules.Rule.Meaning

/-!
# Truth of comparisons

When a comparison is true of a record, in terms of the record alone: a value is found where the path
leads, and that value equals a literal, exceeds the first one or begins with its text. Main
statement: the evaluator of `Rule.Meaning` decides just that (`Comparison.holdsIn_iff`).
-/

namespace RecordRules

/-- What an operator says of a value that is there. All but one look at the first literal only. -/
def Operator.Says (literals : Literals) (value : Value) : Operator → Prop
  | .contains => ∃ literal ∈ literals.values, value.Equals literal
  | .equals => ∃ literal, literals.first? = some literal ∧ value.Equals literal
  | .startsWith =>
    ∃ literal, literals.first? = some literal ∧ ∃ rest, value = .string (literal.text ++ rest)
  | .greaterThan => ∃ literal, literals.first? = some literal ∧ value.Exceeds literal

theorem Value.startsWith_iff {value : Value} {start : String} :
    value.startsWith start = true ↔ ∃ rest, value = .string (start ++ rest) := by
  cases value with
  | string text =>
      rw [startsWith, List.isPrefixOf_iff_prefix]
      constructor
      · rintro ⟨rest, hrest⟩
        refine ⟨String.ofList rest, congrArg Value.string ?_⟩
        rw [← String.toList_inj, String.toList_append, String.toList_ofList, hrest]
      · rintro ⟨rest, hrest⟩
        rw [Value.string.inj hrest, String.toList_append]
        exact List.prefix_append _ _
  | _ => simp [startsWith]

theorem Operator.isSatisfied_iff {operator : Operator} {literals : Literals} {value : Value} :
    operator.isSatisfied literals value = true ↔ operator.Says literals value := by
  cases operator <;>
    simp only [isSatisfied, Says, List.any_eq_true, Option.any_eq_true, Value.isMatch_iff,
      Value.isAbove_iff, Value.startsWith_iff]

namespace Comparison

variable {Index : Type} {Carrier : Index → Type}

/-- A comparison is true of a record if its operator says so of the value that the path leads to,
and never of an absent one. -/
def TrueOf (schema : Schema Carrier) (root : Index) (record : Carrier root)
    (comparison : Comparison) : Prop :=
  ∃ value, schema.walk? root comparison.path.segments record = some value ∧
    comparison.operator.Says comparison.literals value

theorem holdsIn_iff {schema : Schema Carrier} {root : Index} {record : Carrier root}
    {comparison : Comparison} :
    comparison.holdsIn schema root record = true ↔ comparison.TrueOf schema root record := by
  simp only [holdsIn, TrueOf, Option.any_eq_true, Operator.isSatisfied_iff]

instance (schema : Schema Carrier) (root : Index) (record : Carrier root)
    (comparison : Comparison) : Decidable (comparison.TrueOf schema root record) :=
  decidable_of_iff _ holdsIn_iff

end Comparison

end RecordRules
