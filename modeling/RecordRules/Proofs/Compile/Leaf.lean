import RecordRules.Proofs.Compile.Builder

/-!
# Rules that are one comparison

A comparison compiles wherever there is room for one level, its path leads to a field and its
operator can be put to the field and the literals. What comes out tests what the path reads, so
within which limit it was compiled makes no difference. Main statements:
`Schema.compiles_compare_iff` and `Schema.CompilesTo.test_compare_iff`.
-/

namespace RecordRules

/-! ### Kinds that fit -/

namespace Operator

variable {field literals : Kind}

theorem compares_contains_iff : contains.Compares field literals ↔ field = literals := by
  rw [← accepts_iff, accepts, decide_eq_true_eq]

theorem compares_equals_iff : equals.Compares field literals ↔ field = literals := by
  rw [← accepts_iff, accepts, decide_eq_true_eq]

theorem compares_startsWith_iff : startsWith.Compares field literals ↔ field = .string := by
  rw [← accepts_iff, accepts, decide_eq_true_eq]

theorem compares_greaterThan_iff :
    greaterThan.Compares field literals ↔ field.isOrdered = true ∧ field = literals := by
  rw [← accepts_iff, accepts, Bool.and_eq_true, decide_eq_true_eq]

end Operator

variable {Index : Type} {Carrier : Index → Type} {schema : Schema Carrier} {root : Index}

theorem Comparison.faultsFor_eq_nil_iff {comparison : Comparison} {field : Kind} :
    comparison.faultsFor field = [] ↔
      comparison.operator.Compares field comparison.literals.kind ∧
        (comparison.operator ≠ .contains → comparison.literals.values ≠ []) := by
  have hpresent : comparison.literals.size = 0 ↔ comparison.literals.values = [] := by
    rw [← Literals.length_values, List.length_eq_zero_iff]
  simp [faultsFor, hpresent]

namespace Schema

theorem comparisonFaults_eq_nil_iff {comparison : Comparison} :
    schema.comparisonFaults root comparison = [] ↔
      ∃ field, schema.resolve root comparison.path = .ok field ∧
        comparison.faultsFor field.kind = [] := by
  rw [comparisonFaults]
  cases schema.resolve root comparison.path <;> simp

/-- A comparison takes one level, a field and a fit of operator, field and literals. -/
theorem compiles_compare_iff {limit : Nat} {comparison : Comparison} :
    schema.Compiles root limit (.compare comparison) ↔
      1 ≤ limit ∧ ∃ field, schema.resolve root comparison.path = .ok field ∧
        comparison.operator.Compares field.kind comparison.literals.kind ∧
          (comparison.operator ≠ .contains → comparison.literals.values ≠ []) := by
  have hsingle : ∀ other ∈ (Rule.compare comparison).comparisons,
      schema.comparisonFaults root other = [] ↔ schema.comparisonFaults root comparison = [] := by
    intro other hother
    rw [List.mem_singleton.mp hother]
  rw [Compiles.iff, forall₂_congr hsingle, Rule.height, Rule.comparisons]
  simp [comparisonFaults_eq_nil_iff, Comparison.faultsFor_eq_nil_iff]

theorem CompilesTo.test_eq {rule : Rule} {predicate : Predicate (Carrier root)}
    (hcompiles : schema.CompilesTo root rule predicate) (record : Carrier root) :
    predicate.test record = rule.holdsIn schema root record := by
  obtain ⟨limit, hpredicate⟩ := hcompiles
  exact Compiler.test_eq_holdsIn hpredicate record

/-- A comparison tests what its path reads, and fails where the path reads nothing. -/
theorem CompilesTo.test_compare_iff {comparison : Comparison} {predicate : Predicate (Carrier root)}
    (hcompiles : schema.CompilesTo root (.compare comparison) predicate) (record : Carrier root) :
    predicate.test record = true ↔ comparison.TrueOf schema root record := by
  rw [hcompiles.test_eq, Rule.holdsIn, Rule.holds, Comparison.holdsIn_iff]

/-- A disjunction passes what one of its operands passes. -/
theorem CompilesTo.test_any_iff {rules : List Rule} {predicate : Predicate (Carrier root)}
    (hcompiles : schema.CompilesTo root (.any rules) predicate) (record : Carrier root) :
    predicate.test record = true ↔ ∃ rule ∈ rules, rule.holdsIn schema root record = true := by
  rw [hcompiles.test_eq, Rule.holdsIn, Rule.holds, Rule.anyHolds_eq, List.any_eq_true]
  rfl

end Schema

end RecordRules
