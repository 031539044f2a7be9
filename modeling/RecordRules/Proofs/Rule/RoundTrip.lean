import RecordRules.Proofs.Decimal.Written
import RecordRules.Proofs.Numeral.Spelling
import RecordRules.Proofs.Rule.Depth
import RecordRules.Proofs.Rule.Same
import RecordRules.Proofs.Rule.ToJson

/-!
# Rules and their documents

The document of a rule describes that rule at every depth that its height allows, so a rule comes
back from its document: with its paths and operators, and with its literals in their order, as often
as they occur and in their scales. The one thing that is lost is the sign of a decimal zero. Main
statement: `Rule.ofJson_toJson`.
-/

namespace RecordRules

open Json

/-! ### Literals -/

namespace Kind

/-- A literal that is written as a number is written with its own text. -/
theorem text_toJson {kind : Kind} {item : kind.Carrier} {numeral : Numeral}
    (hnumber : kind.toJson item = .number numeral) : numeral.text = (kind.toValue item).text := by
  cases kind <;> cases hnumber
  · exact Numeral.text_ofInt _
  · exact Numeral.text_ofInt _
  · rfl

def unsignZero : (kind : Kind) → kind.Carrier → kind.Carrier
  | .decimal, item => item.unsignZero
  | .int32, item => item
  | .int64, item => item
  | .string, item => item
  | .bool, item => item

theorem denotes_toJson (kind : Kind) (item : kind.Carrier) :
    kind.Denotes (kind.toJson item) (kind.unsignZero item) := by
  cases kind with
  | int32 => exact ⟨_, rfl, Numeral.toInt?_ofInt _⟩
  | int64 => exact ⟨_, rfl, Numeral.toInt?_ofInt _⟩
  | string => rfl
  | decimal => exact ⟨_, rfl, Decimal.ofNumeral?_toNumeral item⟩
  | bool => rfl

end Kind

theorem Decimal.value_unsignZero (decimal : Decimal) :
    decimal.unsignZero.value = decimal.value := by
  have hsigned : decimal.unsignZero.signed = decimal.signed := by
    by_cases hzero : decimal.mantissa = 0 <;> simp [unsignZero, signed, hzero]
  rw [value, value, hsigned]
  rfl

namespace Value

/-- A decimal zero that has a sign. -/
def isSignedZero : Value → Bool
  | .decimal value => value.negative && value.mantissa = 0
  | _ => false

theorem equals_unsignZero (kind : Kind) (item : kind.Carrier) :
    (kind.toValue item).Equals (kind.toValue (kind.unsignZero item)) := by
  cases kind with
  | decimal => exact (Decimal.value_unsignZero item).symm
  | _ => rfl

end Value

theorem Kind.unsignZero_eq_self {kind : Kind} {item : kind.Carrier}
    (hitem : (kind.toValue item).isSignedZero = false) : kind.unsignZero item = item := by
  cases kind with
  | decimal =>
      obtain ⟨negative, mantissa, scale, hmantissa, hscale⟩ := item
      cases negative <;> simp_all [unsignZero, Decimal.unsignZero, toValue, Value.isSignedZero]
  | _ => rfl

namespace Literals

def unsignZeros (literals : Literals) : Literals :=
  ⟨literals.kind, literals.items.map literals.kind.unsignZero⟩

theorem same_unsignZeros (literals : Literals) : literals.same literals.unsignZeros = true := by
  refine same_iff.mpr ⟨rfl, ?_⟩
  rw [values, values, unsignZeros, List.map_map, List.forall₂_map_left_iff,
    List.forall₂_map_right_iff, List.forall₂_same]
  intro item _
  exact Value.equals_unsignZero literals.kind item

theorem unsignZeros_eq_self {literals : Literals}
    (hliterals : ∀ literal ∈ literals.values, literal.isSignedZero = false) :
    literals.unsignZeros = literals := by
  obtain ⟨kind, items⟩ := literals
  have hitems : items.map kind.unsignZero = items.map id := by
    apply List.map_congr_left
    intro item hitem
    exact Kind.unsignZero_eq_self (hliterals _ (List.mem_map_of_mem hitem))
  rw [unsignZeros, hitems, List.map_id]

end Literals

/-! ### Rules -/

def Comparison.unsignZeros (comparison : Comparison) : Comparison :=
  { comparison with literals := comparison.literals.unsignZeros }

theorem Comparison.same_unsignZeros (comparison : Comparison) :
    comparison.same comparison.unsignZeros = true :=
  same_iff.mpr ⟨rfl, rfl, comparison.literals.same_unsignZeros⟩

namespace Rule

mutual

/-- The same rule with all the decimal zeros among its literals unsigned. -/
def unsignZeros : Rule → Rule
  | .all rules => .all (unsignZerosOf rules)
  | .any rules => .any (unsignZerosOf rules)
  | .not rule => .not rule.unsignZeros
  | .compare comparison => .compare comparison.unsignZeros

def unsignZerosOf : List Rule → List Rule
  | [] => []
  | rule :: rest => rule.unsignZeros :: unsignZerosOf rest

end

@[simp]
theorem unsignZerosOf_eq (rules : List Rule) : unsignZerosOf rules = rules.map unsignZeros := by
  induction rules with
  | nil => rfl
  | cons rule rest ih => simp [unsignZerosOf, ih]

theorem same_unsignZeros (rule : Rule) : rule.same rule.unsignZeros = true := by
  induction rule with
  | all rules ih =>
      rw [unsignZeros, unsignZerosOf_eq]
      refine all_same_iff.mpr ⟨_, rfl, ?_⟩
      rw [List.forall₂_map_right_iff, List.forall₂_same]
      exact ih
  | any rules ih =>
      rw [unsignZeros, unsignZerosOf_eq]
      refine any_same_iff.mpr ⟨_, rfl, ?_⟩
      rw [List.forall₂_map_right_iff, List.forall₂_same]
      exact ih
  | not rule ih => exact not_same_iff.mpr ⟨_, rfl, ih⟩
  | compare comparison => exact compare_same_iff.mpr ⟨_, rfl, comparison.same_unsignZeros⟩

/-- A rule without a signed zero is left as it is. -/
theorem unsignZeros_eq_self {rule : Rule}
    (hrule : ∀ comparison ∈ rule.comparisons, ∀ literal ∈ comparison.literals.values,
      literal.isSignedZero = false) : rule.unsignZeros = rule := by
  induction rule with
  | all rules ih | any rules ih =>
      rw [comparisons, comparisonsOf_eq] at hrule
      have hrules : rules.map unsignZeros = rules.map id := by
        apply List.map_congr_left
        intro rule hmem
        apply ih rule hmem
        intro comparison hcomparison
        exact hrule comparison (List.mem_flatMap.mpr ⟨rule, hmem, hcomparison⟩)
      rw [unsignZeros, unsignZerosOf_eq, hrules, List.map_id]
  | not rule ih => rw [unsignZeros, ih hrule]
  | compare comparison =>
      have hliterals := hrule comparison (List.mem_singleton_self comparison)
      rw [unsignZeros, Comparison.unsignZeros, Literals.unsignZeros_eq_self hliterals]

end Rule

/-! ### Documents -/

namespace Document

theorem describesLiterals_toJson (literals : Literals) :
    DescribesLiterals
      [("valueType", .string literals.kind.name), ("values", .array literals.toJson)]
      literals.unsignZeros := by
  refine ⟨⟨_, rfl, rfl⟩, ⟨_, rfl, ?_⟩⟩
  rw [Literals.toJson, Literals.unsignZeros, List.forall₂_map_left_iff,
    List.forall₂_map_right_iff, List.forall₂_same]
  intro item _
  exact literals.kind.denotes_toJson item

theorem isTagged_name (tag : Tag) (members : Members) :
    IsTagged (("$type", .string tag.name) :: members) tag :=
  ⟨tag.name, tag.toLower_name, .inl rfl⟩

/-- The document of a rule describes it at every depth that its height allows. -/
theorem describes_toJson {rule : Rule} {depth : Nat} (hdepth : rule.height ≤ depth) :
    Describes depth rule.toJson rule.unsignZeros := by
  induction depth generalizing rule with
  | zero => exact absurd hdepth (Nat.not_le.mpr rule.height_pos)
  | succ depth ih =>
      have hoperands : ∀ rules : List Rule, 1 + Rule.heights rules ≤ depth + 1 →
          List.Forall₂ (Describes depth) (rules.map Rule.toJson) (rules.map Rule.unsignZeros) := by
        intro rules hheights
        rw [List.forall₂_map_left_iff, List.forall₂_map_right_iff, List.forall₂_same]
        intro rule hmem
        have hheight := Rule.height_le_heights hmem
        exact ih (by omega)
      cases rule with
      | all rules =>
          rw [Rule.toJson, Rule.toJsons_eq, Rule.groupJson_eq, Rule.unsignZeros,
            Rule.unsignZerosOf_eq]
          exact .all (isTagged_name .all _) rfl (hoperands rules hdepth)
      | any rules =>
          rw [Rule.toJson, Rule.toJsons_eq, Rule.groupJson_eq, Rule.unsignZeros,
            Rule.unsignZerosOf_eq]
          exact .any (isTagged_name .any _) rfl (hoperands rules hdepth)
      | not rule =>
          rw [Rule.height] at hdepth
          rw [Rule.toJson_not, Rule.unsignZeros]
          exact .not (isTagged_name .not _) rfl (ih (by omega))
      | compare comparison =>
          rw [Rule.toJson, Comparison.toJson_eq, Rule.unsignZeros]
          exact .compare (isTagged_name .compare _)
            ⟨rfl, ⟨_, rfl, rfl⟩, ⟨_, rfl, describesLiterals_toJson comparison.literals⟩⟩

end Document

namespace Rule

theorem ofJson_toJson_of_height_le {rule : Rule} {depth : Nat} (hdepth : rule.height ≤ depth) :
    ofJson rule.toJson depth = .ok rule.unsignZeros :=
  Document.read_eq_ok_iff.mpr (Document.describes_toJson hdepth)

/-- **A rule comes back from its document** within every depth that its height allows, and so does a
rule that was read from any other document. Decimal zeros come back without a sign, so what comes
back is equal to the rule, and it is the rule itself if that has no signed zero. Numbers are written
in the document as they are written elsewhere. -/
theorem ofJson_toJson (rule : Rule) :
    (∀ depth, rule.height ≤ depth → ofJson rule.toJson depth = .ok rule.unsignZeros) ∧
      (∀ document depth, ofJson document depth = .ok rule →
        ofJson rule.toJson depth = .ok rule.unsignZeros) ∧
      rule.same rule.unsignZeros = true ∧
      ((∀ comparison ∈ rule.comparisons, ∀ literal ∈ comparison.literals.values,
        literal.isSignedZero = false) → rule.unsignZeros = rule) ∧
      ∀ (kind : Kind) (item : kind.Carrier) (numeral : Numeral),
        kind.toJson item = .number numeral → numeral.text = (kind.toValue item).text := by
  refine ⟨?_, ?_, same_unsignZeros rule, unsignZeros_eq_self, ?_⟩
  · intro depth hdepth
    exact ofJson_toJson_of_height_le hdepth
  · intro document depth hread
    apply ofJson_toJson_of_height_le
    exact Document.height_le_of_describes (Document.read_eq_ok_iff.mp hread)
  · intro kind item numeral hnumber
    exact Kind.text_toJson hnumber

/-- Literals at the limits of their kinds. -/
def extremes : Rule :=
  .all [
    .not (.compare ⟨⟨"Parent..Rate"⟩, .greaterThan, .decimal [
      ⟨true, 1, 28, by decide, by decide⟩, ⟨false, mantissaLimit - 1, 0, by decide, by decide⟩]⟩),
    .any [],
    .compare ⟨⟨"No \"name\""⟩, .contains, .int64 [-9223372036854775808, 5, 5]⟩]

/-- All three levels of the rule come back, with both of the same literals. -/
theorem ofJson_toJson_extremes :
    extremes.height ≤ 3 ∧ ofJson extremes.toJson 3 = .ok extremes ∧
      Kind.int64.toJson (-9223372036854775808) =
        .number ⟨true, 9223372036854775808, [], none⟩ ∧
      Numeral.text ⟨true, 9223372036854775808, [], none⟩ = "-9223372036854775808" := by
  have hheight : extremes.height ≤ 3 := by decide
  have hnumber : Kind.int64.toJson (-9223372036854775808) =
      .number ⟨true, 9223372036854775808, [], none⟩ := by rfl
  obtain ⟨hread, hagain, -, hself, htext⟩ := ofJson_toJson extremes
  have hunsigned : extremes.unsignZeros = extremes := hself (by decide)
  have hrule : ofJson extremes.toJson 3 = .ok extremes := hunsigned ▸ hread 3 hheight
  have hagainRule := hagain _ 3 hrule
  rw [hunsigned] at hagainRule
  exact ⟨hheight, hagainRule, hnumber, (htext _ _ _ hnumber).trans rfl⟩

end Rule

end RecordRules
