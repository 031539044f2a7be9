import RecordRules.Proofs.Induction
import RecordRules.Proofs.Value.Order
import RecordRules.Rule.Meaning

/-!
# Equal rules

Equality of rules goes down to the literals and takes decimals by their values, so two equal rules
can still differ in how a decimal is written. Every operator but one looks at values only; a
beginning is compared as text, and there the writing shows. Main statement: equal rules are true of
the same records if their comparisons with the beginning of a text look for the same decimals, digit
by digit (`Rule.holdsIn_congr`).
-/

namespace RecordRules

/-! ### Literals -/

namespace Literals

theorem same_iff {left right : Literals} :
    left.same right = true ↔
      left.kind = right.kind ∧ List.Forall₂ Value.Equals left.values right.values := by
  rw [List.forall₂_iff_zip, length_values, length_values]
  simp [same, Value.isMatch_iff, and_assoc]

theorem isEmpty_congr {left right : Literals} (hsame : left.same right = true) :
    left.isEmpty = right.isEmpty := by
  have hsize : left.size = right.size := by
    simpa only [length_values] using (same_iff.mp hsame).2.length_eq
  rw [isEmpty, isEmpty, Bool.eq_iff_iff, List.isEmpty_iff_length_eq_zero,
    List.isEmpty_iff_length_eq_zero]
  exact iff_of_eq (congrArg (· = 0) hsize)

end Literals

theorem any_isMatch_congr {left right : List Value} (hequal : List.Forall₂ Value.Equals left right)
    (value : Value) : left.any value.isMatch = right.any value.isMatch := by
  induction hequal with
  | nil => rfl
  | cons hfirst _ ih => rw [List.any_cons, List.any_cons, Value.isMatch_congr hfirst, ih]

/-- Equal literals have equal first values, or none. -/
theorem Literals.first?_cases {left right : Literals} (hsame : left.same right = true) :
    (left.first? = none ∧ right.first? = none) ∨
      ∃ first other, left.first? = some first ∧ right.first? = some other ∧ first.Equals other := by
  have hvalues := (same_iff.mp hsame).2
  rw [first?, first?]
  generalize left.values = leftValues, right.values = rightValues at hvalues
  cases hvalues with
  | nil => exact .inl ⟨rfl, rfl⟩
  | cons hfirst _ => exact .inr ⟨_, _, rfl, rfl, hfirst⟩

/-! ### Comparisons -/

namespace Comparison

/-- The decimal that a comparison looks for, as it is written, at the beginning of a text. -/
def decimalStart? (comparison : Comparison) : Option String :=
  if comparison.operator = .startsWith ∧ comparison.literals.kind = .decimal then
    comparison.literals.first?.map Value.text
  else none

theorem same_iff {left right : Comparison} :
    left.same right = true ↔
      left.path = right.path ∧ left.operator = right.operator ∧
        left.literals.same right.literals = true := by
  simp [same, and_assoc]

/-- Texts for the beginning of a text are the same, since equal literals of any other kind are
written alike. -/
theorem startText_congr {left right : Comparison} (hsame : left.same right = true)
    (hoperator : left.operator = .startsWith) (hstart : left.decimalStart? = right.decimalStart?) :
    left.literals.first?.map Value.text = right.literals.first?.map Value.text := by
  obtain ⟨-, hoperators, hliterals⟩ := same_iff.mp hsame
  have hkinds := (Literals.same_iff.mp hliterals).1
  by_cases hdecimal : left.literals.kind = .decimal
  · rwa [decimalStart?, decimalStart?, if_pos ⟨hoperator, hdecimal⟩,
      if_pos ⟨hoperators ▸ hoperator, hkinds ▸ hdecimal⟩] at hstart
  · obtain ⟨hleft, hright⟩ | ⟨first, other, hleft, hright, hequal⟩ :=
      Literals.first?_cases hliterals
    · rw [hleft, hright]
    · have hkind : first.kind ≠ .decimal := by
        rw [Literals.kind_of_mem (List.mem_of_mem_head? hleft)]
        exact hdecimal
      rw [hleft, hright, Option.map_some, Option.map_some, hequal.text_eq hkind]

theorem isSatisfied_congr {left right : Comparison} (hsame : left.same right = true)
    (hstart : left.decimalStart? = right.decimalStart?) (value : Value) :
    left.operator.isSatisfied left.literals value =
      right.operator.isSatisfied right.literals value := by
  obtain ⟨-, hoperators, hliterals⟩ := same_iff.mp hsame
  have htexts := (startText_congr hsame · hstart)
  have hfirsts := Literals.first?_cases hliterals
  rw [← hoperators]
  cases hoperator : left.operator with
  | contains => exact any_isMatch_congr (Literals.same_iff.mp hliterals).2 value
  | equals =>
      obtain ⟨hleft, hright⟩ | ⟨first, other, hleft, hright, hequal⟩ := hfirsts
      · rw [Operator.isSatisfied, Operator.isSatisfied, hleft, hright]
      · simp only [Operator.isSatisfied, hleft, hright, Option.any_some]
        exact Value.isMatch_congr hequal value
  | startsWith =>
      have htext := htexts hoperator
      obtain ⟨hleft, hright⟩ | ⟨first, other, hleft, hright, -⟩ := hfirsts
      · rw [Operator.isSatisfied, Operator.isSatisfied, hleft, hright]
      · rw [hleft, hright, Option.map_some, Option.map_some, Option.some.injEq] at htext
        simp only [Operator.isSatisfied, hleft, hright, Option.any_some, htext]
  | greaterThan =>
      obtain ⟨hleft, hright⟩ | ⟨first, other, hleft, hright, hequal⟩ := hfirsts
      · rw [Operator.isSatisfied, Operator.isSatisfied, hleft, hright]
      · simp only [Operator.isSatisfied, hleft, hright, Option.any_some]
        exact Value.isAbove_congr hequal value

theorem length_decimalStart?_congr {left right : Comparison} (hsame : left.same right = true) :
    left.decimalStart?.toList.length = right.decimalStart?.toList.length := by
  obtain ⟨-, hoperators, hliterals⟩ := same_iff.mp hsame
  rw [decimalStart?, decimalStart?, ← hoperators, ← (Literals.same_iff.mp hliterals).1]
  split
  · obtain ⟨hleft, hright⟩ | ⟨first, other, hleft, hright, -⟩ := Literals.first?_cases hliterals
    · rw [hleft, hright]
    · rw [hleft, hright]
      rfl
  · rfl

variable {Index : Type} {Carrier : Index → Type}

theorem holdsIn_congr {left right : Comparison} (hsame : left.same right = true)
    (hstart : left.decimalStart? = right.decimalStart?) (schema : Schema Carrier) (root : Index)
    (record : Carrier root) :
    left.holdsIn schema root record = right.holdsIn schema root record := by
  rw [holdsIn, holdsIn, (same_iff.mp hsame).1]
  congr 1
  funext value
  exact isSatisfied_congr hsame hstart value

end Comparison

/-! ### Rules -/

namespace Rule

theorem sameAll_iff {left right : List Rule} :
    sameAll left right = true ↔ List.Forall₂ (fun first second => first.same second = true)
      left right := by
  induction left generalizing right with
  | nil => cases right <;> simp [sameAll]
  | cons rule rest ih => cases right <;> simp [sameAll, ih]

theorem all_same_iff {rules : List Rule} {other : Rule} :
    (all rules).same other = true ↔ ∃ others, other = .all others ∧
      List.Forall₂ (fun first second => first.same second = true) rules others := by
  cases other <;> simp [same, sameAll_iff]

theorem any_same_iff {rules : List Rule} {other : Rule} :
    (any rules).same other = true ↔ ∃ others, other = .any others ∧
      List.Forall₂ (fun first second => first.same second = true) rules others := by
  cases other <;> simp [same, sameAll_iff]

theorem not_same_iff {rule other : Rule} :
    rule.not.same other = true ↔ ∃ inner, other = .not inner ∧ rule.same inner = true := by
  cases other <;> simp [same]

theorem compare_same_iff {comparison : Comparison} {other : Rule} :
    (compare comparison).same other = true ↔
      ∃ second, other = .compare second ∧ comparison.same second = true := by
  cases other <;> simp [same]

/-- The decimals that a rule looks for at the beginning of texts, as they are written. -/
def decimalStarts (rule : Rule) : List String :=
  rule.comparisons.filterMap Comparison.decimalStart?

theorem decimalStarts_all (rules : List Rule) :
    (all rules).decimalStarts = rules.flatMap decimalStarts := by
  rw [decimalStarts, comparisons, comparisonsOf_eq, List.filterMap_flatMap]
  rfl

theorem decimalStarts_any (rules : List Rule) :
    (any rules).decimalStarts = rules.flatMap decimalStarts := decimalStarts_all rules

theorem decimalStarts_not (rule : Rule) : rule.not.decimalStarts = rule.decimalStarts := rfl

theorem decimalStarts_compare (comparison : Comparison) :
    (compare comparison).decimalStarts = comparison.decimalStart?.toList := by
  rw [decimalStarts, comparisons]
  cases hstart : comparison.decimalStart? <;> simp [hstart]

theorem length_flatMap_congr {rules others : List Rule}
    (hlengths : List.Forall₂ (fun first second =>
      first.decimalStarts.length = second.decimalStarts.length) rules others) :
    (rules.flatMap decimalStarts).length = (others.flatMap decimalStarts).length := by
  rw [List.length_flatMap, List.length_flatMap, map_eq_map_of_forall₂ hlengths]

/-- Equal rules look for equally many decimals, for which the kinds of the literals account. -/
theorem length_decimalStarts_congr {left right : Rule} (hsame : left.same right = true) :
    left.decimalStarts.length = right.decimalStarts.length := by
  induction left generalizing right with
  | all rules ih =>
      obtain ⟨others, rfl, hpairs⟩ := all_same_iff.mp hsame
      rw [decimalStarts_all, decimalStarts_all]
      apply length_flatMap_congr
      apply forall₂_imp_of_mem hpairs
      intro rule hmem other hpair
      exact ih rule hmem hpair
  | any rules ih =>
      obtain ⟨others, rfl, hpairs⟩ := any_same_iff.mp hsame
      rw [decimalStarts_any, decimalStarts_any]
      apply length_flatMap_congr
      apply forall₂_imp_of_mem hpairs
      intro rule hmem other hpair
      exact ih rule hmem hpair
  | not rule ih =>
      obtain ⟨inner, rfl, hinner⟩ := not_same_iff.mp hsame
      rw [decimalStarts_not, decimalStarts_not]
      exact ih hinner
  | compare comparison =>
      obtain ⟨second, rfl, hcomparison⟩ := compare_same_iff.mp hsame
      rw [decimalStarts_compare, decimalStarts_compare]
      exact Comparison.length_decimalStart?_congr hcomparison

/-- If the decimals of two groups are written alike, so are those of their operands, one by one. -/
theorem forall₂_same_and_starts {rules others : List Rule}
    (hpairs : List.Forall₂ (fun first second => first.same second = true) rules others)
    (hstarts : rules.flatMap decimalStarts = others.flatMap decimalStarts) :
    List.Forall₂ (fun first second =>
      first.same second = true ∧ first.decimalStarts = second.decimalStarts) rules others := by
  induction hpairs with
  | nil => exact .nil
  | cons hsame _ ih =>
      rw [List.flatMap_cons, List.flatMap_cons] at hstarts
      obtain ⟨hfirst, hrest⟩ := List.append_inj hstarts (length_decimalStarts_congr hsame)
      exact .cons ⟨hsame, hfirst⟩ (ih hrest)

variable {Index : Type} {Carrier : Index → Type}

/-- Equal rules are true of the same records if they look for the same written decimals. -/
theorem holdsIn_congr {left right : Rule} (hsame : left.same right = true)
    (hstarts : left.decimalStarts = right.decimalStarts) (schema : Schema Carrier) (root : Index)
    (record : Carrier root) :
    left.holdsIn schema root record = right.holdsIn schema root record := by
  induction left generalizing right with
  | all rules ih =>
      obtain ⟨others, rfl, hpairs⟩ := all_same_iff.mp hsame
      rw [decimalStarts_all, decimalStarts_all] at hstarts
      rw [holdsIn, holdsIn, holds, holds, allHold_eq, allHold_eq]
      have hoperands := forall₂_same_and_starts hpairs hstarts
      apply all_eq_all_of_forall₂
      apply forall₂_imp_of_mem hoperands
      intro rule hmem other hpair
      exact ih rule hmem hpair.1 hpair.2
  | any rules ih =>
      obtain ⟨others, rfl, hpairs⟩ := any_same_iff.mp hsame
      rw [decimalStarts_any, decimalStarts_any] at hstarts
      rw [holdsIn, holdsIn, holds, holds, anyHolds_eq, anyHolds_eq]
      have hoperands := forall₂_same_and_starts hpairs hstarts
      apply any_eq_any_of_forall₂
      apply forall₂_imp_of_mem hoperands
      intro rule hmem other hpair
      exact ih rule hmem hpair.1 hpair.2
  | not rule ih =>
      obtain ⟨inner, rfl, hinner⟩ := not_same_iff.mp hsame
      exact congrArg (!·) (ih hinner hstarts)
  | compare comparison =>
      obtain ⟨second, rfl, hcomparison⟩ := compare_same_iff.mp hsame
      rw [decimalStarts_compare, decimalStarts_compare] at hstarts
      have hstart : comparison.decimalStart? = second.decimalStart? := by
        simpa using congrArg List.head? hstarts
      exact Comparison.holdsIn_congr hcomparison hstart schema root record

end Rule

end RecordRules
