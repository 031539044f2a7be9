import RecordRules.Proofs.Compile.Leaf
import RecordRules.Proofs.Compile.Outline
import RecordRules.Proofs.Rule.Printed

/-!
# What a printed rule tells

A compiled rule is printed without the kinds of its literals and with nothing escaped. The kinds are
known from the field, as far as they matter, but a quotation mark in a string or a parenthesis in a
path may be taken for the beginning of another literal or of another comparison. Main statement:
rules without such marks that are printed alike pass the same records
(`Compiler.test_eq_of_text_eq`).
-/

namespace RecordRules

/-! ### Literals that are shown alike -/

namespace Literals

variable {literals others : Literals}

theorem forall₂_display_eq
    (hshown : literals.values.map Value.display = others.values.map Value.display) :
    List.Forall₂ (fun value other => value.display = other.display) literals.values
      others.values := by
  rw [← List.forall₂_eq_eq_eq, List.forall₂_map_left_iff, List.forall₂_map_right_iff] at hshown
  exact hshown

/-- Literals of a known kind are known from what is shown of them. -/
theorem values_eq_of_shown (hkind : literals.kind = others.kind)
    (hshown : literals.values.map Value.display = others.values.map Value.display) :
    literals.values = others.values := by
  have hpairs : List.Forall₂ (fun value other => other.kind = others.kind ∧
      value.display = other.display) literals.values others.values :=
    forall₂_imp_of_mem_right (forall₂_display_eq hshown) fun other hmem _ hdisplay =>
      ⟨kind_of_mem hmem, hdisplay⟩
  rw [← List.forall₂_eq_eq_eq]
  refine forall₂_imp_of_mem hpairs fun value hmem other hother => ?_
  exact Value.display_inj ((kind_of_mem hmem).trans (hkind.trans hother.1.symm)) hother.2

/-- The text of the first literal is known whatever its kind is. -/
theorem first?_text_eq_of_shown
    (hshown : literals.values.map Value.display = others.values.map Value.display) :
    literals.first?.map Value.text = others.first?.map Value.text := by
  have htexts : literals.values.map Value.text = others.values.map Value.text :=
    map_eq_map_of_forall₂ ((forall₂_display_eq hshown).imp fun _ _ =>
      Value.text_eq_of_display_eq)
  rw [first?, first?, ← List.head?_map, ← List.head?_map, htexts]

end Literals

/-! ### Comparisons that are shown alike -/

namespace Operator

variable {literals others : Literals} {value : Value}

theorem says_congr (hvalues : literals.values = others.values) (operator : Operator) :
    operator.Says literals value ↔ operator.Says others value := by
  cases operator <;> simp only [Says, Literals.first?, hvalues]

/-- Texts may begin with literals of any kind, but nothing else has to do with another kind. -/
theorem kind_eq_of_compares {operator : Operator} (hvalue : operator ≠ .startsWith)
    {field kind : Kind} (hcompares : operator.Compares field kind) : field = kind := by
  cases operator with
  | contains => exact compares_contains_iff.mp hcompares
  | equals => exact compares_equals_iff.mp hcompares
  | startsWith => exact absurd rfl hvalue
  | greaterThan => exact (compares_greaterThan_iff.mp hcompares).2

theorem says_startsWith_congr
    (hfirst : literals.first?.map Value.text = others.first?.map Value.text) :
    startsWith.Says literals value ↔ startsWith.Says others value := by
  have hmeaning (literals : Literals) : startsWith.Says literals value ↔
      ∃ start, literals.first?.map Value.text = some start ∧
        ∃ rest, value = .string (start ++ rest) := by
    simp [Says]
  rw [hmeaning, hmeaning, hfirst]

end Operator

variable {Index : Type} {Carrier : Index → Type} {schema : Schema Carrier} {root : Index}

/-- Comparisons that compile and have one label are true of the same records: one path leads to one
field, and the literals are of its kind unless they are looked at as texts. -/
theorem Comparison.ShownAlike.holdsIn_eq {comparison other : Comparison}
    (halike : comparison.ShownAlike other)
    (hsound : schema.comparisonFaults root comparison = [])
    (hother : schema.comparisonFaults root other = []) (record : Carrier root) :
    comparison.holdsIn schema root record = other.holdsIn schema root record := by
  obtain ⟨hpath, hoperator, hshown⟩ := halike
  obtain ⟨field, hfield, hfaults⟩ := Schema.comparisonFaults_eq_nil_iff.mp hsound
  obtain ⟨otherField, hotherField, hotherFaults⟩ := Schema.comparisonFaults_eq_nil_iff.mp hother
  have hsame : otherField = field := by
    rw [← hpath, hfield] at hotherField
    exact (Except.ok.inj hotherField).symm
  subst hsame
  obtain ⟨hcompares, -⟩ := Comparison.faultsFor_eq_nil_iff.mp hfaults
  obtain ⟨hotherCompares, -⟩ := Comparison.faultsFor_eq_nil_iff.mp hotherFaults
  rw [← hoperator] at hotherCompares
  have hmeaning (value : Value) : comparison.operator.Says comparison.literals value ↔
      comparison.operator.Says other.literals value := by
    by_cases hstarts : comparison.operator = .startsWith
    · rw [hstarts]
      exact Operator.says_startsWith_congr (Literals.first?_text_eq_of_shown hshown)
    · have hkinds : comparison.literals.kind = other.literals.kind :=
        (Operator.kind_eq_of_compares hstarts hcompares).symm.trans
          (Operator.kind_eq_of_compares hstarts hotherCompares)
      exact Operator.says_congr (Literals.values_eq_of_shown hkinds hshown) comparison.operator
  rw [Bool.eq_iff_iff, Comparison.holdsIn_iff, Comparison.holdsIn_iff]
  simp only [Comparison.TrueOf, ← hpath, ← hoperator, hmeaning]

/-! ### Rules that are printed alike -/

namespace Schema

variable {left right : Rule} {first second : Predicate (Carrier root)}

/-- A compiled rule is printed like its collapsed outline. -/
theorem CompilesTo.text_eq (hcompiles : schema.CompilesTo root left first) :
    first.condition.text = left.outline.collapse.text := by
  obtain ⟨limit, hpredicate⟩ := hcompiles
  obtain ⟨condition, hcondition, rfl⟩ := Compiler.predicate_eq_ok_iff.mp hpredicate
  have houtline := outline_compile hcondition
  have hnormal : condition.outline.IsNormal := houtline ▸ left.outline.isNormal_collapse
  rw [← houtline, ← Condition.text_eq_text_outline hnormal]
  rfl

theorem CompilesTo.comparisonFaults_eq_nil (hcompiles : schema.CompilesTo root left first)
    {comparison : Comparison} (hcomparison : comparison ∈ left.comparisons) :
    schema.comparisonFaults root comparison = [] := by
  obtain ⟨limit, hpredicate⟩ := hcompiles
  exact (Compiles.iff.mp ⟨first, hpredicate⟩).2 comparison hcomparison

end Schema

namespace Compiler

variable {left right : Rule} {first second : Predicate (Carrier root)}

/-- **A printed rule tells which records pass**, unless a string has a quotation mark where another
literal could begin or a path has a parenthesis where another comparison could begin. The rules may
differ in groups that collapse and in the kinds of literals that are looked at as texts. -/
theorem test_eq_of_text_eq (hfirst : schema.CompilesTo root left first)
    (hsecond : schema.CompilesTo root right second)
    (hleft : ∀ comparison ∈ left.comparisons, comparison.ReadsOnce)
    (hright : ∀ comparison ∈ right.comparisons, comparison.ReadsOnce)
    (htext : first.condition.text = second.condition.text) (record : Carrier root) :
    first.test record = second.test record := by
  let truth (comparison : Comparison) : Bool := comparison.holdsIn schema root record
  have hchars : [] ++ left.outline.collapse.chars = [] ++ right.outline.collapse.chars := by
    rw [Outline.chars, Outline.chars, ← hfirst.text_eq, ← hsecond.text_eq, htext]
  have hcomparisons : Outline.ComparisonsToldApart
      (fun comparison other => truth comparison = truth other) left.outline.collapse
      right.outline.collapse := by
    intro comparison hcomparison other hother before after hbefore hafter hequal
    rw [Outline.comparisons_collapse, Rule.comparisons_outline] at hcomparison hother
    obtain ⟨hsame, hshown⟩ := Comparison.toldApart (hleft comparison hcomparison)
      (hright other hother) before after hbefore hafter hequal
    exact ⟨hsame, hshown.holdsIn_eq (hfirst.comparisonFaults_eq_nil hcomparison)
      (hsecond.comparisonFaults_eq_nil hother) record⟩
  obtain ⟨-, halike⟩ := Outline.toldApart left.outline.isNormal_collapse
    right.outline.isNormal_collapse hcomparisons [] [] (.inl rfl) (.inl rfl) hchars
  have hholds (rule : Rule) : rule.outline.collapse.holds truth =
      rule.holdsIn schema root record := by
    rw [Outline.holds_collapse, Rule.holds_outline, Rule.holdsIn]
  rw [hfirst.test_eq, hsecond.test_eq, ← hholds, ← hholds, halike.holds_eq]

/-- Things with names, and a field whose own name looks like two comparisons. -/
def shelf : Schema Table.Rows :=
  Table.schema [⟨"Item", [⟨"Name (full)", .value .string⟩, ⟨"A", .value .int32⟩,
    ⟨"B", .value .int32⟩, ⟨"A equals [1]) AND (B", .value .int32⟩]⟩]

/-- Seven inches of anything but one thing. -/
def sevenInches (seven : Literals) (group : List Rule → Rule) : Rule :=
  .all [.compare ⟨⟨"Name (full)"⟩, .startsWith, seven⟩,
    .not (group [.compare ⟨⟨"Name (full)"⟩, .equals, .string ["7\" plate"]⟩])]

/-- Parentheses and quotation marks in other places than those in question. -/
theorem test_eq_of_text_eq_sevenInches :
    ∃ first second, shelf.CompilesTo 0 (sevenInches (.int32 [7]) .all) first ∧
      shelf.CompilesTo 0 (sevenInches (.int64 [7]) .any) second ∧
      first.condition.text =
        "((Name (full) startswith [7]) AND (NOT (Name (full) equals [\"7\" plate\"])))" ∧
      second.condition.text = first.condition.text ∧
      ∀ record, first.test record = second.test record := by
  obtain ⟨first, hfirst⟩ : shelf.Compiles 0 4 (sevenInches (.int32 [7]) .all) := ⟨_, rfl⟩
  obtain ⟨second, hsecond⟩ : shelf.Compiles 0 4 (sevenInches (.int64 [7]) .any) := ⟨_, rfl⟩
  have htext : first.condition.text =
      "((Name (full) startswith [7]) AND (NOT (Name (full) equals [\"7\" plate\"])))" :=
    (Schema.CompilesTo.text_eq ⟨4, hfirst⟩).trans (by decide)
  have hsame : first.condition.text = second.condition.text := by
    rw [Schema.CompilesTo.text_eq ⟨4, hfirst⟩, Schema.CompilesTo.text_eq ⟨4, hsecond⟩]
    decide
  refine ⟨first, second, ⟨4, hfirst⟩, ⟨4, hsecond⟩, htext, hsame.symm, fun record => ?_⟩
  exact test_eq_of_text_eq ⟨4, hfirst⟩ ⟨4, hsecond⟩ (by decide +kernel) (by decide +kernel)
    hsame record

/-- The marks in question make a difference: one literal looks like two, and one path looks like two
comparisons. -/
theorem test_ne_of_marks :
    (∃ first second,
      accounts.CompilesTo 0 (.compare ⟨⟨"Name"⟩, .contains, .string ["a", "b"]⟩) first ∧
      accounts.CompilesTo 0 (.compare ⟨⟨"Name"⟩, .contains, .string ["a\", \"b"]⟩) second ∧
      first.condition.text = second.condition.text ∧
      first.test (account "a" .absent) = true ∧ second.test (account "a" .absent) = false) ∧
    ∃ first second,
      shelf.CompilesTo 0 (.all [.compare ⟨⟨"A"⟩, .equals, .int32 [1]⟩,
        .compare ⟨⟨"B"⟩, .equals, .int32 [2]⟩, .compare ⟨⟨"A"⟩, .contains, .int32 [1, 3]⟩]) first ∧
      shelf.CompilesTo 0 (.all [.compare ⟨⟨"A equals [1]) AND (B"⟩, .equals, .int32 [2]⟩,
        .compare ⟨⟨"A"⟩, .contains, .int32 [1, 3]⟩]) second ∧
      first.condition.text = second.condition.text ∧
      first.test [.absent, .value (.int32 1), .value (.int32 2), .absent] = true ∧
      second.test [.absent, .value (.int32 1), .value (.int32 2), .absent] = false := by
  constructor
  · refine ⟨_, _, ⟨1, rfl⟩, ⟨1, rfl⟩, ?_, ?_, ?_⟩ <;> decide
  · refine ⟨_, _, ⟨2, rfl⟩, ⟨2, rfl⟩, ?_, ?_, ?_⟩ <;> decide

end Compiler

end RecordRules
