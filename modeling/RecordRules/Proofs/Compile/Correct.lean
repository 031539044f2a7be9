import RecordRules.Proofs.Compile.Outcome
import RecordRules.Proofs.Condition.Forms
import RecordRules.Proofs.Induction
import RecordRules.Proofs.Rule.Truth
import RecordRules.Proofs.Schema.Walk

/-!
# Compilation preserves truth

A compiled rule answers what the rule says of the record that is in hand. Collapsing a group changes
its form and not its truth, and a check reads through the accessor what the walk finds; the rest is
an induction on the depth that is left. Main statement: `Compiler.test_predicate`.
-/

namespace RecordRules

variable {α : Type}

/-! ### Groups -/

namespace Condition

theorem evaluate_group_all (conditions : List (Condition α)) (record : α) :
    (group true .all conditions).evaluate record = conditions.all (evaluate record) := by
  match conditions with
  | [] => rfl
  | [condition] => simp [group]
  | first :: second :: rest => simp [group, evaluate]

theorem evaluate_group_any (conditions : List (Condition α)) (record : α) :
    (group false .any conditions).evaluate record = conditions.any (evaluate record) := by
  match conditions with
  | [] => rfl
  | [condition] => simp [group]
  | first :: second :: rest => simp [group, evaluate]

end Condition

/-! ### Comparisons and rules -/

namespace Schema

variable {Index : Type} {Carrier : Index → Type} {schema : Schema Carrier} {root : Index}

/-- A comparison compiles to the check of its operator on what the resolved path reads. -/
theorem compileComparison_eq_ok {comparison : Comparison} {condition : Condition (Carrier root)}
    (hcompile : (schema.compileComparison root comparison).outcome = .ok condition) :
    ∃ field, schema.resolve root comparison.path = .ok field ∧
      comparison.operator.accepts field.kind comparison.literals.kind = true ∧
      (comparison.operator.usesFirst && comparison.literals.isEmpty) = false ∧
      condition = .compare comparison fun record =>
        (field.read record).any (comparison.operator.isSatisfied comparison.literals) := by
  rw [outcome_compileComparison, bind_eq_ok_iff] at hcompile
  obtain ⟨field, hfield, hcompile⟩ := hcompile
  obtain ⟨check, hcheck, hcondition⟩ := bind_eq_ok_iff.mp hcompile
  rw [Comparison.outcome_check] at hcheck
  split at hcheck
  · rename_i haccepts
    split at hcheck
    · cases hcheck
    · rename_i hpresent
      refine ⟨field, hfield, haccepts, Bool.not_eq_true _ ▸ hpresent, ?_⟩
      rw [← Except.ok.inj hcondition, ← Except.ok.inj hcheck]
  · cases hcheck

theorem evaluate_compileComparison {comparison : Comparison}
    {condition : Condition (Carrier root)}
    (hcompile : (schema.compileComparison root comparison).outcome = .ok condition)
    (record : Carrier root) :
    condition.evaluate record = comparison.holdsIn schema root record := by
  obtain ⟨field, hfield, -, -, rfl⟩ := compileComparison_eq_ok hcompile
  rw [Condition.evaluate, read_of_resolve hfield, Comparison.holdsIn]

/-- Compilation preserves truth at every depth that suffices. -/
theorem evaluate_compile {limit depth : Nat} {record : Carrier root} :
    ∀ {rule : Rule} {condition : Condition (Carrier root)},
      (schema.compile root limit depth rule).outcome = .ok condition →
        condition.evaluate record = rule.holdsIn schema root record := by
  intro rule condition hcompile
  refine compile_induction (motive := fun _ rule condition =>
    condition.evaluate record = rule.holdsIn schema root record) ?all ?any ?not ?compare hcompile
  case all =>
    intro depth rules conditions hoperands
    calc (Condition.group true .all conditions).evaluate record
        = conditions.all (Condition.evaluate record) :=
          Condition.evaluate_group_all conditions record
      _ = rules.all (fun rule => rule.holdsIn schema root record) :=
          all_eq_all_of_forall₂ hoperands.flip
      _ = (Rule.all rules).holdsIn schema root record := by
          unfold Rule.holdsIn
          rw [Rule.holds, Rule.allHold_eq]
  case any =>
    intro depth rules conditions hoperands
    calc (Condition.group false .any conditions).evaluate record
        = conditions.any (Condition.evaluate record) :=
          Condition.evaluate_group_any conditions record
      _ = rules.any (fun rule => rule.holdsIn schema root record) :=
          any_eq_any_of_forall₂ hoperands.flip
      _ = (Rule.any rules).holdsIn schema root record := by
          unfold Rule.holdsIn
          rw [Rule.holds, Rule.anyHolds_eq]
  case not =>
    intro depth rule condition hinner
    rw [Condition.evaluate, hinner]
    rfl
  case compare =>
    intro depth comparison condition hcomparison
    exact evaluate_compileComparison hcomparison record

end Schema

namespace Compiler

variable {Index : Type} {Carrier : Index → Type} {compiler : Compiler} {schema : Schema Carrier}
  {root : Index} {rule : Rule} {predicate : Predicate (Carrier root)}

/-- A predicate that was compiled holds the condition of its rule. -/
theorem predicate_eq_ok_iff :
    (compiler.predicate schema root rule).outcome = .ok predicate ↔
      ∃ condition,
        (schema.compile root compiler.maxDepth compiler.maxDepth rule).outcome = .ok condition ∧
          Predicate.ofCondition condition = predicate := by
  rw [outcome_predicate, map_eq_ok_iff]

theorem test_eq_holdsIn (hcompile : (compiler.predicate schema root rule).outcome = .ok predicate)
    (record : Carrier root) : predicate.test record = rule.holdsIn schema root record := by
  obtain ⟨condition, hcondition, rfl⟩ := predicate_eq_ok_iff.mp hcompile
  rw [Predicate.test_ofCondition, Schema.evaluate_compile hcondition]

/-- **Compilation is correct.** On every record the test of a compiled rule is the truth of the rule
itself, its comparisons being judged on the record in hand. -/
theorem test_predicate (hcompile : (compiler.predicate schema root rule).outcome = .ok predicate)
    (record : Carrier root) :
    predicate.test record =
      rule.holds fun comparison => decide (comparison.TrueOf schema root record) := by
  have htruth : (fun comparison : Comparison => comparison.holdsIn schema root record) =
      fun comparison => decide (comparison.TrueOf schema root record) := by
    funext comparison
    rw [Bool.eq_iff_iff, Comparison.holdsIn_iff, decide_eq_true_eq]
  calc predicate.test record = rule.holdsIn schema root record := test_eq_holdsIn hcompile record
    _ = rule.holds fun comparison => decide (comparison.TrueOf schema root record) := by
        rw [Rule.holdsIn, htruth]

/-- No grandparent is called `root` where there is none, and a name can begin with a number. -/
def orphanOfFifteen : Rule :=
  .all [.not (.compare ⟨⟨"Parent.Parent.Name"⟩, .equals, .string ["root"]⟩),
    .any [.compare ⟨⟨"Parent.Name"⟩, .startsWith, .int32 [15, 16]⟩]]

theorem test_predicate_orphanOfFifteen :
    ∃ predicate, (Compiler.predicate {} accounts 0 orphanOfFifteen).outcome = .ok predicate ∧
      predicate.test (account "leaf" (.row (account "15a" .absent))) = true ∧
      (orphanOfFifteen.holds fun comparison => decide (comparison.TrueOf accounts 0
        (account "leaf" (.row (account "15a" .absent))))) = true := by
  obtain ⟨predicate, hcompile⟩ : ∃ predicate,
      (Compiler.predicate {} accounts 0 orphanOfFifteen).outcome = .ok predicate := ⟨_, rfl⟩
  refine ⟨predicate, hcompile, ?_⟩
  rw [test_predicate hcompile]
  decide

end Compiler

end RecordRules
