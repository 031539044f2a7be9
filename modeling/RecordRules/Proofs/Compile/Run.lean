import RecordRules.Proofs.Compile.Depth
import RecordRules.Proofs.Compile.Events
import RecordRules.Proofs.Condition.Places
import RecordRules.Proofs.Rule.Run

/-!
# What becomes of a compiled rule

Whether a rule compiles depends on its height and on its comparisons one by one, and what comes of
the compiled rule on a record is what comes of the rule, its comparisons being judged on the record
in hand. Main statements: `Schema.compiles_iff` and `Compiler.predicate_run`.
-/

namespace RecordRules

/-! ### Runs of conditions -/

/-- What a report tells of a run. -/
def Run.report (run : Run) : Report :=
  ⟨run.held, run.made.map fun entry => entry.1.label,
    (run.made.filter Prod.snd).map fun entry => entry.1.label⟩

namespace Condition

variable {α : Type}

/-- What comes of a condition on a record. -/
def run (record : α) (condition : Condition α) : Run :=
  ⟨condition.evaluate record, condition.made record⟩

theorem report_eq_run (condition : Condition α) (record : α) :
    condition.report record = (condition.run record).report := report_eq condition record

/-- A group is run operand by operand. -/
theorem run_junction (record : α) (unit : Bool) (conditions : List (Condition α)) :
    (junction unit conditions).run record = .join unit (conditions.map (run record)) := by
  induction conditions with
  | nil => cases unit <;> rfl
  | cons condition rest ih =>
      have hheld : (condition.run record).held = condition.evaluate record := rfl
      rw [List.map_cons, Run.join, ← ih, hheld]
      by_cases hunit : condition.evaluate record = unit
      · rw [if_pos hunit]
        simp [run, Run.after, evaluate_junction, made_junction, madeWhile, hunit]
      · rw [if_neg hunit]
        simp [run, evaluate_junction, made_junction, madeWhile, hunit]
        exact Bool.eq_not.mpr (Ne.symm hunit)

theorem run_group (record : α) (unit : Bool) (conditions : List (Condition α)) :
    (group unit (junction unit) conditions).run record =
      .join unit (conditions.map (run record)) := by
  match conditions with
  | [] => rfl
  | [condition] => rw [List.map_singleton, Run.join_singleton, group]
  | first :: second :: rest => exact run_junction record unit _

end Condition

variable {Index : Type} {Carrier : Index → Type} {schema : Schema Carrier} {root : Index}

/-! ### Runs of compiled rules -/

namespace Schema

/-- A compiled rule makes the comparisons of the rule, as far as these have to be made. -/
theorem run_compile {limit depth : Nat} {record : Carrier root} {rule : Rule}
    {condition : Condition (Carrier root)}
    (hcompile : (schema.compile root limit depth rule).outcome = .ok condition) :
    condition.run record = rule.run fun comparison => comparison.holdsIn schema root record := by
  refine compile_induction (motive := fun _ rule condition => condition.run record =
    rule.run fun comparison => comparison.holdsIn schema root record) ?all ?any ?not ?compare
    hcompile
  case all =>
    intro depth rules conditions hoperands
    rw [Rule.run_all, ← map_eq_map_of_forall₂ hoperands.flip]
    exact Condition.run_group record true conditions
  case any =>
    intro depth rules conditions hoperands
    rw [Rule.run_any, ← map_eq_map_of_forall₂ hoperands.flip]
    exact Condition.run_group record false conditions
  case not =>
    intro depth rule condition hinner
    rw [Rule.run_not, ← hinner]
    rfl
  case compare =>
    intro depth comparison condition hcompile
    have hheld := evaluate_compileComparison hcompile record
    obtain ⟨field, -, -, -, rfl⟩ := compileComparison_eq_ok hcompile
    rw [Rule.run, ← hheld]
    rfl

/-! ### Rules that compile -/

theorem ownFaults_nodes_iff {level : Nat} {rule : Rule} :
    (∀ node ∈ rule.nodes level, schema.ownFaults root node.2 = []) ↔
      ∀ comparison ∈ rule.comparisons, schema.comparisonFaults root comparison = [] := by
  have hnode (rule : Rule) : schema.ownFaults root rule = [] ↔
      ∀ comparison ∈ rule.comparison?.toList, schema.comparisonFaults root comparison = [] := by
    cases rule <;> simp [ownFaults, Rule.comparison?]
  rw [← Rule.comparisonsAmong_nodes level, Rule.comparisonsAmong, List.forall_mem_flatMap]
  exact forall₂_congr fun node _ => hnode node.2

/-- Apart from its height, a rule stands or falls with its comparisons. -/
theorem compiles_iff {limit : Nat} {rule : Rule} :
    (∃ condition, (schema.compile root limit limit rule).outcome = .ok condition) ↔
      rule.height ≤ limit ∧
        ∀ comparison ∈ rule.comparisons, schema.comparisonFaults root comparison = [] := by
  rw [compile_eq_ok_iff, ownFaults_nodes_iff]

end Schema

namespace Compiler

variable {compiler : Compiler} {rule : Rule}

/-- A predicate answers and reports what comes of its rule. -/
theorem predicate_run {predicate : Predicate (Carrier root)}
    (hcompile : (compiler.predicate schema root rule).outcome = .ok predicate)
    (record : Carrier root) :
    let run := rule.run fun comparison => comparison.holdsIn schema root record
    predicate.test record = run.held ∧ predicate.report record = run.report := by
  obtain ⟨condition, hcondition, rfl⟩ := predicate_eq_ok_iff.mp hcompile
  dsimp only
  rw [← Schema.run_compile hcondition]
  exact ⟨Predicate.test_ofCondition condition record, condition.report_eq_run record⟩

theorem predicate_compiles_iff :
    (∃ predicate, (compiler.predicate schema root rule).outcome = .ok predicate) ↔
      rule.height ≤ compiler.maxDepth ∧
        ∀ comparison ∈ rule.comparisons, schema.comparisonFaults root comparison = [] := by
  simp [predicate_eq_ok_iff, ← Schema.compiles_iff]

end Compiler

end RecordRules
