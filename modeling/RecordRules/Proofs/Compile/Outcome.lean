import RecordRules.Compile.Compiler
import RecordRules.Proofs.Except
import RecordRules.Rule.Meaning

/-!
# Outcomes of compilations

What comes out of each step of a compilation, apart from the events that it logs. A comparison is
checked in one fixed order, and every group, negation and comparison succeeds in one way only; the
main statements say which (`Comparison.outcome_check` and the `outcome_compile` family), and what
they add up to is an induction over rules that compile (`Schema.compile_induction`).
-/

namespace RecordRules

namespace Logged

variable {ε α β : Type}

@[simp]
theorem outcome_mapM (step : α → Logged ε β) (items : List α) :
    (items.mapM step).outcome = items.mapM fun item => (step item).outcome := by
  induction items with
  | nil => rfl
  | cons item rest ih =>
      simp only [List.mapM_cons, outcome_bind, outcome_pure, ih]
      rfl

end Logged

/-! ### Checks -/

namespace Literals

theorem first?_eq_none_iff {literals : Literals} :
    literals.first? = none ↔ literals.isEmpty = true := by
  simp [first?, values, isEmpty]

end Literals

namespace Comparison

variable {α : Type}

theorem outcome_firstLiteral (comparison : Comparison) :
    comparison.firstLiteral.outcome =
      match comparison.literals.first? with
      | none => .error (.noLiterals comparison.path comparison.operator)
      | some first => .ok first := by
  rw [firstLiteral]
  cases comparison.literals.first? with
  | none => rfl
  | some first =>
      dsimp only
      split <;> rfl

theorem checkFirst_eq {operator : Operator} {literals : Literals} {first : Value}
    (huses : operator.usesFirst = true) (hfirst : literals.first? = some first)
    (read : α → Option Value) :
    checkFirst operator first read =
      fun record => (read record).any (operator.isSatisfied literals) := by
  have hsatisfied : operator.holdsFor first = operator.isSatisfied literals := by
    funext value
    cases operator <;> simp_all [Operator.usesFirst, Operator.holdsFor, Operator.isSatisfied]
  rw [← hsatisfied]
  rfl

/-- The outcome of a check in one place: the kinds are judged first, then the lack of a literal,
and what is left is to put the value that is read to the operator. -/
theorem outcome_check (comparison : Comparison) (field : Accessor α) :
    (comparison.check field).outcome =
      if comparison.operator.accepts field.kind comparison.literals.kind then
        if comparison.operator.usesFirst && comparison.literals.isEmpty then
          .error (.noLiterals comparison.path comparison.operator)
        else
          .ok fun record =>
            (field.read record).any (comparison.operator.isSatisfied comparison.literals)
      else
        .error (.kindMismatch comparison.path comparison.operator field.kind
          comparison.literals.kind) := by
  rw [check]
  split
  · by_cases huses : comparison.operator.usesFirst = true
    · rw [if_pos huses, Logged.outcome_bind, outcome_firstLiteral, huses, Bool.true_and]
      cases hfirst : comparison.literals.first? with
      | none =>
          rw [if_pos (Literals.first?_eq_none_iff.mp hfirst)]
          rfl
      | some first =>
          have hpresent : ¬comparison.literals.isEmpty = true := by
            rw [← Literals.first?_eq_none_iff, hfirst]
            exact Option.some_ne_none first
          rw [if_neg hpresent, ← checkFirst_eq huses hfirst]
          rfl
    · have hcontains : comparison.operator = .contains := by
        cases hoperator : comparison.operator <;> simp_all [Operator.usesFirst]
      rw [if_neg huses, hcontains]
      rfl
  · rfl

end Comparison

/-! ### Rules -/

namespace Schema

variable {Index : Type} {Carrier : Index → Type} {schema : Schema Carrier} {root : Index}

@[simp]
theorem outcome_resolveLogged (schema : Schema Carrier) (root : Index) (path : Path) :
    (schema.resolveLogged root path).outcome = schema.resolve root path := rfl

theorem outcome_compileComparison (schema : Schema Carrier) (root : Index)
    (comparison : Comparison) :
    (schema.compileComparison root comparison).outcome = do
      let field ← schema.resolve root comparison.path
      let check ← (comparison.check field).outcome
      return .compare comparison check := by
  simp only [compileComparison, Logged.outcome_bind, outcome_resolveLogged, Logged.outcome_pure]
  rfl

variable {limit depth : Nat}

theorem outcome_compile_zero (rule : Rule) :
    (schema.compile root limit 0 rule).outcome = .error (.tooDeep limit) := by
  cases rule <;> rfl

theorem outcome_compile_all (rules : List Rule) :
    (schema.compile root limit (depth + 1) (.all rules)).outcome =
      Condition.group true .all <$>
        rules.mapM fun rule => (schema.compile root limit depth rule).outcome := by
  rw [compile, bind_pure_comp, Logged.outcome_map, Logged.outcome_mapM]

theorem outcome_compile_any (rules : List Rule) :
    (schema.compile root limit (depth + 1) (.any rules)).outcome =
      Condition.group false .any <$>
        rules.mapM fun rule => (schema.compile root limit depth rule).outcome := by
  rw [compile, bind_pure_comp, Logged.outcome_map, Logged.outcome_mapM]

theorem outcome_compile_not (rule : Rule) :
    (schema.compile root limit (depth + 1) (.not rule)).outcome =
      Condition.not <$> (schema.compile root limit depth rule).outcome := by
  rw [compile, bind_pure_comp, Logged.outcome_map]

theorem outcome_compile_compare (comparison : Comparison) :
    (schema.compile root limit (depth + 1) (.compare comparison)).outcome =
      (schema.compileComparison root comparison).outcome := rfl

/-- What a rule and the condition that it compiles to have in common: it is shown for groups from
their operands, pair by pair, and for comparisons from what becomes of them alone. -/
theorem compile_induction {motive : Nat → Rule → Condition (Carrier root) → Prop}
    (all : ∀ {depth rules conditions}, List.Forall₂ (motive depth) rules conditions →
      motive (depth + 1) (.all rules) (.group true .all conditions))
    (any : ∀ {depth rules conditions}, List.Forall₂ (motive depth) rules conditions →
      motive (depth + 1) (.any rules) (.group false .any conditions))
    (not : ∀ {depth rule condition}, motive depth rule condition →
      motive (depth + 1) (.not rule) (.not condition))
    (compare : ∀ {depth comparison condition},
      (schema.compileComparison root comparison).outcome = .ok condition →
        motive (depth + 1) (.compare comparison) condition)
    {rule : Rule} {condition : Condition (Carrier root)}
    (hcompile : (schema.compile root limit depth rule).outcome = .ok condition) :
    motive depth rule condition := by
  induction depth generalizing rule condition with
  | zero =>
      rw [outcome_compile_zero] at hcompile
      cases hcompile
  | succ depth ih =>
      cases rule with
      | all rules =>
          rw [outcome_compile_all, map_eq_ok_iff] at hcompile
          obtain ⟨conditions, hconditions, rfl⟩ := hcompile
          exact all ((mapM_eq_ok_iff.mp hconditions).imp fun _ _ => ih)
      | any rules =>
          rw [outcome_compile_any, map_eq_ok_iff] at hcompile
          obtain ⟨conditions, hconditions, rfl⟩ := hcompile
          exact any ((mapM_eq_ok_iff.mp hconditions).imp fun _ _ => ih)
      | not rule =>
          rw [outcome_compile_not, map_eq_ok_iff] at hcompile
          obtain ⟨inner, hinner, rfl⟩ := hcompile
          exact not (ih hinner)
      | compare comparison => exact compare hcompile

end Schema

namespace Compiler

variable {Index : Type} {Carrier : Index → Type}

theorem outcome_compile (compiler : Compiler) (schema : Schema Carrier) (root : Index)
    (rule : Rule) :
    (compiler.compile schema root rule).outcome =
      (schema.compile root compiler.maxDepth compiler.maxDepth rule).outcome := by
  rw [compile, Logged.outcome_bind]
  cases hcompile : (schema.compile root compiler.maxDepth compiler.maxDepth rule).outcome <;>
    simp [Logged.log, hcompile, bind, Except.bind]

theorem outcome_predicate (compiler : Compiler) (schema : Schema Carrier) (root : Index)
    (rule : Rule) :
    (compiler.predicate schema root rule).outcome =
      Predicate.ofCondition <$>
        (schema.compile root compiler.maxDepth compiler.maxDepth rule).outcome := by
  rw [predicate, bind_pure_comp, Logged.outcome_map, outcome_compile]

theorem outcome_compileJson (compiler : Compiler) (schema : Schema Carrier) (root : Index)
    (document : Json) :
    (compiler.compileJson schema root document).outcome =
      compiler.read document >>= fun rule => (compiler.compile schema root rule).outcome := by
  rw [compileJson, Logged.outcome_bind, Logged.outcome_ofExcept]

theorem outcome_predicateOfJson (compiler : Compiler) (schema : Schema Carrier) (root : Index)
    (document : Json) :
    (compiler.predicateOfJson schema root document).outcome =
      compiler.read document >>= fun rule => (compiler.predicate schema root rule).outcome := by
  rw [predicateOfJson, Logged.outcome_bind, Logged.outcome_ofExcept]

end Compiler

end RecordRules
