import RecordRules.Proofs.Compile.Outcome
import RecordRules.Proofs.Rule.Depth
import RecordRules.Proofs.Schema.Walk

/-!
# Faults of rules

What can be wrong with a rule, listed without compiling it: a rule is visited node by node, each one
before the nodes inside it and the operands of a group from left to right, and every node has its
own list of checks. Main statement: a rule compiles exactly if there is no fault, and the first
fault is the error that is reported (`Compiler.compile_reports_faults`).
-/

namespace RecordRules

/-! ### Checks of comparisons -/

namespace Operator

/-- The kinds of fields that an operator compares with the kinds of literals. -/
inductive Compares : Operator → (field literals : Kind) → Prop where
  | contains (kind : Kind) : Compares .contains kind kind
  | equals (kind : Kind) : Compares .equals kind kind
  | startsWith (literals : Kind) : Compares .startsWith .string literals
  | greaterThan {kind : Kind} (hnumber : kind = .int32 ∨ kind = .int64 ∨ kind = .decimal) :
      Compares .greaterThan kind kind

theorem accepts_iff {operator : Operator} {field literals : Kind} :
    operator.accepts field literals = true ↔ operator.Compares field literals := by
  constructor
  · intro haccepts
    cases operator with
    | contains =>
        rw [of_decide_eq_true haccepts]
        exact .contains literals
    | equals =>
        rw [of_decide_eq_true haccepts]
        exact .equals literals
    | startsWith =>
        rw [of_decide_eq_true haccepts]
        exact .startsWith literals
    | greaterThan =>
        rw [accepts, Bool.and_eq_true, decide_eq_true_eq] at haccepts
        obtain ⟨hordered, rfl⟩ := haccepts
        refine .greaterThan ?_
        cases field <;> simp_all [Kind.isOrdered]
  · rintro (_ | _ | _ | hnumber)
    · exact decide_eq_true rfl
    · exact decide_eq_true rfl
    · rfl
    · obtain rfl | rfl | rfl := hnumber <;> rfl

instance (operator : Operator) (field literals : Kind) :
    Decidable (operator.Compares field literals) :=
  decidable_of_iff _ accepts_iff

end Operator

namespace Comparison

/-- What is wrong with a comparison of a field of some kind: first that the kinds do not fit, then
that there is no literal where one is needed. -/
def faultsFor (comparison : Comparison) (field : Kind) : List CompileError :=
  (if comparison.operator.Compares field comparison.literals.kind then []
    else [.kindMismatch comparison.path comparison.operator field comparison.literals.kind]) ++
  (if comparison.operator ≠ .contains ∧ comparison.literals.size = 0 then
      [.noLiterals comparison.path comparison.operator]
    else [])

end Comparison

variable {Index : Type} {Carrier : Index → Type}

namespace Schema

/-- What is wrong with a comparison: that its path leads nowhere, or else what is wrong with the
field that it leads to. -/
def comparisonFaults (schema : Schema Carrier) (root : Index) (comparison : Comparison) :
    List CompileError :=
  match schema.resolve root comparison.path with
  | .error error => [error]
  | .ok field => comparison.faultsFor field.kind

end Schema

/-! ### Nodes -/

namespace Rule

mutual

/-- The nodes of a rule in the order of their visit, each with its level. -/
def nodes (level : Nat) : Rule → List (Nat × Rule)
  | .all rules => (level, .all rules) :: nodesOf (level + 1) rules
  | .any rules => (level, .any rules) :: nodesOf (level + 1) rules
  | .not rule => (level, .not rule) :: rule.nodes (level + 1)
  | .compare comparison => [(level, .compare comparison)]

def nodesOf (level : Nat) : List Rule → List (Nat × Rule)
  | [] => []
  | rule :: rest => rule.nodes level ++ nodesOf level rest

end

@[simp]
theorem nodesOf_eq (level : Nat) (rules : List Rule) :
    nodesOf level rules = rules.flatMap (nodes level) := by
  induction rules with
  | nil => rfl
  | cons rule rest ih => simp [nodesOf, ih]

end Rule

namespace Schema

/-- What is wrong with a node whatever its level, not counting the nodes inside it. -/
def ownFaults (schema : Schema Carrier) (root : Index) : Rule → List CompileError
  | .compare comparison => schema.comparisonFaults root comparison
  | _ => []

def nodeFaults (schema : Schema Carrier) (root : Index) (limit : Nat) :
    (node : Nat × Rule) → List CompileError
  | (level, rule) =>
    (if limit < level then [.tooDeep limit] else []) ++ schema.ownFaults root rule

/-- What is wrong with a rule, in the order of the visit. The rule itself is at level one. -/
def faults (schema : Schema Carrier) (root : Index) (limit : Nat) (rule : Rule) :
    List CompileError :=
  (rule.nodes 1).flatMap (schema.nodeFaults root limit)

end Schema

/-! ### The error that is reported -/

namespace Comparison

variable {α : Type}

theorem failure?_check (comparison : Comparison) (field : Accessor α) :
    failure? (comparison.check field).outcome = (comparison.faultsFor field.kind).head? := by
  have hneeds : (comparison.operator.usesFirst && comparison.literals.isEmpty) = true ↔
      comparison.operator ≠ .contains ∧ comparison.literals.size = 0 := by
    rw [Bool.and_eq_true, Literals.isEmpty, List.isEmpty_iff_length_eq_zero]
    refine and_congr_left fun _ => ?_
    cases comparison.operator <;> simp [Operator.usesFirst]
  rw [outcome_check, faultsFor]
  simp only [Operator.accepts_iff, hneeds]
  split
  · split <;> rfl
  · rfl

end Comparison

namespace Schema

variable {schema : Schema Carrier} {root : Index}

theorem failure?_compileComparison (comparison : Comparison) :
    failure? (schema.compileComparison root comparison).outcome =
      (schema.comparisonFaults root comparison).head? := by
  rw [outcome_compileComparison, comparisonFaults]
  cases schema.resolve root comparison.path with
  | error error => rfl
  | ok field =>
      rw [ok_bind, ← comparison.failure?_check]
      exact failure?_map _ _

/-- Compiling reports the first fault from the node on that it begins with, `depth` being what the
limit leaves at its level. -/
theorem failure?_compile {limit level depth : Nat} (hlevel : level + depth = limit + 1)
    (rule : Rule) :
    failure? (schema.compile root limit depth rule).outcome =
      ((rule.nodes level).flatMap (schema.nodeFaults root limit)).head? := by
  induction depth generalizing level rule with
  | zero =>
      have hdeep : limit < level := by omega
      rw [outcome_compile_zero]
      cases rule <;> simp [Rule.nodes, nodeFaults, hdeep, failure?]
  | succ depth ih =>
      have hshallow : ¬limit < level := by omega
      have hinner : level + 1 + depth = limit + 1 := by omega
      have hoperands (rules : List Rule) :
          failure? (rules.mapM fun rule => (schema.compile root limit depth rule).outcome) =
            ((Rule.nodesOf (level + 1) rules).flatMap (schema.nodeFaults root limit)).head? := by
        rw [failure?_mapM, Rule.nodesOf_eq, List.flatMap_assoc, List.head?_flatMap]
        exact congrArg (List.findSome? · rules) (funext (ih hinner))
      cases rule with
      | all rules =>
          rw [outcome_compile_all, failure?_map, hoperands]
          simp [Rule.nodes, nodeFaults, ownFaults, hshallow]
      | any rules =>
          rw [outcome_compile_any, failure?_map, hoperands]
          simp [Rule.nodes, nodeFaults, ownFaults, hshallow]
      | not rule =>
          rw [outcome_compile_not, failure?_map, ih hinner]
          simp [Rule.nodes, nodeFaults, ownFaults, hshallow]
      | compare comparison =>
          rw [outcome_compile_compare, failure?_compileComparison]
          simp [Rule.nodes, nodeFaults, ownFaults, hshallow]

theorem failure?_compile_root (limit : Nat) (rule : Rule) :
    failure? (schema.compile root limit limit rule).outcome =
      (schema.faults root limit rule).head? :=
  failure?_compile (Nat.add_comm 1 limit) rule

end Schema

namespace Compiler

/-- **Compiling reports the first fault**, and it succeeds exactly if there is none. A comparison
with a member of an empty list is no fault if the list is of the field's kind. -/
theorem compile_reports_faults (compiler : Compiler) (schema : Schema Carrier) (root : Index)
    (rule : Rule) :
    ((∃ condition, (compiler.compile schema root rule).outcome = .ok condition) ↔
        schema.faults root compiler.maxDepth rule = []) ∧
      (∀ error, (compiler.compile schema root rule).outcome = .error error ↔
        (schema.faults root compiler.maxDepth rule).head? = some error) ∧
      ∀ path field, schema.resolve root path = .ok field → 0 < compiler.maxDepth →
        ∃ condition, (compiler.compile schema root
          (.compare ⟨path, .contains, .empty field.kind⟩)).outcome = .ok condition := by
  have hreports (rule : Rule) : failure? (compiler.compile schema root rule).outcome =
      (schema.faults root compiler.maxDepth rule).head? := by
    rw [outcome_compile, Schema.failure?_compile_root]
  refine ⟨?_, ?_, ?_⟩
  · rw [← failure?_eq_none_iff, hreports, List.head?_eq_none_iff]
  · intro error
    rw [← failure?_eq_some_iff, hreports]
  · intro path field hfield hdepth
    have hshallow : ¬compiler.maxDepth < 1 := by omega
    rw [← failure?_eq_none_iff, hreports]
    simp [Schema.faults, Rule.nodes, Schema.nodeFaults, Schema.ownFaults, Schema.comparisonFaults,
      hfield, hshallow, Comparison.faultsFor, Literals.empty, Operator.Compares.contains]

/-- An account that has a name other than `root`. -/
def notRoot : Rule := .not (.compare ⟨⟨"Name"⟩, .equals, .string ["root"]⟩)

/-- What is wrong to the left is reported first, be it only that it is too deep. -/
def deepBeforeUnordered : Rule := .all [notRoot, .compare ⟨⟨"Name"⟩, .greaterThan, .int32 []⟩]

theorem compile_reports_faults_deepBeforeUnordered :
    (Compiler.compile ⟨2⟩ accounts 0 deepBeforeUnordered).outcome = .error (.tooDeep 2) ∧
      (Compiler.compile ⟨3⟩ accounts 0 deepBeforeUnordered).outcome =
        .error (.kindMismatch ⟨"Name"⟩ .greaterThan .string .int32) ∧
      ∃ condition, (Compiler.compile ⟨1⟩ accounts 0
        (.compare ⟨⟨"Name"⟩, .contains, .empty .string⟩)).outcome = .ok condition := by
  obtain ⟨field, hfield, hkind⟩ : ∃ field, accounts.resolve 0 ⟨"Name"⟩ = .ok field ∧
      field.kind = .string := ⟨_, rfl, rfl⟩
  refine ⟨?_, ?_, ?_⟩
  · exact ((compile_reports_faults ⟨2⟩ accounts 0 deepBeforeUnordered).2.1 _).mpr rfl
  · exact ((compile_reports_faults ⟨3⟩ accounts 0 deepBeforeUnordered).2.1 _).mpr rfl
  · rw [← hkind]
    exact (compile_reports_faults ⟨1⟩ accounts 0 deepBeforeUnordered).2.2 ⟨"Name"⟩ field hfield
      Nat.one_pos

end Compiler

end RecordRules
