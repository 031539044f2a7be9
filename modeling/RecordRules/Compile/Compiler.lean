import RecordRules.Compile.Check
import RecordRules.Predicate
import RecordRules.Rule.Document

/-!
# Compiling rules

A rule is compiled against a record type of a schema: its paths are resolved, its comparisons
become checks and its groups are made as small as their operands allow. The first error from left
to right is the one that is reported.
-/

namespace RecordRules

variable {Index : Type} {Carrier : Index → Type}

namespace Condition

variable {α : Type}

/-- An empty group is the constant that changes no larger group, and a group of one is that one. -/
def group (unit : Bool) (combine : List (Condition α) → Condition α) :
    List (Condition α) → Condition α
  | [] => .const unit
  | [condition] => condition
  | conditions => combine conditions

end Condition

namespace Schema

def compileComparison (schema : Schema Carrier) (root : Index) (comparison : Comparison) :
    Logged CompileError (Condition (Carrier root)) := do
  let field ← schema.resolveLogged root comparison.path
  let check ← comparison.check field
  .log (.comparisonCompiled comparison.path comparison.operator field.kind)
  return .compare comparison check

/-- Compiles a rule in which at most `depth` rules are nested. The error names the limit that was
set at the outset. -/
def compile (schema : Schema Carrier) (root : Index) (limit : Nat) :
    (depth : Nat) → Rule → Logged CompileError (Condition (Carrier root))
  | 0, _ => .ofExcept (.error (.tooDeep limit))
  | depth + 1, .all rules =>
    return .group true .all (← rules.mapM (compile schema root limit depth))
  | depth + 1, .any rules =>
    return .group false .any (← rules.mapM (compile schema root limit depth))
  | depth + 1, .not rule => return .not (← compile schema root limit depth rule)
  | _ + 1, .compare comparison => schema.compileComparison root comparison

end Schema

/-- How deep rules may be nested. -/
structure Compiler where
  maxDepth : Nat := Rule.defaultMaxDepth

namespace Compiler

def read (compiler : Compiler) (document : Json) : Except CompileError Rule :=
  Rule.ofJson document compiler.maxDepth

def compile (compiler : Compiler) (schema : Schema Carrier) (root : Index) (rule : Rule) :
    Logged CompileError (Condition (Carrier root)) := do
  .log (.compiling (schema root).name rule)
  let condition ← schema.compile root compiler.maxDepth compiler.maxDepth rule
  .log (.compiled condition.comparisons.length)
  return condition

def predicate (compiler : Compiler) (schema : Schema Carrier) (root : Index) (rule : Rule) :
    Logged CompileError (Predicate (Carrier root)) :=
  return .ofCondition (← compiler.compile schema root rule)

def compileJson (compiler : Compiler) (schema : Schema Carrier) (root : Index) (document : Json) :
    Logged CompileError (Condition (Carrier root)) := do
  compiler.compile schema root (← .ofExcept (compiler.read document))

def predicateOfJson (compiler : Compiler) (schema : Schema Carrier) (root : Index)
    (document : Json) : Logged CompileError (Predicate (Carrier root)) := do
  compiler.predicate schema root (← .ofExcept (compiler.read document))

end Compiler

end RecordRules
