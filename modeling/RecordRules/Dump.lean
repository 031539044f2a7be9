import RecordRules.Compile.Compiler
import RecordRules.Text.Dump

/-!
# Debug texts of rules and conditions
-/

namespace RecordRules

open Text

def Path.dump (path : Path) : String := Dump.tuple "AttributePath" [Dump.string path.text]

def Operator.dump : Operator → String
  | .contains => "Contains"
  | .equals => "Equals"
  | .startsWith => "StartsWith"
  | .greaterThan => "GreaterThan"

def Value.dump : Value → String
  | .int32 value => Dump.tuple Kind.int32.name [toString value.toInt]
  | .int64 value => Dump.tuple Kind.int64.name [toString value.toInt]
  | .string text => Dump.tuple Kind.string.name [Dump.string text]
  | .decimal value => Dump.tuple Kind.decimal.name [value.text]
  | .bool value => Dump.tuple Kind.bool.name [toString value]

def Literals.dump (literals : Literals) : String :=
  Dump.record "LiteralSet"
    [("kind", literals.kind.name), ("values", Dump.list (literals.values.map Value.dump))]

def Comparison.dumpFields (comparison : Comparison) : List (String × String) :=
  [("attribute", comparison.path.dump), ("operator", comparison.operator.dump),
    ("value", comparison.literals.dump)]

namespace Rule

mutual

def dump : Rule → String
  | .all rules => Dump.tuple "And" [Dump.list (dumps rules)]
  | .any rules => Dump.tuple "Or" [Dump.list (dumps rules)]
  | .not rule => Dump.tuple "Not" [rule.dump]
  | .compare comparison => Dump.record "Predicate" comparison.dumpFields

def dumps : List Rule → List String
  | [] => []
  | rule :: rest => rule.dump :: dumps rest

end

end Rule

namespace Condition

variable {α : Type}

mutual

/-- A check cannot be shown. -/
def dump : Condition α → String
  | .const value => Dump.tuple "Const" [toString value]
  | .compare comparison _ => Dump.openRecord "Compare" comparison.dumpFields
  | .all conditions => Dump.tuple "And" [Dump.list (dumps conditions)]
  | .any conditions => Dump.tuple "Or" [Dump.list (dumps conditions)]
  | .not condition => Dump.tuple "Not" [condition.dump]

def dumps : List (Condition α) → List String
  | [] => []
  | condition :: rest => condition.dump :: dumps rest

end

end Condition

def Predicate.dump {α : Type} (predicate : Predicate α) : String :=
  Dump.openRecord "Predicate" [("expr", predicate.condition.dump)]

def Compiler.dump (compiler : Compiler) : String :=
  Dump.record "RuleCompiler" [("max_depth", toString compiler.maxDepth)]

def Accessor.dump {α : Type} (accessor : Accessor α) : String :=
  Dump.openRecord "FieldAccessor" [("kind", accessor.kind.name)]

def RecordType.dump {Index : Type} {Carrier : Index → Type} {index : Index}
    (type : RecordType Carrier index) : String :=
  Dump.record "Schema"
    [("name", Dump.string type.name), ("fields", Dump.list (type.fieldNames.map Dump.string))]

/-- The fields of an event, by name. -/
def Event.fields : Event → List (String × String)
  | .compiling record rule => [("record", record), ("rule", rule.text)]
  | .segmentNotFound path segment record known =>
    [("attribute", path.text), ("segment", segment), ("record", record),
      ("known", Dump.list (known.map Dump.string))]
  | .firstLiteralOnly path operator count =>
    [("attribute", path.text), ("operator", operator.name), ("count", toString count)]
  | .comparisonCompiled path operator kind =>
    [("attribute", path.text), ("operator", operator.name), ("kind", kind.name)]
  | .compiled comparisons => [("comparisons", toString comparisons)]

end RecordRules
