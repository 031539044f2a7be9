import RecordRules.Rule.Basic
import RecordRules.Value.Coercion

/-!
# Rule documents

A rule as a JSON value. Every node is an object with a tag, and only the properties that its tag
calls for are looked at. Checks are made in the order of the document from the outside to the
inside, so the first fault is the one that is reported.
-/

namespace RecordRules

open Json (Members)

namespace Document

def property (site : Site) (name : String) (members : Members) : Except CompileError Json :=
  match members.lookup name with
  | some value => .ok value
  | none => .error (.missingProperty site name)

def require {α : Type} (property : String) (expected : Shape) : Option α → Except CompileError α
  | some value => .ok value
  | none => .error (.invalidProperty property expected)

def stringProperty (site : Site) (name : String) (members : Members) :
    Except CompileError String := do
  require name .string (← property site name members).string?

/-- The tag stands under `$type`, or under `type` where there is no `$type`. -/
def tagName (members : Members) : Except CompileError String :=
  match members.lookup "$type", members.lookup "type" with
  | some value, _ => require "$type" .string value.string?
  | none, some value => require "type" .string value.string?
  | none, none => .error (.missingProperty .statement "$type")

def statements (tag : Tag) (members : Members) : Except CompileError (List Json) := do
  require "statements" .statements (← property (.tagged tag) "statements" members).array?

def operator (members : Members) : Except CompileError Operator := do
  let name ← stringProperty (.tagged .compare) "operator" members
  match Operator.ofName? name with
  | some operator => return operator
  | none => .error (.unsupportedOperator name)

def literals (members : Members) : Except CompileError Literals := do
  let value ← property (.tagged .compare) "value" members
  let inner ← require "value" .literals value.object?
  let kindName ← stringProperty (.tagged .compare) "valueType" inner
  let elements ← require "values" .array (← property .value "values" inner).array?
  Literals.ofJson kindName elements

def comparison (members : Members) : Except CompileError Comparison := do
  let path ← stringProperty (.tagged .compare) "attribute" members
  let operator ← operator members
  let literals ← literals members
  return ⟨⟨path⟩, operator, literals⟩

/-- The rule of a document in which at most `depth` rules are nested. The error names the limit
that was set at the outset. -/
def read (limit : Nat) : (depth : Nat) → Json → Except CompileError Rule
  | 0, _ => .error (.tooDeep limit)
  | depth + 1, document => do
    let members ← require "statement" .object document.object?
    let name ← tagName members
    match Tag.ofName? name with
    | some .all => return .all (← (← statements .all members).mapM (read limit depth))
    | some .any => return .any (← (← statements .any members).mapM (read limit depth))
    | some .not => return .not (← read limit depth (← property (.tagged .not) "statement" members))
    | some .compare => return .compare (← comparison members)
    | none => .error (.unsupportedTag name)

end Document

namespace Rule

def defaultMaxDepth : Nat := 64

def ofJson (document : Json) (maxDepth : Nat := defaultMaxDepth) : Except CompileError Rule :=
  Document.read maxDepth maxDepth document

def ofText (text : String) : Except LoadError Rule := do
  let document ← (Json.ofText text).mapError .json
  (ofJson document).mapError .compile

end Rule

def Comparison.toJson (comparison : Comparison) : Json :=
  .ofMembers [
    ("$type", .string Tag.compare.name),
    ("attribute", .string comparison.path.text),
    ("operator", .string comparison.operator.name),
    ("value", .ofMembers [
      ("valueType", .string comparison.literals.kind.name),
      ("values", .array comparison.literals.toJson)])]

namespace Rule

def groupJson (tag : Tag) (documents : List Json) : Json :=
  .ofMembers [("$type", .string tag.name), ("statements", .array documents)]

mutual

/-- The document of a rule. -/
def toJson : Rule → Json
  | .all rules => groupJson .all (toJsons rules)
  | .any rules => groupJson .any (toJsons rules)
  | .not rule => .ofMembers [("$type", .string Tag.not.name), ("statement", rule.toJson)]
  | .compare comparison => comparison.toJson

def toJsons : List Rule → List Json
  | [] => []
  | rule :: rest => rule.toJson :: toJsons rest

end

@[simp]
theorem toJsons_eq (rules : List Rule) : toJsons rules = rules.map toJson := by
  induction rules with
  | nil => rfl
  | cons rule rest ih => simp [toJsons, ih]

end Rule

end RecordRules
