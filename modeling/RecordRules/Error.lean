import RecordRules.Json.Reader
import RecordRules.Rule.Operator
import RecordRules.Rule.Path
import RecordRules.Rule.Tag
import RecordRules.Value.Kind

/-!
# Errors

Why a document is not a rule, and why a rule does not fit a type of records.
-/

namespace RecordRules

/-- The object of a rule document that lacks a property. -/
inductive Site where
  | statement
  | tagged (tag : Tag)
  | value
  deriving DecidableEq, Repr

def Site.name : Site → String
  | .statement => "statement"
  | .tagged tag => tag.name
  | .value => "value"

/-- What a property has to be. -/
inductive Shape where
  | object
  | string
  | statements
  | literals
  | array
  deriving DecidableEq, Repr

def Shape.description : Shape → String
  | .object => "a JSON object"
  | .string => "a string"
  | .statements => "an array of statements"
  | .literals => "an object with 'valueType' and 'values'"
  | .array => "an array"

/-- What a path has reached when its next segment leads nowhere. -/
inductive Owner where
  | record (name : String) (fields : List String)
  | value (kind : Kind)
  deriving DecidableEq

def Owner.name : Owner → String
  | .record name _ => name
  | .value kind => kind.name

inductive CompileError where
  | unsupportedTag (tag : String)
  | unsupportedOperator (name : String)
  | unsupportedKind (name : String)
  | unreadableLiteral (index : Nat) (kind : Kind) (found : String)
  | unknownAttribute (path : Path) (segment : String) (owner : Owner)
  | notAValue (path : Path) (record : String)
  | kindMismatch (path : Path) (operator : Operator) (field literals : Kind)
  | noLiterals (path : Path) (operator : Operator)
  | missingProperty (site : Site) (property : String)
  | invalidProperty (property : String) (expected : Shape)
  | tooDeep (limit : Nat)
  deriving DecidableEq

def CompileError.message : CompileError → String
  | .unsupportedTag tag => s!"the '{tag}' statement type is not supported"
  | .unsupportedOperator name => s!"the '{name}' operator is not supported"
  | .unsupportedKind name => s!"the '{name}' value type is not supported"
  | .unreadableLiteral index kind found =>
    s!"value at index {index} cannot be read as {kind.name}: found {found}"
  | .unknownAttribute path segment owner =>
    s!"unknown attribute '{path.text}': '{segment}' is not a field of '{owner.name}'"
  | .notAValue path record =>
    s!"attribute '{path.text}' names record '{record}', not a value field"
  | .kindMismatch path operator field literals =>
    s!"operator '{operator.name}' cannot compare field '{path.text}' of type {field.name} " ++
      s!"with {literals.name} values"
  | .noLiterals path operator =>
    s!"operator '{operator.name}' on '{path.text}' requires at least one value"
  | .missingProperty site property => s!"missing property '{property}' on {site.name} node"
  | .invalidProperty property expected =>
    s!"property '{property}' must be {expected.description}"
  | .tooDeep limit => s!"rule nesting exceeds the depth limit of {limit}"

/-- Why the contents of a file are not a text. -/
inductive FileError where
  | notFound
  | isDirectory
  | notUnicode
  deriving DecidableEq, Repr

inductive LoadError where
  | file (error : FileError)
  | json (error : Json.ReadError)
  | compile (error : CompileError)
  deriving DecidableEq

end RecordRules
