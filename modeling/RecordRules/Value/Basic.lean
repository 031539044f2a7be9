import RecordRules.Value.Kind

/-!
# Values

What a field of a record holds and what a literal of a rule stands for. Values of two kinds are
never compared: they are neither equal nor ordered.
-/

namespace RecordRules

inductive Value where
  | int32 (value : Int32)
  | int64 (value : Int64)
  | string (value : String)
  | decimal (value : Decimal)
  | bool (value : Bool)
  deriving DecidableEq

def Kind.toValue : (kind : Kind) → kind.Carrier → Value
  | .int32 => .int32
  | .int64 => .int64
  | .string => .string
  | .decimal => .decimal
  | .bool => .bool

namespace Value

def kind : Value → Kind
  | .int32 _ => .int32
  | .int64 _ => .int64
  | .string _ => .string
  | .decimal _ => .decimal
  | .bool _ => .bool

@[simp]
theorem kind_toValue (kind : Kind) (item : kind.Carrier) : (kind.toValue item).kind = kind := by
  cases kind <;> rfl

/-- Strings are ordered by their characters, and false comes before true. -/
def compare : Value → Value → Option Ordering
  | .int32 left, .int32 right => some (Ord.compare left right)
  | .int64 left, .int64 right => some (Ord.compare left right)
  | .string left, .string right => some (Ord.compare left right)
  | .decimal left, .decimal right => some (left.compare right)
  | .bool left, .bool right => some (Ord.compare left right)
  | _, _ => none

/-- Decimals match by value, whatever their scales. -/
def isMatch (value literal : Value) : Bool := value.compare literal = some .eq

def isAbove (value literal : Value) : Bool := value.compare literal = some .gt

/-- Only a string starts with a text. -/
def startsWith (value : Value) (start : String) : Bool :=
  match value with
  | .string text => start.toList.isPrefixOf text.toList
  | _ => false

/-- The value as plain text. -/
def text : Value → String
  | .int32 value => toString value.toInt
  | .int64 value => toString value.toInt
  | .string value => value
  | .decimal value => value.text
  | .bool value => toString value

/-- The value as a rule shows it: a string stands between quotes, as it is. -/
def display : Value → String
  | .string value => "\"" ++ value ++ "\""
  | value => value.text

end Value

end RecordRules
