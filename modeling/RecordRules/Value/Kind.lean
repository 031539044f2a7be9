import RecordRules.Decimal.Basic
import RecordRules.Text.Name

/-!
# Kinds of values
-/

namespace RecordRules

inductive Kind where
  | int32
  | int64
  | string
  | decimal
  | bool
  deriving DecidableEq, Repr

namespace Kind

def name : Kind → String
  | .int32 => "Int32"
  | .int64 => "Int64"
  | .string => "String"
  | .decimal => "Decimal"
  | .bool => "Bool"

def all : List Kind := [.int32, .int64, .string, .decimal, .bool]

def ofName? (name : String) : Option Kind := all.find? fun kind => Text.SameName kind.name name

/-- Only numbers can be asked which of them is greater. -/
def isOrdered : Kind → Bool
  | .int32 | .int64 | .decimal => true
  | .string | .bool => false

/-- The values of a kind. -/
abbrev Carrier : Kind → Type
  | .int32 => Int32
  | .int64 => Int64
  | .string => String
  | .decimal => Decimal
  | .bool => Bool

end Kind

end RecordRules
