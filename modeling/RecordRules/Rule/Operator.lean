import RecordRules.Text.Name

/-!
# Operators of comparisons
-/

namespace RecordRules

inductive Operator where
  /-- The field's value is one of the literals. -/
  | contains
  /-- The field's value is the first literal. -/
  | equals
  /-- The field's text begins with the text of the first literal. -/
  | startsWith
  /-- The field's value is above the first literal. -/
  | greaterThan
  deriving DecidableEq, Repr

namespace Operator

def name : Operator → String
  | .contains => "contains"
  | .equals => "equals"
  | .startsWith => "startswith"
  | .greaterThan => "greaterthan"

def all : List Operator := [.contains, .equals, .startsWith, .greaterThan]

def ofName? (name : String) : Option Operator :=
  all.find? fun operator => Text.SameName operator.name name

end Operator

end RecordRules
