import RecordRules.Rule.Basic
import RecordRules.Schema.Basic

/-!
# The meaning of rules

What a rule says of one record, with the record in hand: the path is walked through the record
itself and the value found there is put to the operator. A comparison on an absent value is false.
-/

namespace RecordRules

variable {Index : Type} {Carrier : Index → Type}

def Operator.isSatisfied (operator : Operator) (literals : Literals) (value : Value) : Bool :=
  match operator with
  | .contains => literals.values.any value.isMatch
  | .equals => literals.first?.any value.isMatch
  | .startsWith => literals.first?.any fun first => value.startsWith first.text
  | .greaterThan => literals.first?.any value.isAbove

def Comparison.holdsIn (comparison : Comparison) (schema : Schema Carrier) (root : Index)
    (record : Carrier root) : Bool :=
  (schema.walk? root comparison.path.segments record).any
    (comparison.operator.isSatisfied comparison.literals)

def Rule.holdsIn (rule : Rule) (schema : Schema Carrier) (root : Index) (record : Carrier root) :
    Bool :=
  rule.holds fun comparison => comparison.holdsIn schema root record

end RecordRules
