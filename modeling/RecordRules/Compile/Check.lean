import RecordRules.Compile.Event
import RecordRules.Schema.Resolve

/-!
# Checks

What a comparison asks of a record. Whether the kinds of the field and of the literals fit the
operator is settled first, then whether there is a literal at all; after that no check can fail. A
value that is absent satisfies no operator.
-/

namespace RecordRules

namespace Operator

/-- Whether a field of one kind can be compared with literals of another. -/
def accepts : Operator → (field literals : Kind) → Bool
  | .contains, field, literals => field = literals
  | .equals, field, literals => field = literals
  | .startsWith, field, _ => field = .string
  | .greaterThan, field, literals => field.isOrdered && field = literals

/-- All operators but one look at the first literal only. -/
def usesFirst : Operator → Bool
  | .contains => false
  | .equals | .startsWith | .greaterThan => true

/-- Whether a value satisfies the operator, `first` being the first literal. -/
def holdsFor (first : Value) : Operator → Value → Bool
  | .contains, value => value.isMatch first
  | .equals, value => value.isMatch first
  | .startsWith, value => value.startsWith first.text
  | .greaterThan, value => value.isAbove first

end Operator

namespace Comparison

variable {α : Type}

def checkFirst (operator : Operator) (first : Value) (read : α → Option Value) : α → Bool :=
  fun record => (read record).any (operator.holdsFor first)

def checkMember (literals : Literals) (read : α → Option Value) : α → Bool :=
  fun record => (read record).any literals.contains

/-- The literal of an operator that uses the first one only; others are passed over with a
warning. -/
def firstLiteral (comparison : Comparison) : Logged CompileError Value :=
  match comparison.literals.first? with
  | none => .ofExcept (.error (.noLiterals comparison.path comparison.operator))
  | some first => do
    if 1 < comparison.literals.size then
      .log (.firstLiteralOnly comparison.path comparison.operator comparison.literals.size)
    return first

def check (comparison : Comparison) (field : Accessor α) : Logged CompileError (α → Bool) :=
  if comparison.operator.accepts field.kind comparison.literals.kind then
    if comparison.operator.usesFirst then do
      let first ← comparison.firstLiteral
      return checkFirst comparison.operator first field.read
    else
      return checkMember comparison.literals field.read
  else
    .ofExcept (.error
      (.kindMismatch comparison.path comparison.operator field.kind comparison.literals.kind))

end Comparison

end RecordRules
