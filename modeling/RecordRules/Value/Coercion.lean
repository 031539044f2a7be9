import RecordRules.Decimal.OfNumeral
import RecordRules.Error
import RecordRules.Json.Printer
import RecordRules.Value.Literals

/-!
# Literals from JSON

Every kind has one form in JSON, and nothing else is taken for it: a quoted number is no number,
and an integer has neither a point nor an exponent.
-/

namespace RecordRules

/-- An integer from `-limit` up to `limit - 1`. -/
def Numeral.toIntWithin? (numeral : Numeral) (limit : Int) : Option Int := do
  let number ← numeral.toInt?
  if -limit ≤ number ∧ number < limit then some number else none

def Kind.read? : (kind : Kind) → Json → Option kind.Carrier
  | .int32, .number numeral => (numeral.toIntWithin? 2147483648).map Int32.ofInt
  | .int64, .number numeral => (numeral.toIntWithin? 9223372036854775808).map Int64.ofInt
  | .string, .string text => some text
  | .decimal, .number numeral => Decimal.ofNumeral? numeral
  | .bool, .bool value => some value
  | _, _ => none

/-- The form in which a kind is read. -/
def Kind.toJson : (kind : Kind) → kind.Carrier → Json
  | .int32, value => .number (.ofInt value.toInt)
  | .int64, value => .number (.ofInt value.toInt)
  | .string, text => .string text
  | .decimal, value => .number value.toNumeral
  | .bool, value => .bool value

namespace Literals

/-- The first element that cannot be read is the error, with its place in the array. -/
def readFrom (kind : Kind) (index : Nat) : List Json → Except CompileError (List kind.Carrier)
  | [] => .ok []
  | element :: rest =>
    match kind.read? element with
    | none => .error (.unreadableLiteral index kind element.text)
    | some item => (readFrom kind (index + 1) rest).map (item :: ·)

def ofJson (kindName : String) (elements : List Json) : Except CompileError Literals :=
  match Kind.ofName? kindName with
  | none => .error (.unsupportedKind kindName)
  | some kind => (readFrom kind 0 elements).map (⟨kind, ·⟩)

def toJson (literals : Literals) : List Json := literals.items.map literals.kind.toJson

end Literals

end RecordRules
