import RecordRules.Value.Basic

/-!
# Literals

The values that a comparison is made with: a list of one kind, which keeps the order and the
repetitions of the rule it comes from.
-/

namespace RecordRules

structure Literals where
  kind : Kind
  items : List kind.Carrier

namespace Literals

def empty (kind : Kind) : Literals := ⟨kind, []⟩

def int32 (items : List Int32) : Literals := ⟨.int32, items⟩

def int64 (items : List Int64) : Literals := ⟨.int64, items⟩

def string (items : List String) : Literals := ⟨.string, items⟩

def decimal (items : List Decimal) : Literals := ⟨.decimal, items⟩

def bool (items : List Bool) : Literals := ⟨.bool, items⟩

def single : Value → Literals
  | .int32 value => int32 [value]
  | .int64 value => int64 [value]
  | .string value => string [value]
  | .decimal value => decimal [value]
  | .bool value => bool [value]

def values (literals : Literals) : List Value := literals.items.map literals.kind.toValue

def size (literals : Literals) : Nat := literals.items.length

def isEmpty (literals : Literals) : Bool := literals.items.isEmpty

def first? (literals : Literals) : Option Value := literals.values.head?

def contains (literals : Literals) (value : Value) : Bool := literals.values.any value.isMatch

/-- Literals of one kind that match pairwise. -/
def same (left right : Literals) : Bool :=
  left.kind = right.kind && left.size = right.size &&
    (left.values.zip right.values).all fun (value, literal) => value.isMatch literal

def display (literals : Literals) : String :=
  "[" ++ String.intercalate ", " (literals.values.map Value.display) ++ "]"

@[simp]
theorem length_values (literals : Literals) : literals.values.length = literals.size := by
  simp [values, size]

theorem kind_of_mem {literals : Literals} {value : Value} (mem : value ∈ literals.values) :
    value.kind = literals.kind := by
  obtain ⟨item, _, rfl⟩ := List.mem_map.1 mem
  exact Value.kind_toValue literals.kind item

@[simp]
theorem values_single (value : Value) : (single value).values = [value] := by
  cases value <;> rfl

@[simp]
theorem kind_single (value : Value) : (single value).kind = value.kind := by
  cases value <;> rfl

end Literals

end RecordRules
