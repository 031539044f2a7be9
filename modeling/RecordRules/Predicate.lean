import RecordRules.Condition.Trace

/-!
# Predicates

A condition together with the check that was made of it once.
-/

namespace RecordRules

structure Predicate (α : Type) where
  condition : Condition α
  check : α → Bool

namespace Predicate

variable {α : Type}

/-- The check is made of a copy, and the predicate keeps the condition itself. -/
def ofCondition (condition : Condition α) : Predicate α := ⟨condition, condition.copy.toCheck⟩

def test (predicate : Predicate α) (record : α) : Bool := predicate.check record

/-- The test in the form that list operations take. -/
def matcher (predicate : Predicate α) : α → Bool := fun record => predicate.test record

/-- The records that pass, in their order. -/
def filter (predicate : Predicate α) (records : List α) : List α := records.filter predicate.test

/-- The report follows the condition, not the check. -/
def report (predicate : Predicate α) (record : α) : Report := predicate.condition.report record

def text (predicate : Predicate α) : String := "Predicate" ++ predicate.condition.text

end Predicate

end RecordRules
