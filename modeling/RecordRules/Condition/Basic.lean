import RecordRules.Rule.Basic

/-!
# Conditions

A condition is a rule that is ready to be run on records of one type: every comparison has a check
that tests a record. Groups are evaluated from left to right and no further than needed.
-/

namespace RecordRules

inductive Condition (α : Type) where
  | const (value : Bool)
  | compare (comparison : Comparison) (check : α → Bool)
  | all (conditions : List (Condition α))
  | any (conditions : List (Condition α))
  | not (condition : Condition α)

namespace Condition

variable {α : Type}

mutual

def evaluate (record : α) : Condition α → Bool
  | .const value => value
  | .compare _ check => check record
  | .all conditions => evaluateAll record conditions
  | .any conditions => evaluateAny record conditions
  | .not condition => !condition.evaluate record

def evaluateAll (record : α) : List (Condition α) → Bool
  | [] => true
  | condition :: rest => condition.evaluate record && evaluateAll record rest

def evaluateAny (record : α) : List (Condition α) → Bool
  | [] => false
  | condition :: rest => condition.evaluate record || evaluateAny record rest

end

mutual

/-- One check for the whole condition, so that the condition is not walked again for each record. -/
def toCheck : Condition α → α → Bool
  | .const value => fun _ => value
  | .compare _ check => check
  | .all conditions =>
    let checks := toChecks conditions
    fun record => checks.all fun check => check record
  | .any conditions =>
    let checks := toChecks conditions
    fun record => checks.any fun check => check record
  | .not condition =>
    let check := condition.toCheck
    fun record => !check record

def toChecks : List (Condition α) → List (α → Bool)
  | [] => []
  | condition :: rest => condition.toCheck :: toChecks rest

end

mutual

/-- A second condition of the same shape that has its checks in common with the first. -/
def copy : Condition α → Condition α
  | .const value => .const value
  | .compare comparison check => .compare comparison check
  | .all conditions => .all (copies conditions)
  | .any conditions => .any (copies conditions)
  | .not condition => .not condition.copy

def copies : List (Condition α) → List (Condition α)
  | [] => []
  | condition :: rest => condition.copy :: copies rest

end

mutual

/-- The comparisons of a condition from left to right. -/
def comparisons : Condition α → List Comparison
  | .const _ => []
  | .compare comparison _ => [comparison]
  | .all conditions => comparisonsOf conditions
  | .any conditions => comparisonsOf conditions
  | .not condition => condition.comparisons

def comparisonsOf : List (Condition α) → List Comparison
  | [] => []
  | condition :: rest => condition.comparisons ++ comparisonsOf rest

end

mutual

def height : Condition α → Nat
  | .const _ => 1
  | .compare _ _ => 1
  | .all conditions => 1 + heights conditions
  | .any conditions => 1 + heights conditions
  | .not condition => 1 + condition.height

def heights : List (Condition α) → Nat
  | [] => 0
  | condition :: rest => max condition.height (heights rest)

end

def groupText (word : String) (texts : List String) : String :=
  "(" ++ String.intercalate (" " ++ word ++ " ") texts ++ ")"

mutual

def text : Condition α → String
  | .const value => if value then "TRUE" else "FALSE"
  | .compare comparison _ => "(" ++ comparison.label ++ ")"
  | .all conditions => groupText "AND" (texts conditions)
  | .any conditions => groupText "OR" (texts conditions)
  | .not condition => "(NOT " ++ condition.text ++ ")"

def texts : List (Condition α) → List String
  | [] => []
  | condition :: rest => condition.text :: texts rest

end

@[simp]
theorem evaluateAll_eq (record : α) (conditions : List (Condition α)) :
    evaluateAll record conditions = conditions.all (evaluate record) := by
  induction conditions with
  | nil => rfl
  | cons condition rest ih => simp [evaluateAll, ih]

@[simp]
theorem evaluateAny_eq (record : α) (conditions : List (Condition α)) :
    evaluateAny record conditions = conditions.any (evaluate record) := by
  induction conditions with
  | nil => rfl
  | cons condition rest ih => simp [evaluateAny, ih]

@[simp]
theorem toChecks_eq (conditions : List (Condition α)) :
    toChecks conditions = conditions.map toCheck := by
  induction conditions with
  | nil => rfl
  | cons condition rest ih => simp [toChecks, ih]

@[simp]
theorem copies_eq (conditions : List (Condition α)) : copies conditions = conditions.map copy := by
  induction conditions with
  | nil => rfl
  | cons condition rest ih => simp [copies, ih]

@[simp]
theorem comparisonsOf_eq (conditions : List (Condition α)) :
    comparisonsOf conditions = conditions.flatMap comparisons := by
  induction conditions with
  | nil => rfl
  | cons condition rest ih => simp [comparisonsOf, ih]

@[simp]
theorem texts_eq (conditions : List (Condition α)) : texts conditions = conditions.map text := by
  induction conditions with
  | nil => rfl
  | cons condition rest ih => simp [texts, ih]

end Condition

end RecordRules
