import RecordRules.Rule.Operator
import RecordRules.Rule.Path
import RecordRules.Value.Literals

/-!
# Rules

A rule is built from comparisons of a field with literals by conjunction, disjunction and
negation. The groups hold any number of rules in the order of their evaluation.
-/

namespace RecordRules

structure Comparison where
  path : Path
  operator : Operator
  literals : Literals

namespace Comparison

def label (comparison : Comparison) : String :=
  comparison.path.text ++ " " ++ comparison.operator.name ++ " " ++ comparison.literals.display

def same (left right : Comparison) : Bool :=
  left.path = right.path && left.operator = right.operator && left.literals.same right.literals

end Comparison

inductive Rule where
  | all (rules : List Rule)
  | any (rules : List Rule)
  | not (rule : Rule)
  | compare (comparison : Comparison)

namespace Rule

/-- A conjunction takes a further rule in; anything else becomes the first of two. -/
def and (left right : Rule) : Rule :=
  match left with
  | .all rules => .all (rules ++ [right])
  | _ => .all [left, right]

def or (left right : Rule) : Rule :=
  match left with
  | .any rules => .any (rules ++ [right])
  | _ => .any [left, right]

def groupText (word : String) (texts : List String) : String :=
  if texts.isEmpty then "(" ++ word ++ ")"
  else "(" ++ String.intercalate (" " ++ word ++ " ") texts ++ ")"

mutual

def text : Rule → String
  | .all rules => groupText "AND" (texts rules)
  | .any rules => groupText "OR" (texts rules)
  | .not rule => "(NOT " ++ rule.text ++ ")"
  | .compare comparison => "(" ++ comparison.label ++ ")"

def texts : List Rule → List String
  | [] => []
  | rule :: rest => rule.text :: texts rest

end

mutual

/-- Equality up to the scale and the sign of zero of decimals. -/
def same : Rule → Rule → Bool
  | .all left, .all right => sameAll left right
  | .any left, .any right => sameAll left right
  | .not left, .not right => left.same right
  | .compare left, .compare right => left.same right
  | _, _ => false

def sameAll : List Rule → List Rule → Bool
  | [], [] => true
  | left :: leftRest, right :: rightRest => left.same right && sameAll leftRest rightRest
  | _, _ => false

end

/-- The decimals 1.5 and 1.50 make no difference. -/
example :
    same (.compare ⟨⟨"Rate"⟩, .equals, .decimal [⟨false, 15, 1, by decide, by decide⟩]⟩)
      (.compare ⟨⟨"Rate"⟩, .equals, .decimal [⟨false, 150, 2, by decide, by decide⟩]⟩) = true := by
  cbv

mutual

/-- The number of nested rules on the longest way to a comparison or to an empty group. -/
def height : Rule → Nat
  | .all rules => 1 + heights rules
  | .any rules => 1 + heights rules
  | .not rule => 1 + rule.height
  | .compare _ => 1

def heights : List Rule → Nat
  | [] => 0
  | rule :: rest => max rule.height (heights rest)

end

mutual

/-- The comparisons of a rule from left to right. -/
def comparisons : Rule → List Comparison
  | .all rules => comparisonsOf rules
  | .any rules => comparisonsOf rules
  | .not rule => rule.comparisons
  | .compare comparison => [comparison]

def comparisonsOf : List Rule → List Comparison
  | [] => []
  | rule :: rest => rule.comparisons ++ comparisonsOf rest

end

mutual

/-- The truth of a rule, given the truth of its comparisons. -/
def holds (truth : Comparison → Bool) : Rule → Bool
  | .all rules => allHold truth rules
  | .any rules => anyHolds truth rules
  | .not rule => !rule.holds truth
  | .compare comparison => truth comparison

def allHold (truth : Comparison → Bool) : List Rule → Bool
  | [] => true
  | rule :: rest => rule.holds truth && allHold truth rest

def anyHolds (truth : Comparison → Bool) : List Rule → Bool
  | [] => false
  | rule :: rest => rule.holds truth || anyHolds truth rest

end

@[simp]
theorem texts_eq (rules : List Rule) : texts rules = rules.map text := by
  induction rules with
  | nil => rfl
  | cons rule rest ih => simp [texts, ih]

@[simp]
theorem comparisonsOf_eq (rules : List Rule) : comparisonsOf rules = rules.flatMap comparisons := by
  induction rules with
  | nil => rfl
  | cons rule rest ih => simp [comparisonsOf, ih]

theorem comparisons_all (rules : List Rule) :
    (all rules).comparisons = rules.flatMap comparisons := by
  rw [comparisons, comparisonsOf_eq]

theorem comparisons_any (rules : List Rule) :
    (any rules).comparisons = rules.flatMap comparisons := by
  rw [comparisons, comparisonsOf_eq]

@[simp]
theorem allHold_eq (truth : Comparison → Bool) (rules : List Rule) :
    allHold truth rules = rules.all (holds truth) := by
  induction rules with
  | nil => rfl
  | cons rule rest ih => simp [allHold, ih]

@[simp]
theorem anyHolds_eq (truth : Comparison → Bool) (rules : List Rule) :
    anyHolds truth rules = rules.any (holds truth) := by
  induction rules with
  | nil => rfl
  | cons rule rest ih => simp [anyHolds, ih]

theorem height_le_heights {rule : Rule} {rules : List Rule} (mem : rule ∈ rules) :
    rule.height ≤ heights rules := by
  induction rules with
  | nil => simp at mem
  | cons head rest ih =>
    simp only [heights]
    rcases List.mem_cons.1 mem with rfl | mem
    · omega
    · have := ih mem
      omega

end Rule

end RecordRules
