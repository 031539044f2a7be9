import RecordRules.Text.Name

/-!
# Tags of rule documents
-/

namespace RecordRules

/-- What a node of a rule document says it is. -/
inductive Tag where
  | all
  | any
  | not
  | compare
  deriving DecidableEq, Repr

namespace Tag

def name : Tag → String
  | .all => "and"
  | .any => "or"
  | .not => "not"
  | .compare => "predicate"

def every : List Tag := [.all, .any, .not, .compare]

def ofName? (name : String) : Option Tag := every.find? fun tag => Text.SameName tag.name name

end Tag

end RecordRules
