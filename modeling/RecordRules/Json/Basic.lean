import RecordRules.Numeral.Basic

/-!
# JSON values

Numbers keep their written form. The members of an object stand in the order of their keys, one
for each key, which `insertMember` maintains.
-/

namespace RecordRules

inductive Json where
  | null
  | bool (value : Bool)
  | number (numeral : Numeral)
  | string (text : String)
  | array (elements : List Json)
  | object (members : List (String × Json))
  deriving Inhabited

namespace Json

abbrev Members := List (String × Json)

/-- The value given last to a key is the one that counts. -/
def insertMember (key : String) (value : Json) : Members → Members
  | [] => [(key, value)]
  | (other, current) :: rest =>
    if key < other then (key, value) :: (other, current) :: rest
    else if key = other then (key, value) :: rest
    else (other, current) :: insertMember key value rest

def ofMembers (members : Members) : Json :=
  .object (members.foldl (fun sorted (key, value) => insertMember key value sorted) [])

def bool? : Json → Option Bool
  | .bool value => some value
  | _ => none

def number? : Json → Option Numeral
  | .number numeral => some numeral
  | _ => none

def string? : Json → Option String
  | .string text => some text
  | _ => none

def array? : Json → Option (List Json)
  | .array elements => some elements
  | _ => none

def object? : Json → Option Members
  | .object members => some members
  | _ => none

end Json

end RecordRules
