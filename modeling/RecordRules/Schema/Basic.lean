import RecordRules.Value.Basic

/-!
# Schemas

A schema describes a family of record types. A field of a record type either reads a value or
leads to a record of some type of the family, perhaps the same one again.
-/

namespace RecordRules

variable {Index : Type}

/-- Either way of reading may find nothing. The kind of a value field is what it declares; what it
reads is not checked against it. -/
inductive Slot (Carrier : Index → Type) (index : Index) where
  | value (kind : Kind) (read : Carrier index → Option Value)
  | nested (target : Index) (get : Carrier index → Option (Carrier target))

structure Field (Carrier : Index → Type) (index : Index) where
  name : String
  slot : Slot Carrier index

structure RecordType (Carrier : Index → Type) (index : Index) where
  name : String
  fields : List (Field Carrier index)

abbrev Schema (Carrier : Index → Type) := (index : Index) → RecordType Carrier index

namespace RecordType

variable {Carrier : Index → Type} {index : Index}

def fieldNames (type : RecordType Carrier index) : List String := type.fields.map Field.name

/-- The first field of a name is the one that counts. -/
def find? (type : RecordType Carrier index) (name : String) : Option (Slot Carrier index) :=
  (type.fields.find? fun field => field.name = name).map Field.slot

end RecordType

namespace Schema

variable {Carrier : Index → Type}

/-- The value that a path leads to in one record: nothing where the path leaves the schema, where
a record on the way is absent, or where the field itself is. -/
def walk? (schema : Schema Carrier) : (index : Index) → List String → Carrier index → Option Value
  | _, [], _ => none
  | index, [name], record =>
    match (schema index).find? name with
    | some (.value _ read) => read record
    | _ => none
  | index, name :: rest, record =>
    match (schema index).find? name with
    | some (.nested target get) => (get record).bind (walk? schema target rest)
    | _ => none

end Schema

end RecordRules
