import RecordRules.Schema.Basic

/-!
# Tables

Records as rows of cells, for record types that are only declared when a program runs. A row has
one cell for each column, and a cell holds a value, a row of another table or nothing.
-/

namespace RecordRules

inductive Cell where
  | absent
  | value (value : Value)
  | row (cells : List Cell)

abbrev Row := List Cell

def Cell.value? : Cell → Option Value
  | .value content => some content
  | _ => none

def Cell.row? : Cell → Option Row
  | .row cells => some cells
  | _ => none

/-- What the cells of a column hold. -/
inductive ColumnType where
  | value (kind : Kind)
  | nested (table : Nat)

structure Column where
  name : String
  type : ColumnType

structure Table where
  name : String
  columns : List Column

namespace Table

abbrev Rows : Nat → Type := fun _ => Row

/-- A column reads the cell in its own place. -/
def field (table position : Nat) (column : Column) : Field Rows table where
  name := column.name
  slot :=
    match column.type with
    | .value kind => .value kind fun row => row[position]?.bind Cell.value?
    | .nested target => .nested target fun row => row[position]?.bind Cell.row?

def recordType (index : Nat) (table : Table) : RecordType Rows index where
  name := table.name
  fields := table.columns.zipIdx.map fun (column, position) => field index position column

/-- Tables are known by their places in the list; elsewhere there are records without fields. -/
def schema (tables : List Table) : Schema Rows := fun index =>
  match tables[index]? with
  | some table => recordType index table
  | none => ⟨"", []⟩

end Table

end RecordRules
