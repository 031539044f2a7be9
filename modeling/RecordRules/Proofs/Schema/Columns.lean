import RecordRules.Proofs.Schema.Likeness
import RecordRules.Schema.Table

/-!
# Tables with fewer columns

Each column of a table is marked, and only the columns with a mark are kept. The rows of all tables
lose the cells of the others, and so do the rows inside their cells. A column that is kept has moved
by then, and it reads from a row in its new place what it used to read in the old one. Main
statements: tables to which columns were appended are an extension (`MarkedTable.extension`), and
tables without columns that no segment finds are a reduction (`MarkedTable.reduction`).
-/

namespace RecordRules

/-- A table each of whose columns is either kept or not. -/
structure MarkedTable where
  name : String
  columns : List (Column × Bool)

namespace MarkedTable

def keptOf (columns : List (Column × Bool)) : List Column :=
  (columns.filter Prod.snd).map Prod.fst

def whole (table : MarkedTable) : Table := ⟨table.name, table.columns.map Prod.fst⟩

def kept (table : MarkedTable) : Table := ⟨table.name, keptOf table.columns⟩

def columnsOf (tables : List MarkedTable) (index : Nat) : List (Column × Bool) :=
  match tables[index]? with
  | some table => table.columns
  | none => []

mutual

/-- What is left of the cell of a column. -/
def keepCell (tables : List MarkedTable) : ColumnType → Cell → Cell
  | .nested target, .row cells => .row (keepCells tables (columnsOf tables target) cells)
  | _, cell => cell

/-- The cells of the columns that are kept, and what is left of them. -/
def keepCells (tables : List MarkedTable) : List (Column × Bool) → List Cell → List Cell
  | (column, true) :: columns, cell :: cells =>
    keepCell tables column.type cell :: keepCells tables columns cells
  | (_, false) :: columns, _ :: cells => keepCells tables columns cells
  | _, _ => []

end

def keepRow (tables : List MarkedTable) (index : Nat) (row : Row) : Row :=
  keepCells tables (columnsOf tables index) row

variable {tables : List MarkedTable}

/-! ### Cells -/

/-- A column that is kept has moved up by the columns before it that are not. -/
theorem getElem?_keepCells (before after : List (Column × Bool)) (column : Column)
    (cells : List Cell) :
    (keepCells tables (before ++ (column, true) :: after) cells)[(before.filter Prod.snd).length]? =
      cells[before.length]?.map (keepCell tables column.type) := by
  induction before generalizing cells with
  | nil => cases cells <;> simp [keepCells]
  | cons first before ih =>
      obtain ⟨other, mark⟩ := first
      cases cells with
      | nil => cases mark <;> simp [keepCells]
      | cons cell cells =>
          cases mark with
          | true => simpa [keepCells] using ih cells
          | false => simpa [keepCells] using ih cells

theorem value?_keepCell (kind : Kind) (cell : Cell) :
    (keepCell tables (.value kind) cell).value? = cell.value? := by
  rw [keepCell]
  exact nofun

theorem row?_keepCell (target : Nat) (cell : Cell) :
    (keepCell tables (.nested target) cell).row? = cell.row?.map (keepRow tables target) := by
  cases cell with
  | row cells => rw [keepCell]; rfl
  | absent => rw [keepCell]; rfl; exact nofun
  | value content => rw [keepCell]; rfl; exact nofun

/-! ### Fields -/

def fieldsFrom (index position : Nat) (columns : List Column) : List (Field Table.Rows index) :=
  (columns.zipIdx position).map fun (column, position) => Table.field index position column

theorem fields_whole (tables : List MarkedTable) (index : Nat) :
    (Table.schema (tables.map whole) index).fields =
      fieldsFrom index 0 ((columnsOf tables index).map Prod.fst) := by
  rw [Table.schema, columnsOf, List.getElem?_map]
  cases tables[index]? <;> rfl

theorem fields_kept (tables : List MarkedTable) (index : Nat) :
    (Table.schema (tables.map kept) index).fields =
      fieldsFrom index 0 (keptOf (columnsOf tables index)) := by
  rw [Table.schema, columnsOf, List.getElem?_map]
  cases tables[index]? <;> rfl

section Kept

variable {index : Nat} {before after : List (Column × Bool)} {column : Column}

theorem getElem?_keepRow (hcolumns : columnsOf tables index = before ++ (column, true) :: after)
    (row : Row) :
    (keepRow tables index row)[(before.filter Prod.snd).length]? =
      row[before.length]?.map (keepCell tables column.type) := by
  rw [keepRow, hcolumns, getElem?_keepCells]

theorem bind_value?_keepRow (hcolumns : columnsOf tables index = before ++ (column, true) :: after)
    {kind : Kind} (htype : column.type = .value kind) (row : Row) :
    (keepRow tables index row)[(before.filter Prod.snd).length]?.bind Cell.value? =
      row[before.length]?.bind Cell.value? := by
  rw [getElem?_keepRow hcolumns, htype, Option.bind_map]
  exact congrArg (Option.bind _) (funext (value?_keepCell kind))

theorem bind_row?_keepRow (hcolumns : columnsOf tables index = before ++ (column, true) :: after)
    {target : Nat} (htype : column.type = .nested target) (row : Row) :
    (keepRow tables index row)[(before.filter Prod.snd).length]?.bind Cell.row? =
      (row[before.length]?.bind Cell.row?).map (keepRow tables target) := by
  rw [getElem?_keepRow hcolumns, htype, Option.bind_map, Option.map_bind]
  exact congrArg (Option.bind _) (funext (row?_keepCell target))

theorem fieldAlike_ofReduction
    (hcolumns : columnsOf tables index = before ++ (column, true) :: after) :
    (Likeness.ofReduction (keepRow tables)).FieldAlike (Table.field index before.length column)
      (Table.field index (before.filter Prod.snd).length column) := by
  refine ⟨rfl, ?_⟩
  rw [Table.field, Table.field]
  cases htype : column.type with
  | value kind =>
      apply Likeness.SlotAlike.value
      rintro row _ rfl
      exact bind_value?_keepRow hcolumns htype row
  | nested target =>
      apply Likeness.SlotAlike.nested
      rintro row _ rfl
      rw [bind_row?_keepRow hcolumns htype]
      cases row[before.length]?.bind Cell.row? with
      | none => exact .none
      | some inner => exact .some rfl

end Kept

/-! ### Columns at the end -/

/-- Columns that are kept, and behind them columns that are not. -/
def IsAppended (columns : List (Column × Bool)) : Prop :=
  ∃ first last : List Column, columns = first.map (·, true) ++ last.map (·, false)

theorem forall₂_fieldAlike {index : Nat} (before after : List (Column × Bool)) (first : List Column)
    (hcolumns : columnsOf tables index = before ++ (first.map (·, true) ++ after)) :
    List.Forall₂ (Likeness.ofProjection (fun index => index) (keepRow tables)).FieldAlike
      (fieldsFrom index (before.filter Prod.snd).length first)
      (fieldsFrom index before.length first) := by
  -- The columns before the others say how far these have moved.
  induction first generalizing before with
  | nil => exact .nil
  | cons column rest ih =>
      have hrest := ih (before ++ [(column, true)]) (by simpa using hcolumns)
      rw [List.filter_append, List.length_append, List.length_append] at hrest
      exact .cons (fieldAlike_ofReduction hcolumns).converse hrest

/-- Tables to which columns were appended extend the tables without them. -/
def extension (tables : List MarkedTable) (happended : ∀ table ∈ tables, IsAppended table.columns) :
    (Table.schema (tables.map kept)).Extension (Table.schema (tables.map whole)) where
  type index := index
  project := keepRow tables
  fields index := by
    obtain ⟨first, last, hcolumns⟩ : IsAppended (columnsOf tables index) := by
      rw [columnsOf]
      cases htable : tables[index]? with
      | none => exact ⟨[], [], rfl⟩
      | some table => exact happended table (List.mem_of_getElem? htable)
    refine ⟨fieldsFrom index 0 first, fieldsFrom index first.length last, ?_, ?_⟩
    · rw [fields_whole, hcolumns, fieldsFrom, fieldsFrom, fieldsFrom, ← List.map_append]
      simp [List.zipIdx_append, Function.comp_def]
    · have hkept : keptOf (columnsOf tables index) = first := by
        simp [keptOf, hcolumns, List.filter_map, Function.comp_def]
      rw [fields_kept, hkept]
      exact forall₂_fieldAlike [] _ first hcolumns

/-! ### Columns that are never found -/

/-- Columns without a mark have a point in their names, or the name of a column before them. -/
def IsPruned : (earlier : List String) → List (Column × Bool) → Prop
  | _, [] => True
  | earlier, (column, mark) :: rest =>
    (mark = true ∨ '.' ∈ column.name.toList ∨ column.name ∈ earlier) ∧
      IsPruned (column.name :: earlier) rest

theorem pruned_fieldsFrom {index : Nat} (before rest : List (Column × Bool))
    (hcolumns : columnsOf tables index = before ++ rest) {earlier : List String}
    (hpruned : IsPruned earlier rest) :
    (Likeness.ofReduction (keepRow tables)).Pruned earlier
      (fieldsFrom index before.length (rest.map Prod.fst))
      (fieldsFrom index (before.filter Prod.snd).length (keptOf rest)) := by
  induction rest generalizing before earlier with
  | nil => exact .nil
  | cons first rest ih =>
      obtain ⟨column, mark⟩ := first
      obtain ⟨hcolumn, hlater⟩ := hpruned
      have hrest := ih (before ++ [(column, mark)]) (by simpa using hcolumns) hlater
      rw [List.filter_append, List.length_append, List.length_append] at hrest
      cases mark with
      | true => exact .keep (fieldAlike_ofReduction hcolumns) hrest
      | false => exact .drop (hcolumn.resolve_left Bool.false_ne_true) hrest

/-- Tables can do without columns that are never found. -/
def reduction (tables : List MarkedTable) (hpruned : ∀ table ∈ tables, IsPruned [] table.columns) :
    (Table.schema (tables.map whole)).Reduction (Table.schema (tables.map kept)) where
  project := keepRow tables
  fields index := by
    have hcolumns : IsPruned [] (columnsOf tables index) := by
      rw [columnsOf]
      cases htable : tables[index]? with
      | none => exact trivial
      | some table => exact hpruned table (List.mem_of_getElem? htable)
    rw [fields_whole, fields_kept]
    exact pruned_fieldsFrom [] _ rfl hcolumns

end MarkedTable

end RecordRules
