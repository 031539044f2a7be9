import RecordRules.Proofs.Schema.Walk
import RecordRules.Proofs.Value.Order

/-!
# Values that go missing

A record can lose values, and records inside it, at any depth. Along a path this shows in one way
only: where something was read, the same thing is read or nothing at all. Main statement:
`Schema.walk?_of_thinned`.
-/

namespace RecordRules

/-! ### One value -/

/-- In place of what was read the same thing is read, or nothing. Decimals may be written
differently. -/
inductive Fades : Option Value → Option Value → Prop where
  | absent (read : Option Value) : Fades read none
  | present {value other : Value} (hequal : value.Equals other) : Fades (some value) (some other)

theorem Fades.refl (read : Option Value) : Fades read read := by
  cases read with
  | none => exact .absent none
  | some value => exact .present (.refl value)

theorem Fades.of_rel {read other : Option Value} (hrel : Option.Rel Value.Equals read other) :
    Fades read other := by
  cases hrel with
  | none => exact .absent none
  | some hequal => exact .present hequal

variable {Index : Type} {Carrier : Index → Type} {schema : Schema Carrier}

/-! ### Records -/

namespace Schema

/-- A relation between records of one type such that the second record reads what the first one
reads or nothing, and leads to records that are related again or to none. -/
structure Thins (schema : Schema Carrier)
    (Thinner : (index : Index) → Carrier index → Carrier index → Prop) : Prop where
  value {index : Index} {record other : Carrier index} {field : Field Carrier index} {kind : Kind}
    {read : Carrier index → Option Value} (hthinner : Thinner index record other)
    (hfield : field ∈ (schema index).fields) (hslot : field.slot = .value kind read) :
    Fades (read record) (read other)
  nested {index target : Index} {record other : Carrier index} {field : Field Carrier index}
    {get : Carrier index → Option (Carrier target)} (hthinner : Thinner index record other)
    (hfield : field ∈ (schema index).fields) (hslot : field.slot = .nested target get) :
    get other = none ∨ Option.Rel (Thinner target) (get record) (get other)

/-- The second record is the first one after values, and whole records in it, have been taken out.
Records may lead back to themselves, so it is enough that some relation carries this on. -/
def Thinned (schema : Schema Carrier) (index : Index) (record other : Carrier index) : Prop :=
  ∃ Thinner, schema.Thins Thinner ∧ Thinner index record other

theorem mem_fields_of_find? {index : Index} {name : String} {slot : Slot Carrier index}
    (hfound : (schema index).find? name = some slot) :
    ∃ field ∈ (schema index).fields, field.slot = slot := by
  obtain ⟨field, hfield, hslot⟩ := Option.map_eq_some_iff.mp hfound
  exact ⟨field, List.mem_of_find?_eq_some hfield, hslot⟩

section Walk

variable {Thinner : (index : Index) → Carrier index → Carrier index → Prop}
  (hthins : schema.Thins Thinner)
include hthins

theorem Thins.walk?_fades {index : Index} {record other : Carrier index}
    (hthinner : Thinner index record other) (segments : List String) :
    Fades (schema.walk? index segments record) (schema.walk? index segments other) := by
  induction segments generalizing index with
  | nil => exact .refl _
  | cons name rest ih =>
      obtain hnowhere | ⟨kind, read, rfl, hfound⟩ | ⟨next, others, target, get, rfl, hfound⟩ :=
        schema.walk?_cons_cases index name rest
      · rw [hnowhere, hnowhere]
        exact .refl none
      · obtain ⟨field, hfield, hslot⟩ := mem_fields_of_find? hfound
        rw [walk?_value hfound, walk?_value hfound]
        exact hthins.value hthinner hfield hslot
      · obtain ⟨field, hfield, hslot⟩ := mem_fields_of_find? hfound
        rw [walk?_nested hfound, walk?_nested hfound]
        rcases hthins.nested hthinner hfield hslot with hnone | hrelated
        · rw [hnone]
          exact .absent _
        · generalize get record = part, get other = partOther at hrelated
          cases hrelated with
          | none => exact .refl none
          | some hpart => exact ih hpart

end Walk

/-- Along every path a record from which values were taken out reads what it read, or nothing. -/
theorem walk?_of_thinned {index : Index} {record other : Carrier index}
    (hthinned : schema.Thinned index record other) (segments : List String) :
    Fades (schema.walk? index segments record) (schema.walk? index segments other) := by
  obtain ⟨Thinner, hthins, hthinner⟩ := hthinned
  exact hthins.walk?_fades hthinner segments

end Schema

/-! ### Rows -/

/-- Cells are emptied, some of them perhaps inside the row that a cell holds. -/
inductive Cell.Cleared : Cell → Cell → Prop where
  | absent (cell : Cell) : Cleared cell .absent
  | value (content : Value) : Cleared (.value content) (.value content)
  | row {cells others : Row} (hcells : List.Forall₂ Cleared cells others) :
      Cleared (.row cells) (.row others)

namespace Table

variable {cell other : Option Cell}

theorem fades_of_cleared (hcleared : Option.Rel Cell.Cleared cell other) :
    Fades (cell.bind Cell.value?) (other.bind Cell.value?) := by
  cases hcleared with
  | none => exact .absent none
  | some hcell =>
      cases hcell with
      | absent cell => exact .absent _
      | value content => exact .refl (some content)
      | row hcells => exact .absent none

theorem row?_of_cleared (hcleared : Option.Rel Cell.Cleared cell other) :
    other.bind Cell.row? = none ∨
      Option.Rel (List.Forall₂ Cell.Cleared) (cell.bind Cell.row?) (other.bind Cell.row?) := by
  cases hcleared with
  | none => exact .inl rfl
  | some hcell =>
      cases hcell with
      | absent cell => exact .inl rfl
      | value content => exact .inl rfl
      | row hcells => exact .inr (.some hcells)

theorem getElem?_cleared {row other : Row} (hcleared : List.Forall₂ Cell.Cleared row other)
    (position : Nat) : Option.Rel Cell.Cleared row[position]? other[position]? := by
  induction hcleared generalizing position with
  | nil => exact .none
  | cons hcell _ ih =>
      cases position with
      | zero => exact .some hcell
      | succ position => exact ih position

theorem exists_field_of_mem {tables : List Table} {index : Nat} {field : Field Rows index}
    (hfield : field ∈ (Table.schema tables index).fields) :
    ∃ column position, field = Table.field index position column := by
  rw [Table.schema] at hfield
  split at hfield
  · obtain ⟨⟨column, position⟩, -, rfl⟩ := List.mem_map.mp hfield
    exact ⟨column, position, rfl⟩
  · cases hfield

/-- Emptying cells takes values and records out of a row, and does nothing else. -/
theorem thinned_of_cleared (tables : List Table) (index : Nat) {row other : Row}
    (hcleared : List.Forall₂ Cell.Cleared row other) :
    (Table.schema tables).Thinned index row other := by
  refine ⟨fun _ => List.Forall₂ Cell.Cleared, ⟨?value, ?nested⟩, hcleared⟩
  case value =>
    intro index record other field kind read hthinner hfield hslot
    obtain ⟨⟨name, type⟩, position, rfl⟩ := exists_field_of_mem hfield
    cases type with
    | nested target => cases hslot
    | value declared =>
        cases hslot
        exact fades_of_cleared (getElem?_cleared hthinner position)
  case nested =>
    intro index target record other field get hthinner hfield hslot
    obtain ⟨⟨name, type⟩, position, rfl⟩ := exists_field_of_mem hfield
    cases type with
    | value declared => cases hslot
    | nested declared =>
        cases hslot
        exact row?_of_cleared (getElem?_cleared hthinner position)

end Table

end RecordRules
