import RecordRules.Proofs.Except
import RecordRules.Proofs.Text.Name
import RecordRules.Value.Coercion

/-!
# What stands for a literal

Which JSON values are taken for literals of a kind, said without the function that reads them. Main
statement: a list of values is read as literals exactly if each of them stands for one, in their
order (`Literals.ofJson_eq_ok_iff`).
-/

namespace RecordRules

namespace Kind

/-- The JSON values that stand for a literal. An integer is written without a point and without an
exponent, and it is in range if there is a literal of that number. -/
def Denotes : (kind : Kind) → Json → kind.Carrier → Prop
  | .int32, element, item =>
    ∃ numeral, element = .number numeral ∧ numeral.toInt? = some item.toInt
  | .int64, element, item =>
    ∃ numeral, element = .number numeral ∧ numeral.toInt? = some item.toInt
  | .string, element, item => element = .string item
  | .decimal, element, item =>
    ∃ numeral, element = .number numeral ∧ Decimal.ofNumeral? numeral = some item
  | .bool, element, item => element = .bool item

end Kind

theorem Numeral.toIntWithin?_eq_some_iff {numeral : Numeral} {limit number : Int} :
    numeral.toIntWithin? limit = some number ↔
      numeral.toInt? = some number ∧ -limit ≤ number ∧ number < limit := by
  rw [toIntWithin?]
  cases numeral.toInt? with
  | none => simp
  | some found =>
      simp only [Option.bind_eq_bind, Option.bind_some, Option.some.injEq]
      constructor
      · intro hfound
        split at hfound
        · cases hfound
          exact ⟨rfl, ‹_›⟩
        · cases hfound
      · rintro ⟨rfl, hrange⟩
        rw [if_pos hrange]

/-- Machine integers of a width stand for the integers of a range, one each. -/
theorem Numeral.map_toIntWithin?_eq_some_iff {α : Type} {limit : Int} {ofInt : Int → α}
    {toInt : α → Int} (hrange : ∀ item, -limit ≤ toInt item ∧ toInt item < limit)
    (hofInt : ∀ item, ofInt (toInt item) = item)
    (htoInt : ∀ number, -limit ≤ number → number < limit → toInt (ofInt number) = number)
    {numeral : Numeral} {item : α} :
    (numeral.toIntWithin? limit).map ofInt = some item ↔ numeral.toInt? = some (toInt item) := by
  rw [Option.map_eq_some_iff]
  constructor
  · rintro ⟨number, hnumber, rfl⟩
    obtain ⟨hnumeral, hlower, hupper⟩ := toIntWithin?_eq_some_iff.mp hnumber
    rw [htoInt number hlower hupper]
    exact hnumeral
  · intro hnumeral
    exact ⟨toInt item, toIntWithin?_eq_some_iff.mpr ⟨hnumeral, hrange item⟩, hofInt item⟩

namespace Kind

theorem read?_int32_iff {numeral : Numeral} {item : Int32} :
    Kind.int32.read? (.number numeral) = some item ↔ numeral.toInt? = some item.toInt :=
  Numeral.map_toIntWithin?_eq_some_iff (fun item => ⟨item.le_toInt, item.toInt_lt⟩)
    Int32.ofInt_toInt fun _ => Int32.toInt_ofInt_of_le

theorem read?_int64_iff {numeral : Numeral} {item : Int64} :
    Kind.int64.read? (.number numeral) = some item ↔ numeral.toInt? = some item.toInt :=
  Numeral.map_toIntWithin?_eq_some_iff (fun item => ⟨item.le_toInt, item.toInt_lt⟩)
    Int64.ofInt_toInt fun _ => Int64.toInt_ofInt_of_le

theorem read?_eq_some_iff {kind : Kind} {element : Json} {item : kind.Carrier} :
    kind.read? element = some item ↔ kind.Denotes element item := by
  cases kind with
  | int32 =>
      cases element with
      | number numeral => simpa [Denotes] using read?_int32_iff
      | _ => simp [Denotes, read?]
  | int64 =>
      cases element with
      | number numeral => simpa [Denotes] using read?_int64_iff
      | _ => simp [Denotes, read?]
  | string => cases element <;> simp [Denotes, read?]
  | decimal => cases element <;> simp [Denotes, read?]
  | bool => cases element <;> simp [Denotes, read?]

end Kind

namespace Literals

theorem readFrom_eq_ok_iff {kind : Kind} {index : Nat} {elements : List Json}
    {items : List kind.Carrier} :
    readFrom kind index elements = .ok items ↔ List.Forall₂ kind.Denotes elements items := by
  induction elements generalizing index items with
  | nil => simp [readFrom, eq_comm]
  | cons element rest ih =>
      rw [readFrom]
      cases hitem : kind.read? element with
      | none =>
          refine iff_of_false nofun ?_
          rintro (_ | ⟨helement, -⟩)
          rw [Kind.read?_eq_some_iff.mpr helement] at hitem
          cases hitem
      | some item =>
          constructor
          · intro hitems
            obtain ⟨others, hothers, rfl⟩ := map_eq_ok_iff.mp hitems
            exact .cons (Kind.read?_eq_some_iff.mp hitem) (ih.mp hothers)
          · rintro (_ | ⟨helement, hothers⟩)
            rw [Kind.read?_eq_some_iff.mpr helement] at hitem
            rw [← Option.some.inj hitem]
            exact map_eq_ok_iff.mpr ⟨_, ih.mpr hothers, rfl⟩

/-- Literals are read from values that stand for them, one for one, under a name of their kind. -/
theorem ofJson_eq_ok_iff {kindName : String} {elements : List Json} {literals : Literals} :
    ofJson kindName elements = .ok literals ↔
      Text.SameName literals.kind.name kindName ∧
        List.Forall₂ literals.kind.Denotes elements literals.items := by
  obtain ⟨kind, items⟩ := literals
  rw [ofJson]
  constructor
  · intro hread
    cases hfound : Kind.ofName? kindName with
    | none => simp [hfound] at hread
    | some found =>
        rw [hfound] at hread
        obtain ⟨others, hothers, hliterals⟩ := map_eq_ok_iff.mp hread
        cases hliterals
        exact ⟨Kind.ofName?_eq_some_iff.mp hfound, readFrom_eq_ok_iff.mp hothers⟩
  · rintro ⟨hname, hitems⟩
    rw [Kind.ofName?_eq_some_iff.mpr hname]
    exact map_eq_ok_iff.mpr ⟨items, readFrom_eq_ok_iff.mpr hitems, rfl⟩

end Literals

end RecordRules
