import RecordRules.Proofs.Except
import RecordRules.Value.Coercion

/-!
# Gathering literals

Literals that are gathered one by one could be of any kinds, and a value that is not of the kind
that was declared must never be added. Whatever would become of such a value, the values that are
read from a document come out as literals of one kind, and so does everything else that literals are
made from. Main statements: `Gathered.gather_eq` and `Gathered.built_iff`.
-/

namespace RecordRules

/-- Values beside the kind that they are said to be of. -/
structure Gathered where
  kind : Kind
  values : List Value

def Literals.gathered (literals : Literals) : Gathered := ⟨literals.kind, literals.values⟩

/-- A literal of some kind, as a value that might be of any. -/
def Kind.readValue? (kind : Kind) (element : Json) : Option Value :=
  (kind.read? element).map kind.toValue

namespace Gathered

/-- What becomes of a value of another kind is left to `foreign`. -/
def push (foreign : Gathered → Value → Except CompileError Gathered) (gathered : Gathered)
    (value : Value) : Except CompileError Gathered :=
  if value.kind = gathered.kind then .ok ⟨gathered.kind, gathered.values ++ [value]⟩
  else foreign gathered value

variable {foreign : Gathered → Value → Except CompileError Gathered}

def gatherFrom (foreign : Gathered → Value → Except CompileError Gathered) (kind : Kind)
    (gathered : Gathered) (index : Nat) : List Json → Except CompileError Gathered
  | [] => .ok gathered
  | element :: rest =>
    match kind.readValue? element with
    | none => .error (.unreadableLiteral index kind element.text)
    | some value =>
      gathered.push foreign value >>= fun longer => gatherFrom foreign kind longer (index + 1) rest

def gather (foreign : Gathered → Value → Except CompileError Gathered) (kindName : String)
    (elements : List Json) : Except CompileError Gathered :=
  match Kind.ofName? kindName with
  | none => .error (.unsupportedKind kindName)
  | some kind => gatherFrom foreign kind ⟨kind, []⟩ 0 elements

theorem push_toValue (kind : Kind) (items : List kind.Carrier) (item : kind.Carrier) :
    push foreign (Literals.mk kind items).gathered (kind.toValue item) =
      .ok (Literals.mk kind (items ++ [item])).gathered := by
  rw [push, Literals.gathered, Value.kind_toValue, if_pos rfl, Literals.gathered, Literals.values,
    Literals.values, List.map_append, List.map_singleton]

theorem gatherFrom_eq (kind : Kind) (earlier : List kind.Carrier) (index : Nat)
    (elements : List Json) :
    gatherFrom foreign kind (Literals.mk kind earlier).gathered index elements =
      (fun items => (Literals.mk kind (earlier ++ items)).gathered) <$>
        Literals.readFrom kind index elements := by
  -- What has been gathered before an element are literals of the kind, so it is added to them.
  induction elements generalizing earlier index with
  | nil =>
      rw [gatherFrom, Literals.readFrom]
      exact congrArg (fun items => Except.ok (Literals.mk kind items).gathered)
        (List.append_nil earlier).symm
  | cons element rest ih =>
      rw [gatherFrom, Literals.readFrom, Kind.readValue?]
      cases kind.read? element with
      | none => rfl
      | some item =>
          simp only [Option.map_some]
          rw [push_toValue, ok_bind, ih]
          cases Literals.readFrom kind (index + 1) rest with
          | error error => rfl
          | ok items =>
              refine congrArg (fun items => Except.ok (Literals.mk kind items).gathered) ?_
              rw [List.append_assoc, List.singleton_append]

/-- What stands for a value of another kind is never asked for. -/
theorem gather_eq (foreign : Gathered → Value → Except CompileError Gathered) (kindName : String)
    (elements : List Json) :
    gather foreign kindName elements =
      Literals.gathered <$> Literals.ofJson kindName elements := by
  rw [gather, Literals.ofJson]
  cases Kind.ofName? kindName with
  | none => rfl
  | some kind =>
      dsimp only
      refine (gatherFrom_eq kind [] 0 elements).trans ?_
      cases Literals.readFrom kind 0 elements with
      | error error => rfl
      | ok items => rfl

/-- The ways in which values and a kind come together: none at all, a list of one type, a value on
its own, or the elements of a document. -/
inductive Built : Gathered → Prop where
  | empty (kind : Kind) : Built ⟨kind, []⟩
  | int32 (items : List Int32) : Built ⟨.int32, items.map .int32⟩
  | int64 (items : List Int64) : Built ⟨.int64, items.map .int64⟩
  | string (items : List String) : Built ⟨.string, items.map .string⟩
  | decimal (items : List Decimal) : Built ⟨.decimal, items.map .decimal⟩
  | bool (items : List Bool) : Built ⟨.bool, items.map .bool⟩
  | single (value : Value) : Built ⟨value.kind, [value]⟩
  | gather {foreign : Gathered → Value → Except CompileError Gathered} {kindName : String}
      {elements : List Json} {gathered : Gathered}
      (hgather : gather foreign kindName elements = .ok gathered) : Built gathered

theorem built_iff {gathered : Gathered} :
    gathered.Built ↔ ∃ literals : Literals, literals.gathered = gathered := by
  constructor
  · rintro (kind | items | items | items | items | items | value | hgather)
    · exact ⟨.empty kind, rfl⟩
    · exact ⟨.int32 items, rfl⟩
    · exact ⟨.int64 items, rfl⟩
    · exact ⟨.string items, rfl⟩
    · exact ⟨.decimal items, rfl⟩
    · exact ⟨.bool items, rfl⟩
    · exact ⟨.single value, by cases value <;> rfl⟩
    · rw [gather_eq] at hgather
      obtain ⟨literals, -, hliterals⟩ := map_eq_ok_iff.mp hgather
      exact ⟨literals, hliterals⟩
  · rintro ⟨⟨kind, items⟩, rfl⟩
    cases kind with
    | int32 => exact .int32 items
    | int64 => exact .int64 items
    | string => exact .string items
    | decimal => exact .decimal items
    | bool => exact .bool items

theorem Built.kind_eq {gathered : Gathered} (hbuilt : gathered.Built) :
    ∀ value ∈ gathered.values, value.kind = gathered.kind := by
  obtain ⟨literals, rfl⟩ := built_iff.mp hbuilt
  intro value hvalue
  exact Literals.kind_of_mem hvalue

end Gathered

end RecordRules
