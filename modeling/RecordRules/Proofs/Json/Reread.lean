import RecordRules.Proofs.Induction
import RecordRules.Proofs.Json.Ordered

/-!
# What the text of a value is read as

The text of a value is read as that value again, with two exceptions. A container is refused once
too many others are open around it, and an object whose first key is `numeralKey` is taken for a
tagged numeral. `reread` says so by recursion on the value, without its text; main statement:
`isOk_reread`.
-/

namespace RecordRules.Json

/-! ### Values -/

mutual

/-- The number of containers on the longest way to the innermost value. -/
def nesting : Json → Nat
  | .array elements => 1 + elementsNesting elements
  | .object members => 1 + membersNesting members
  | _ => 0

def elementsNesting : List Json → Nat
  | [] => 0
  | element :: rest => max element.nesting (elementsNesting rest)

def membersNesting : List (String × Json) → Nat
  | [] => 0
  | (_, value) :: rest => max value.nesting (membersNesting rest)

end

theorem elementsNesting_le_iff {elements : List Json} {room : Nat} :
    elementsNesting elements ≤ room ↔ ∀ element ∈ elements, element.nesting ≤ room := by
  induction elements with
  | nil => simp [elementsNesting]
  | cons element rest ih => rw [elementsNesting, Nat.max_le, ih, List.forall_mem_cons]

theorem membersNesting_le_iff {members : Members} {room : Nat} :
    membersNesting members ≤ room ↔ ∀ member ∈ members, member.2.nesting ≤ room := by
  induction members with
  | nil => simp [membersNesting]
  | cons member rest ih => rw [membersNesting, Nat.max_le, ih, List.forall_mem_cons]

/-- What an object is read as whose first key tags a numeral. -/
def taggedObject? : Members → Option (Except ReadError Json)
  | [] => none
  | (key, value) :: rest =>
    if key = numeralKey then
      some (do
        let number ← taggedNumber value
        if rest.isEmpty then .ok number else .error .malformed)
    else none

mutual

/-- Every object whose first key tags a numeral is one. -/
def tagsSpelled : Json → Bool
  | .array elements => elementsSpelled elements
  | .object members =>
    match taggedObject? members with
    | some outcome => outcome.isOk
    | none => membersSpelled members
  | _ => true

def elementsSpelled : List Json → Bool
  | [] => true
  | element :: rest => element.tagsSpelled && elementsSpelled rest

def membersSpelled : List (String × Json) → Bool
  | [] => true
  | (_, value) :: rest => value.tagsSpelled && membersSpelled rest

end

@[simp]
theorem elementsSpelled_eq (elements : List Json) :
    elementsSpelled elements = elements.all tagsSpelled := by
  induction elements with
  | nil => rfl
  | cons element rest ih => simp [elementsSpelled, ih]

@[simp]
theorem membersSpelled_eq (members : Members) :
    membersSpelled members = members.all fun member => member.2.tagsSpelled := by
  induction members with
  | nil => rfl
  | cons member rest ih => simp [membersSpelled, ih]

/-! ### Reading -/

mutual

/-- What the text of a value is read as where `room` more containers can be opened. -/
def reread : (room : Nat) → Json → Except ReadError Json
  | 0, .array _ => .error .malformed
  | 0, .object _ => .error .malformed
  | room + 1, .array elements => .array <$> rereadElements room elements
  | room + 1, .object members =>
    match taggedObject? members with
    | some outcome => outcome
    | none => .object <$> rereadMembers room members
  | _, value => .ok value

def rereadElements (room : Nat) : List Json → Except ReadError (List Json)
  | [] => .ok []
  | element :: rest => do
    let read ← reread room element
    return read :: (← rereadElements room rest)

def rereadMembers (room : Nat) : List (String × Json) → Except ReadError Members
  | [] => .ok []
  | (key, value) :: rest => do
    let read ← reread room value
    return (key, read) :: (← rereadMembers room rest)

end

@[simp]
theorem rereadElements_eq (room : Nat) (elements : List Json) :
    rereadElements room elements = elements.mapM (reread room) := by
  induction elements with
  | nil => rfl
  | cons element rest ih => rw [rereadElements, ih, List.mapM_cons]

@[simp]
theorem rereadMembers_eq (room : Nat) (members : Members) :
    rereadMembers room members =
      members.mapM fun member => (member.1, ·) <$> member.2.reread room := by
  induction members with
  | nil => rfl
  | cons member rest ih =>
      obtain ⟨key, value⟩ := member
      rw [rereadMembers, ih, List.mapM_cons]
      cases value.reread room <;> rfl

theorem isOrdered_scalar {value : Json} (hscalar : value.nesting = 0) :
    value.isOrdered = true := by
  cases value with
  | array elements => simp [nesting] at hscalar
  | object members => simp [nesting] at hscalar
  | _ => rfl

theorem tagsSpelled_scalar {value : Json} (hscalar : value.nesting = 0) :
    value.tagsSpelled = true := by
  cases value with
  | array elements => simp [nesting] at hscalar
  | object members => simp [nesting] at hscalar
  | _ => rfl

theorem reread_scalar {value : Json} (hscalar : value.nesting = 0) (room : Nat) :
    value.reread room = .ok value := by
  cases value with
  | array elements => simp [nesting] at hscalar
  | object members => simp [nesting] at hscalar
  | _ => cases room <;> rfl

theorem reread_object {members : Members} (huntagged : taggedObject? members = none) (room : Nat) :
    reread (room + 1) (.object members) =
      .object <$> members.mapM fun member => (member.1, ·) <$> member.2.reread room := by
  rw [reread, huntagged, ← rereadMembers_eq]

theorem reread_tagged {members : Members} {outcome : Except ReadError Json}
    (htagged : taggedObject? members = some outcome) (room : Nat) :
    reread (room + 1) (.object members) = outcome := by
  rw [reread, htagged]

/-- A tagged numeral is an object of one string. -/
theorem members_of_tagged {members : Members} {read : Json}
    (htagged : taggedObject? members = some (.ok read)) :
    ∃ text, members = [(numeralKey, .string text)] := by
  cases members with
  | nil => cases htagged
  | cons member rest =>
      obtain ⟨key, value⟩ := member
      rw [taggedObject?, Option.ite_none_right_eq_some] at htagged
      obtain ⟨rfl, hok⟩ := htagged
      obtain ⟨number, hnumber, hrest⟩ := bind_eq_ok_iff.mp (Option.some.inj hok)
      obtain ⟨text, _, rfl, _⟩ := taggedNumber_eq_ok hnumber
      cases rest with
      | nil => exact ⟨text, rfl⟩
      | cons next others => cases hrest

/-- **What is read.** The text of a value is read to its end exactly if there is room for its
containers and every tag is followed by the text of a numeral. -/
theorem isOk_reread_iff (value : Json) (room : Nat) :
    (value.reread room).isOk = true ↔ value.nesting ≤ room ∧ value.tagsSpelled = true := by
  induction value generalizing room with
  | null | bool | number | string =>
      cases room <;> simp [reread, nesting, tagsSpelled, Except.isOk, Except.toBool]
  | array elements ih =>
      cases room with
      | zero => simp [reread, nesting, Except.isOk, Except.toBool]
      | succ room =>
          have hnesting : (array elements).nesting ≤ room + 1 ↔
              ∀ element ∈ elements, element.nesting ≤ room := by
            rw [nesting, Nat.add_comm 1, Nat.add_le_add_iff_right, elementsNesting_le_iff]
          rw [hnesting, tagsSpelled, elementsSpelled_eq, List.all_eq_true, reread, isOk_map,
            rereadElements_eq, isOk_mapM, List.all_eq_true, ← forall₂_and]
          apply forall₂_congr
          intro element helement
          exact ih element helement room
  | object members ih =>
      cases room with
      | zero => simp [reread, nesting, Except.isOk, Except.toBool]
      | succ room =>
          have hnesting : (object members).nesting ≤ room + 1 ↔
              ∀ member ∈ members, member.2.nesting ≤ room := by
            rw [nesting, Nat.add_comm 1, Nat.add_le_add_iff_right, membersNesting_le_iff]
          cases htagged : taggedObject? members with
          | none =>
              rw [hnesting, tagsSpelled, htagged, membersSpelled_eq, List.all_eq_true,
                reread_object htagged, isOk_map, isOk_mapM, List.all_eq_true, ← forall₂_and]
              simp only [isOk_map]
              apply forall₂_congr
              intro member hmember
              exact ih member hmember room
          | some outcome =>
              rw [reread_tagged htagged, hnesting, tagsSpelled, htagged]
              constructor
              · intro hok
                refine ⟨?_, hok⟩
                -- A string is all that is nested in a tagged numeral.
                obtain ⟨read, rfl⟩ := isOk_iff.mp hok
                obtain ⟨text, rfl⟩ := members_of_tagged htagged
                intro member hmember
                rw [List.mem_singleton.mp hmember]
                exact Nat.zero_le room
              · intro hok
                exact hok.2

/-- The text of the value can be read, and nothing in the value is taken for a number that is not
one. -/
def Readable (value : Json) : Prop :=
  value.nesting ≤ depthLimit ∧ value.tagsSpelled = true

instance (value : Json) : Decidable value.Readable :=
  inferInstanceAs (Decidable (value.nesting ≤ depthLimit ∧ value.tagsSpelled = true))

/-! ### One value read from another -/

/-- The second value is read from the text of the first one. -/
def Rereads (value read : Json) : Prop := ∃ room, value.reread room = .ok read

theorem eq_of_rereads {value read : Json} (hscalar : value.nesting = 0)
    (hread : Rereads value read) : read = value := by
  obtain ⟨room, hroom⟩ := hread
  rw [reread_scalar hscalar] at hroom
  exact (Except.ok.inj hroom).symm

theorem array_of_rereads {elements : List Json} {read : Json}
    (hread : Rereads (.array elements) read) :
    ∃ results, read = .array results ∧ List.Forall₂ Rereads elements results := by
  obtain ⟨room, hroom⟩ := hread
  cases room with
  | zero => cases hroom
  | succ room =>
      rw [reread, rereadElements_eq] at hroom
      obtain ⟨results, hresults, rfl⟩ := map_eq_ok_iff.mp hroom
      refine ⟨results, rfl, ?_⟩
      apply (mapM_eq_ok_iff.mp hresults).imp
      intro element result hresult
      exact ⟨room, hresult⟩

/-- Members of one key whose values are read from one another. -/
def MemberRereads (member result : String × Json) : Prop :=
  member.1 = result.1 ∧ Rereads member.2 result.2

theorem lookup_rel {members results : Members}
    (hpairs : List.Forall₂ MemberRereads members results) (name : String) :
    Option.Rel Rereads (members.lookup name) (results.lookup name) := by
  induction hpairs with
  | nil => exact .none
  | @cons member result _ _ hpair _ ih =>
      obtain ⟨key, value⟩ := member
      obtain ⟨other, read⟩ := result
      obtain ⟨rfl, hread⟩ : key = other ∧ Rereads value read := hpair
      rw [List.lookup_cons, List.lookup_cons]
      split
      · exact .some hread
      · exact ih

/-- An object with a key of its own is no tagged numeral, so its members are read one by one. -/
theorem object_of_rereads {members : Members} {read : Json} (hread : Rereads (.object members) read)
    {name : String} {value : Json} (hname : name ≠ numeralKey)
    (hlookup : members.lookup name = some value) :
    ∃ results, read = .object results ∧ List.Forall₂ MemberRereads members results := by
  obtain ⟨room, hroom⟩ := hread
  cases room with
  | zero => cases hroom
  | succ room =>
      cases htagged : taggedObject? members with
      | some outcome =>
          rw [reread_tagged htagged] at hroom
          rw [hroom] at htagged
          obtain ⟨text, rfl⟩ := members_of_tagged htagged
          rw [List.lookup_cons, beq_false_of_ne hname] at hlookup
          cases hlookup
      | none =>
          rw [reread_object htagged] at hroom
          obtain ⟨results, hresults, rfl⟩ := map_eq_ok_iff.mp hroom
          refine ⟨results, rfl, ?_⟩
          apply (mapM_eq_ok_iff.mp hresults).imp
          intro member result hresult
          obtain ⟨read, hread, rfl⟩ := map_eq_ok_iff.mp hresult
          exact ⟨rfl, room, hread⟩

end RecordRules.Json
