import RecordRules.Proofs.Schema.Route
import Mathlib.Data.List.Forall2
import Mathlib.Data.Option.Defs

/-!
# Schemas that take the place of others

A schema grows at the end of its record types, or it loses fields that no path reaches. Its records
change with it, and what the old and the new ones have to do with each other is a likeness: the
fields that both have read the same values, or lead to records that are alike again. The first field
of a name counts and no segment has a point in it, so a lookup along a path is never diverted by
what has changed. Main statement: a path that resolves goes on to do so, and reads the same
(`Likeness.resolve_of_revises`).
-/

namespace RecordRules

/-! ### Segments -/

namespace Path

theorem point_notMem_of_mem_splitAtPoints {chars segment : List Char}
    (hsegment : segment ∈ splitAtPoints chars) : '.' ∉ segment := by
  induction chars generalizing segment with
  | nil =>
      rw [splitAtPoints, List.mem_singleton] at hsegment
      exact hsegment ▸ List.not_mem_nil
  | cons char rest ih =>
      rw [splitAtPoints] at hsegment
      split at hsegment
      · rcases List.mem_cons.mp hsegment with rfl | hrest
        · exact List.not_mem_nil
        · exact ih hrest
      · rename_i hchar
        cases hsplit : splitAtPoints rest with
        | nil => exact absurd hsplit (splitAtPoints_ne_nil rest)
        | cons first others =>
            rw [hsplit] at ih hsegment
            rcases List.mem_cons.mp hsegment with rfl | hother
            · rw [List.mem_cons, not_or]
              exact ⟨Ne.symm hchar, ih List.mem_cons_self⟩
            · exact ih (List.mem_cons_of_mem first hother)

/-- Splitting a path leaves no point in its segments. -/
theorem point_notMem_of_mem_segments {path : Path} {segment : String}
    (hsegment : segment ∈ path.segments) : '.' ∉ segment.toList := by
  obtain ⟨chars, hchars, rfl⟩ := List.mem_map.mp hsegment
  rw [String.toList_ofList]
  exact point_notMem_of_mem_splitAtPoints hchars

end Path

variable {Index Other : Type} {Carrier : Index → Type} {Target : Other → Type}

/-! ### Likenesses -/

/-- A record type for each one that it takes the place of, and which of its records are like which
of the old ones. -/
structure Likeness (Carrier : Index → Type) (Target : Other → Type) where
  type : Index → Other
  Alike : (index : Index) → Carrier index → Target (type index) → Prop

namespace Likeness

variable (likeness : Likeness Carrier Target)

/-- Two slots that read the same from records that are alike, or lead to records that are alike. -/
inductive SlotAlike {index : Index} :
    Slot Carrier index → Slot Target (likeness.type index) → Prop where
  | value {kind : Kind} {read : Carrier index → Option Value}
      {readOther : Target (likeness.type index) → Option Value}
      (hread : ∀ record other, likeness.Alike index record other →
        readOther other = read record) :
      SlotAlike (.value kind read) (.value kind readOther)
  | nested {target : Index} {get : Carrier index → Option (Carrier target)}
      {getOther : Target (likeness.type index) → Option (Target (likeness.type target))}
      (hget : ∀ record other, likeness.Alike index record other →
        Option.Rel (likeness.Alike target) (get record) (getOther other)) :
      SlotAlike (.nested target get) (.nested (likeness.type target) getOther)

structure FieldAlike {index : Index} (field : Field Carrier index)
    (other : Field Target (likeness.type index)) : Prop where
  name_eq : other.name = field.name
  slots : likeness.SlotAlike field.slot other.slot

/-- Some fields are dropped from a list. None of them is ever found by a segment: its name has a
point in it, or an earlier field has that name. -/
inductive Pruned {index : Index} : (earlier : List String) → List (Field Carrier index) →
    List (Field Target (likeness.type index)) → Prop where
  | nil {earlier : List String} : Pruned earlier [] []
  | keep {earlier : List String} {field : Field Carrier index} {fields : List (Field Carrier index)}
      {other : Field Target (likeness.type index)}
      {others : List (Field Target (likeness.type index))}
      (hfield : likeness.FieldAlike field other)
      (hrest : Pruned (field.name :: earlier) fields others) :
      Pruned earlier (field :: fields) (other :: others)
  | drop {earlier : List String} {field : Field Carrier index} {fields : List (Field Carrier index)}
      {others : List (Field Target (likeness.type index))}
      (hname : '.' ∈ field.name.toList ∨ field.name ∈ earlier)
      (hrest : Pruned (field.name :: earlier) fields others) :
      Pruned earlier (field :: fields) others

/-- Every record type may lose fields that no segment finds, and gain others at its end. -/
def Revises (schema : Schema Carrier) (other : Schema Target) : Prop :=
  ∀ index, ∃ kept appended, (other (likeness.type index)).fields = kept ++ appended ∧
    likeness.Pruned [] (schema index).fields kept

structure AccessorAlike {index : Index} (accessor : Accessor (Carrier index))
    (other : Accessor (Target (likeness.type index))) : Prop where
  kind_eq : other.kind = accessor.kind
  read_eq : ∀ record recordOther, likeness.Alike index record recordOther →
    other.read recordOther = accessor.read record

variable {likeness}

/-! ### Lookups -/

theorem Pruned.of_forall₂ {index : Index} {fields : List (Field Carrier index)}
    {others : List (Field Target (likeness.type index))}
    (hfields : List.Forall₂ likeness.FieldAlike fields others) (earlier : List String) :
    likeness.Pruned earlier fields others := by
  induction hfields generalizing earlier with
  | nil => exact .nil
  | cons hfield _ ih => exact .keep hfield (ih _)

theorem Pruned.exists_find? {index : Index} {earlier : List String}
    {fields : List (Field Carrier index)} {others : List (Field Target (likeness.type index))}
    (hpruned : likeness.Pruned earlier fields others) {name : String} (hpoint : '.' ∉ name.toList)
    (hearlier : name ∉ earlier) {field : Field Carrier index}
    (hfound : fields.find? (fun field => field.name = name) = some field) :
    ∃ other, others.find? (fun other => other.name = name) = some other ∧
      likeness.FieldAlike field other := by
  -- A dropped field bears another name: this one has no point, and it has not come up before.
  induction hpruned with
  | nil => cases hfound
  | @keep earlier first fields other others hfirst hrest ih =>
      by_cases hname : first.name = name
      · rw [List.find?_cons_of_pos (by simpa using hname)] at hfound
        cases hfound
        exact ⟨other, List.find?_cons_of_pos (by simpa [hfirst.name_eq] using hname), hfirst⟩
      · rw [List.find?_cons_of_neg (by simpa using hname)] at hfound
        have hlater : name ∉ first.name :: earlier :=
          List.not_mem_cons_of_ne_of_not_mem (Ne.symm hname) hearlier
        rw [List.find?_cons_of_neg (by simpa [hfirst.name_eq] using hname)]
        exact ih hlater hfound
  | @drop earlier first fields others hdropped hrest ih =>
      have hname : first.name ≠ name := by
        rintro rfl
        exact hdropped.elim hpoint hearlier
      rw [List.find?_cons_of_neg (by simpa using hname)] at hfound
      exact ih (List.not_mem_cons_of_ne_of_not_mem (Ne.symm hname) hearlier) hfound

variable {schema : Schema Carrier} {other : Schema Target}

theorem find?_of_revises (hrevises : likeness.Revises schema other) {index : Index} {name : String}
    (hpoint : '.' ∉ name.toList) {slot : Slot Carrier index}
    (hfound : (schema index).find? name = some slot) :
    ∃ slotOther, (other (likeness.type index)).find? name = some slotOther ∧
      likeness.SlotAlike slot slotOther := by
  obtain ⟨kept, appended, hfields, hpruned⟩ := hrevises index
  obtain ⟨field, hfield, rfl⟩ := Option.map_eq_some_iff.mp hfound
  obtain ⟨fieldOther, hother, halike⟩ :=
    hpruned.exists_find? hpoint List.not_mem_nil hfield
  refine ⟨fieldOther.slot, ?_, halike.slots⟩
  rw [RecordType.find?, hfields, List.find?_append, hother]
  rfl

/-! ### Paths -/

theorem AccessorAlike.through {index target : Index} {inner : Accessor (Carrier target)}
    {innerOther : Accessor (Target (likeness.type target))}
    (halike : likeness.AccessorAlike inner innerOther)
    {get : Carrier index → Option (Carrier target)}
    {getOther : Target (likeness.type index) → Option (Target (likeness.type target))}
    (hget : ∀ record other, likeness.Alike index record other →
      Option.Rel (likeness.Alike target) (get record) (getOther other)) :
    likeness.AccessorAlike (inner.through get) (innerOther.through getOther) := by
  constructor
  · exact halike.kind_eq
  · intro record recordOther hrecord
    have hparts := hget record recordOther hrecord
    rw [Accessor.through, Accessor.through]
    dsimp only
    generalize get record = part, getOther recordOther = partOther at hparts ⊢
    cases hparts with
    | some hpart => exact halike.read_eq _ _ hpart
    | none => rfl

theorem resolveFrom_of_revises (hrevises : likeness.Revises schema other) {path : Path}
    {segments : List String} {index : Index} {accessor : Accessor (Carrier index)}
    (hpoints : ∀ segment ∈ segments, '.' ∉ segment.toList)
    (hresolve : schema.resolveFrom path index segments = .ok accessor) :
    ∃ accessorOther, other.resolveFrom path (likeness.type index) segments = .ok accessorOther ∧
      likeness.AccessorAlike accessor accessorOther := by
  induction segments generalizing index with
  | nil => simp at hresolve
  | cons segment rest ih =>
      obtain ⟨hsegment, hrest⟩ := List.forall_mem_cons.mp hpoints
      obtain ⟨name, kind, read, hsegments, hfound, rfl⟩ |
        ⟨name, next, others, target, get, inner, hsegments, hfound, hinner, rfl⟩ :=
        Schema.resolveFrom_ok_cases hresolve
      · obtain ⟨rfl, rfl⟩ := List.cons.inj hsegments
        obtain ⟨slotOther, hfoundOther, hslots⟩ := find?_of_revises hrevises hsegment hfound
        cases hslots with
        | value hread => exact ⟨_, Schema.resolveFrom_value hfoundOther, rfl, hread⟩
      · obtain ⟨rfl, rfl⟩ := List.cons.inj hsegments
        obtain ⟨slotOther, hfoundOther, hslots⟩ := find?_of_revises hrevises hsegment hfound
        obtain ⟨innerOther, hinnerOther, halike⟩ := ih hrest hinner
        cases hslots with
        | nested hget =>
            rw [Schema.resolveFrom_nested hfoundOther, hinnerOther]
            exact ⟨_, rfl, halike.through hget⟩

/-- A path that resolves goes on to do so, to the same kind, and reads the same from records that
are alike. -/
theorem resolve_of_revises (hrevises : likeness.Revises schema other) {root : Index} {path : Path}
    {accessor : Accessor (Carrier root)} (hresolve : schema.resolve root path = .ok accessor) :
    ∃ accessorOther, other.resolve (likeness.type root) path = .ok accessorOther ∧
      likeness.AccessorAlike accessor accessorOther :=
  resolveFrom_of_revises hrevises (fun _ => Path.point_notMem_of_mem_segments) hresolve

/-! ### Projections -/

/-- New records are like the old ones that they are projected to. -/
def ofProjection (type : Index → Other) (project : (index : Index) → Target (type index) →
    Carrier index) : Likeness Carrier Target :=
  ⟨type, fun index record other => project index other = record⟩

/-- Old records are like the new ones that they are projected to. -/
def ofReduction {Target : Index → Type} (project : (index : Index) → Carrier index →
    Target index) : Likeness Carrier Target :=
  ⟨fun index => index, fun index record other => project index record = other⟩

/-- What a reduction keeps is where an extension begins. -/
theorem FieldAlike.converse {Target : Index → Type}
    {project : (index : Index) → Carrier index → Target index} {index : Index}
    {field : Field Carrier index} {other : Field Target index}
    (halike : (ofReduction project).FieldAlike field other) :
    (ofProjection (fun index => index) project).FieldAlike other field := by
  obtain ⟨name, slot⟩ := field
  obtain ⟨nameOther, slotOther⟩ := other
  obtain ⟨hname, hslots⟩ := halike
  refine ⟨hname.symm, ?_⟩
  cases hslots with
  | value hread => exact .value fun record other hrecord => (hread other record hrecord).symm
  | @nested target get getOther hget =>
      refine .nested fun record other hrecord => ?_
      have hparts := hget other record hrecord
      generalize get other = part, getOther record = partOther at hparts ⊢
      cases hparts with
      | some hpart => exact .some hpart
      | none => exact .none

end Likeness

namespace Schema

/-- Record types of `wide` that begin with the fields of those of `schema`; whatever fields come
after them are lost by the projection, in a record and in the records that it leads to. -/
structure Extension (schema : Schema Carrier) (wide : Schema Target) where
  type : Index → Other
  project : (index : Index) → Target (type index) → Carrier index
  fields : ∀ index, ∃ kept appended, (wide (type index)).fields = kept ++ appended ∧
    List.Forall₂ (Likeness.ofProjection type project).FieldAlike (schema index).fields kept

/-- Record types of `narrow` that lack some fields of those of `schema`, each of them with a point
in its name or with the name of an earlier field; these fields are lost by the projection. -/
structure Reduction {Target : Index → Type} (schema : Schema Carrier) (narrow : Schema Target) where
  project : (index : Index) → Carrier index → Target index
  fields : ∀ index, (Likeness.ofReduction project).Pruned [] (schema index).fields
    (narrow index).fields

namespace Extension

variable {schema : Schema Carrier} {wide : Schema Target}

def likeness (extension : schema.Extension wide) : Likeness Carrier Target :=
  .ofProjection extension.type extension.project

theorem revises (extension : schema.Extension wide) :
    extension.likeness.Revises schema wide := by
  intro index
  obtain ⟨kept, appended, hfields, hkept⟩ := extension.fields index
  exact ⟨kept, appended, hfields, .of_forall₂ hkept []⟩

end Extension

namespace Reduction

variable {Target : Index → Type} {schema : Schema Carrier} {narrow : Schema Target}

def likeness (reduction : schema.Reduction narrow) : Likeness Carrier Target :=
  .ofReduction reduction.project

theorem revises (reduction : schema.Reduction narrow) :
    reduction.likeness.Revises schema narrow :=
  fun index => ⟨(narrow index).fields, [], (List.append_nil _).symm, reduction.fields index⟩

end Reduction

end Schema

end RecordRules
