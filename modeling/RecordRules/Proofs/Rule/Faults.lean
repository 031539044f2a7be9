import RecordRules.Proofs.Rule.Document
import RecordRules.Proofs.Value.Coercion

/-!
# Faults of rule documents

What can be wrong with a document, listed without reading it: a document is visited node by node,
each one before the nodes inside it and the statements of a group from left to right, and every node
has its own list of checks. A check is listed with all the others, whether or not one before it
fails. Main statement: reading reports the first fault (`Document.failure?_ofJson`).
-/

namespace RecordRules

open Json

/-! ### Checks of properties -/

/-- The values that have a shape. -/
def Shape.fits : Shape → Json → Bool
  | .object, .object _ | .literals, .object _ => true
  | .string, .string _ => true
  | .statements, .array _ | .array, .array _ => true
  | _, _ => false

/-- A value stands for some literal of a kind. -/
def Kind.Accepts (kind : Kind) (element : Json) : Prop := ∃ item, kind.Denotes element item

theorem Kind.isSome_read?_iff {kind : Kind} {element : Json} :
    (kind.read? element).isSome = true ↔ kind.Accepts element := by
  simp only [Option.isSome_iff_exists, Kind.read?_eq_some_iff, Kind.Accepts]

instance (kind : Kind) (element : Json) : Decidable (kind.Accepts element) :=
  decidable_of_iff _ Kind.isSome_read?_iff

namespace Document

def missing (site : Site) (name : String) (members : Members) : List CompileError :=
  if (members.lookup name).isNone then [.missingProperty site name] else []

def misshapen (name : String) (expected : Shape) (members : Members) : List CompileError :=
  if (members.lookup name).any (!expected.fits ·) then [.invalidProperty name expected] else []

/-- A property that is called for has to be there, and in its shape. -/
def propertyFaults (site : Site) (name : String) (expected : Shape) (members : Members) :
    List CompileError :=
  missing site name members ++ misshapen name expected members

def operatorFaults (members : Members) : List CompileError :=
  match members.lookup "operator" with
  | some (.string name) =>
    if (Operator.ofName? name).isNone then [.unsupportedOperator name] else []
  | _ => []

def kindFaults (members : Members) : List CompileError :=
  match members.lookup "valueType" with
  | some (.string name) => if (Kind.ofName? name).isNone then [.unsupportedKind name] else []
  | _ => []

/-- The elements that stand for no literal, each with its place, which is counted from `first`. -/
def elementFaults (kind : Kind) (first : Nat) (elements : List Json) : List CompileError :=
  (elements.zipIdx first).flatMap fun (element, index) =>
    if kind.Accepts element then [] else [.unreadableLiteral index kind element.text]

def itemFaults (members : Members) : List CompileError :=
  match members.lookup "valueType", members.lookup "values" with
  | some (.string name), some (.array elements) =>
    (Kind.ofName? name).elim [] fun kind => elementFaults kind 0 elements
  | _, _ => []

def literalsFaults (members : Members) : List CompileError :=
  propertyFaults (.tagged .compare) "valueType" .string members ++
    propertyFaults .value "values" .array members ++ kindFaults members ++ itemFaults members

def comparisonFaults (members : Members) : List CompileError :=
  propertyFaults (.tagged .compare) "attribute" .string members ++
    propertyFaults (.tagged .compare) "operator" .string members ++ operatorFaults members ++
    propertyFaults (.tagged .compare) "value" .literals members ++
    match members.lookup "value" with
    | some (.object inner) => literalsFaults inner
    | _ => []

/-! ### Nodes -/

/-- The key of the tag. -/
def tagKey (members : Members) : String :=
  if (members.lookup "$type").isSome then "$type" else "type"

def tag? (members : Members) : Option Tag :=
  match members.lookup (tagKey members) with
  | some (.string name) => Tag.ofName? name
  | _ => none

def tagFaults (members : Members) : List CompileError :=
  match members.lookup (tagKey members) with
  | none => [.missingProperty .statement "$type"]
  | some (.string name) => if (Tag.ofName? name).isNone then [.unsupportedTag name] else []
  | some _ => [.invalidProperty (tagKey members) .string]

/-- What is wrong with a node whatever its level, not counting the nodes inside it. -/
def ownFaults : Json → List CompileError
  | .object members =>
    tagFaults members ++
      match tag? members with
      | some .all => propertyFaults (.tagged .all) "statements" .statements members
      | some .any => propertyFaults (.tagged .any) "statements" .statements members
      | some .not => missing (.tagged .not) "statement" members
      | some .compare => comparisonFaults members
      | none => []
  | _ => [.invalidProperty "statement" .object]

/-- The elements of an array that stands under a name. -/
def elementsOf (name : String) (members : Members) : List Json :=
  match members.lookup name with
  | some (.array elements) => elements
  | _ => []

/-- The nodes right inside a node. -/
def children : Json → List Json
  | .object members =>
    match tag? members with
    | some .all | some .any => elementsOf "statements" members
    | some .not => (members.lookup "statement").toList
    | _ => []
  | _ => []

theorem sizeOf_lt_of_lookup {members : Members} {name : String} {value : Json}
    (hvalue : members.lookup name = some value) : sizeOf value < sizeOf members := by
  obtain ⟨before, after, hmembers, -⟩ := List.lookup_eq_some_iff.mp hvalue
  have hmember := List.sizeOf_lt_of_mem (hmembers ▸ List.mem_append_right before List.mem_cons_self)
  rw [Prod.mk.sizeOf_spec] at hmember
  omega

theorem sizeOf_lt_of_mem_elementsOf {members : Members} {name : String} {child : Json}
    (hchild : child ∈ elementsOf name members) : sizeOf child < sizeOf members := by
  rw [elementsOf] at hchild
  split at hchild
  · rename_i elements helements
    have harray := sizeOf_lt_of_lookup helements
    have helement := List.sizeOf_lt_of_mem hchild
    rw [Json.array.sizeOf_spec] at harray
    omega
  · cases hchild

theorem sizeOf_lt_of_mem_children {document child : Json} (hchild : child ∈ children document) :
    sizeOf child < sizeOf document := by
  cases document with
  | object members =>
      rw [Json.object.sizeOf_spec, Nat.add_comm]
      apply Nat.lt_succ_of_lt
      rw [children] at hchild
      split at hchild
      · exact sizeOf_lt_of_mem_elementsOf hchild
      · exact sizeOf_lt_of_mem_elementsOf hchild
      · exact sizeOf_lt_of_lookup (Option.mem_toList.mp hchild)
      · cases hchild
  | _ => simp [children] at hchild

/-- The nodes of a document in the order of their visit, each with its level. -/
def nodes (level : Nat) (document : Json) : List (Nat × Json) :=
  (level, document) :: (children document).attach.flatMap fun child => nodes (level + 1) child.val
termination_by document
decreasing_by exact sizeOf_lt_of_mem_children child.property

theorem nodes_eq (level : Nat) (document : Json) :
    nodes level document =
      (level, document) :: (children document).flatMap (nodes (level + 1)) := by
  rw [nodes]
  simp

def nodeFaults (limit : Nat) : (node : Nat × Json) → List CompileError
  | (level, document) =>
    (if limit < level then [.tooDeep limit] else []) ++ ownFaults document

/-- What is wrong with a document, in the order of the visit. The document itself is at level
one. -/
def faults (limit : Nat) (document : Json) : List CompileError :=
  (nodes 1 document).flatMap (nodeFaults limit)

/-! ### The error that is reported -/

section Reported

variable {members : Members}

theorem failure?_property (site : Site) (name : String) (members : Members) :
    failure? (property site name members) = (missing site name members).head? := by
  rw [property, missing]
  cases members.lookup name <;> rfl

/-- A property that is read by its shape. -/
theorem failure?_shaped {α : Type} {expected : Shape} {read? : Json → Option α}
    (hread : ∀ value, (read? value).isSome = expected.fits value) (site : Site) (name : String)
    (members : Members) :
    failure? (property site name members >>= fun value => require name expected (read? value)) =
      (propertyFaults site name expected members).head? := by
  rw [propertyFaults, List.head?_append, ← failure?_property]
  apply failure?_bind
  intro value hvalue
  rw [misshapen, property_eq_ok_iff.mp hvalue, Option.any_some, ← hread]
  cases read? value <;> rfl

theorem failure?_stringProperty (site : Site) (name : String) (members : Members) :
    failure? (stringProperty site name members) =
      (propertyFaults site name .string members).head? :=
  failure?_shaped (fun value => by cases value <;> rfl) site name members

theorem failure?_statements (tag : Tag) (members : Members) :
    failure? (statements tag members) =
      (propertyFaults (.tagged tag) "statements" .statements members).head? :=
  failure?_shaped (fun value => by cases value <;> rfl) (.tagged tag) "statements" members

theorem failure?_operator (members : Members) :
    failure? (Document.operator members) =
      (propertyFaults (.tagged .compare) "operator" .string members ++
        operatorFaults members).head? := by
  rw [List.head?_append, ← failure?_stringProperty]
  apply failure?_bind
  intro name hname
  rw [operatorFaults, stringProperty_eq_ok_iff.mp hname]
  dsimp only
  cases Operator.ofName? name <;> rfl

theorem failure?_readFrom (kind : Kind) (first : Nat) (elements : List Json) :
    failure? (Literals.readFrom kind first elements) =
      (elementFaults kind first elements).head? := by
  induction elements generalizing first with
  | nil => rfl
  | cons element rest ih =>
      rw [Literals.readFrom, elementFaults, List.zipIdx_cons, List.flatMap_cons, ← elementFaults]
      simp only [← Kind.isSome_read?_iff]
      cases kind.read? element with
      | none => rfl
      | some item => exact (failure?_map (item :: ·) _).trans (ih (first + 1))

theorem failure?_ofJson_literals {name : String} {elements : List Json}
    (hname : members.lookup "valueType" = some (.string name))
    (helements : members.lookup "values" = some (.array elements)) :
    failure? (Literals.ofJson name elements) =
      (kindFaults members ++ itemFaults members).head? := by
  rw [Literals.ofJson, kindFaults, itemFaults, hname, helements]
  dsimp only
  cases Kind.ofName? name with
  | none => rfl
  | some kind => exact (failure?_map (Literals.mk kind) _).trans (failure?_readFrom kind 0 elements)

theorem failure?_literals (members : Members) :
    failure? (Document.literals members) =
      (propertyFaults (.tagged .compare) "value" .literals members ++
        match members.lookup "value" with
        | some (.object inner) => literalsFaults inner
        | _ => []).head? := by
  have hobject (value : Json) : value.object?.isSome = Shape.literals.fits value := by
    cases value <;> rfl
  have harray (value : Json) : value.array?.isSome = Shape.array.fits value := by
    cases value <;> rfl
  rw [Document.literals, ← bind_assoc, List.head?_append, ← failure?_shaped hobject]
  apply failure?_bind
  intro inner hinner
  simp only [bind_eq_ok_iff, property_eq_ok_iff, require_eq_ok_iff, object?_eq_some_iff,
    exists_eq_right] at hinner
  rw [hinner]
  dsimp only
  rw [literalsFaults, List.append_assoc, List.append_assoc, List.head?_append,
    ← failure?_stringProperty]
  apply failure?_bind
  intro name hname
  rw [← bind_assoc, List.head?_append, ← failure?_shaped harray]
  apply failure?_bind
  intro elements helements
  simp only [bind_eq_ok_iff, property_eq_ok_iff, require_eq_ok_iff, array?_eq_some_iff,
    exists_eq_right] at helements
  exact failure?_ofJson_literals (stringProperty_eq_ok_iff.mp hname) helements

theorem failure?_comparison (members : Members) :
    failure? (Document.comparison members) = (comparisonFaults members).head? := by
  rw [comparisonFaults, List.append_assoc, List.append_assoc, List.append_assoc, List.head?_append,
    ← failure?_stringProperty]
  apply failure?_bind
  intro path _
  rw [← List.append_assoc, List.head?_append, ← failure?_operator]
  apply failure?_bind
  intro operator _
  rw [← failure?_literals]
  exact failure?_map (Comparison.mk ⟨path⟩ operator) _

/-- The tag is read under its key. -/
theorem tagName_eq (members : Members) :
    tagName members =
      match members.lookup (tagKey members) with
      | some value => require (tagKey members) .string value.string?
      | none => .error (.missingProperty .statement "$type") := by
  rw [tagName, tagKey]
  cases hfirst : members.lookup "$type" with
  | some value => simp [hfirst]
  | none => cases hsecond : members.lookup "type" <;> simp [hsecond]

variable {child : Json → Except CompileError Rule}

theorem failure?_group (tag : Tag) (members : Members) :
    failure? (statements tag members >>= (·.mapM child)) =
      (propertyFaults (.tagged tag) "statements" .statements members).head?.or
        ((elementsOf "statements" members).findSome? fun element => failure? (child element)) := by
  rw [← failure?_statements]
  apply failure?_bind
  intro elements helements
  rw [failure?_mapM, elementsOf, statements_eq_ok_iff.mp helements]

theorem failure?_operand (members : Members) :
    failure? (property (.tagged .not) "statement" members >>= child) =
      (missing (.tagged .not) "statement" members).head?.or
        ((members.lookup "statement").toList.findSome? fun element =>
          failure? (child element)) := by
  rw [← failure?_property]
  apply failure?_bind
  intro statement hstatement
  rw [property_eq_ok_iff.mp hstatement]
  simp

/-- A node reports what is wrong with itself, or else what is wrong with the first child that cannot
be read. -/
theorem failure?_readNode (child : Json → Except CompileError Rule) (document : Json) :
    failure? (readNode child document) =
      (ownFaults document).head?.or
        ((children document).findSome? fun element => failure? (child element)) := by
  cases document with
  | object members =>
      rw [readNode_object, tagName_eq, ownFaults, children, tagFaults, tag?]
      cases htag : members.lookup (tagKey members) with
      | none => rfl
      | some value =>
          cases value with
          | string name =>
              dsimp only [string?, require]
              rw [ok_bind]
              cases Tag.ofName? name with
              | none => rfl
              | some tag =>
                  cases tag with
                  | all => exact (failure?_map _ _).trans (failure?_group .all members)
                  | any => exact (failure?_map _ _).trans (failure?_group .any members)
                  | not => exact (failure?_map _ _).trans (failure?_operand members)
                  | compare =>
                      simpa using failure?_comparison members
          | _ => rfl
  | _ => rfl

end Reported

/-- Reading reports the first fault from the node on that it begins with, `depth` being what the
limit leaves at its level. -/
theorem failure?_read {limit level depth : Nat} (hlevel : level + depth = limit + 1)
    (document : Json) :
    failure? (Document.read limit depth document) =
      ((nodes level document).flatMap (nodeFaults limit)).head? := by
  induction depth generalizing level document with
  | zero =>
      have hdeep : limit < level := by omega
      rw [nodes_eq, List.flatMap_cons, nodeFaults, if_pos hdeep]
      rfl
  | succ depth ih =>
      have hshallow : ¬limit < level := by omega
      have hinner : level + 1 + depth = limit + 1 := by omega
      rw [read_succ_eq_readNode, failure?_readNode, nodes_eq, List.flatMap_cons, nodeFaults,
        if_neg hshallow, List.nil_append, List.head?_append, List.flatMap_assoc,
        List.head?_flatMap]
      exact congrArg _ (congrArg (List.findSome? · _) (funext (ih hinner)))

theorem failure?_ofJson (document : Json) (limit : Nat) :
    failure? (Rule.ofJson document limit) = (faults limit document).head? :=
  failure?_read (Nat.add_comm 1 limit) document

end Document

end RecordRules
