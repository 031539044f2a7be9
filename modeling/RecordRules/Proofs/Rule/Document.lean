import RecordRules.Proofs.Except
import RecordRules.Proofs.Text.Name
import RecordRules.Rule.Document

/-!
# What a document says

Each part of a rule document is read with success in one way only, and the statements here say in
which: what stands under a name, and what the parts of a node are.
-/

namespace RecordRules

namespace Json

theorem string?_eq_some_iff {value : Json} {text : String} :
    value.string? = some text ↔ value = .string text := by
  cases value <;> simp [string?]

theorem array?_eq_some_iff {value : Json} {elements : List Json} :
    value.array? = some elements ↔ value = .array elements := by
  cases value <;> simp [array?]

theorem object?_eq_some_iff {value : Json} {members : Members} :
    value.object? = some members ↔ value = .object members := by
  cases value <;> simp [object?]

end Json

open Json

namespace Document

variable {members : Members}

theorem property_eq_ok_iff {site : Site} {name : String} {members : Members} {value : Json} :
    property site name members = .ok value ↔ members.lookup name = some value := by
  rw [property]
  cases members.lookup name <;> simp

theorem require_eq_ok_iff {α : Type} {name : String} {expected : Shape} {found : Option α}
    {value : α} : require name expected found = .ok value ↔ found = some value := by
  cases found <;> simp [require]

variable {members results : Members}

theorem stringProperty_eq_ok_iff {site : Site} {name text : String} :
    stringProperty site name members = .ok text ↔ members.lookup name = some (.string text) := by
  simp only [stringProperty, bind_eq_ok_iff, property_eq_ok_iff, require_eq_ok_iff,
    string?_eq_some_iff, exists_eq_right]

theorem tagName_eq_ok_iff {name : String} :
    tagName members = .ok name ↔
      members.lookup "$type" = some (.string name) ∨
        members.lookup "$type" = none ∧ members.lookup "type" = some (.string name) := by
  rw [tagName]
  cases members.lookup "$type" with
  | some value => simp [require_eq_ok_iff, string?_eq_some_iff]
  | none =>
      cases members.lookup "type" with
      | some value => simp [require_eq_ok_iff, string?_eq_some_iff]
      | none => simp

/-- What an object is tagged as: under `$type` in any case of the letters, or under `type` where
there is no `$type`. -/
def IsTagged (members : Members) (tag : Tag) : Prop :=
  ∃ name, name.toLower = tag.name ∧
    (members.lookup "$type" = some (.string name) ∨
      members.lookup "$type" = none ∧ members.lookup "type" = some (.string name))

theorem isTagged_iff {tag : Tag} :
    IsTagged members tag ↔ ∃ name, tagName members = .ok name ∧ Tag.ofName? name = some tag := by
  simp only [IsTagged, tagName_eq_ok_iff, Tag.ofName?_eq_some_iff, Text.sameName_iff,
    tag.toLower_name]
  constructor
  · rintro ⟨name, htag, hname⟩
    exact ⟨name, hname, htag.symm⟩
  · rintro ⟨name, hname, htag⟩
    exact ⟨name, htag.symm, hname⟩

theorem statements_eq_ok_iff {tag : Tag} {elements : List Json} :
    statements tag members = .ok elements ↔
      members.lookup "statements" = some (.array elements) := by
  simp only [statements, bind_eq_ok_iff, property_eq_ok_iff, require_eq_ok_iff,
    array?_eq_some_iff, exists_eq_right]

theorem literals_eq_ok_iff {literals : Literals} :
    Document.literals members = .ok literals ↔
      ∃ inner kindName elements, members.lookup "value" = some (.object inner) ∧
        inner.lookup "valueType" = some (.string kindName) ∧
        inner.lookup "values" = some (.array elements) ∧
        Literals.ofJson kindName elements = .ok literals := by
  simp only [Document.literals, bind_eq_ok_iff, property_eq_ok_iff, require_eq_ok_iff,
    object?_eq_some_iff, array?_eq_some_iff, stringProperty_eq_ok_iff]
  constructor
  · rintro ⟨_, hvalue, inner, rfl, kindName, hkind, _, hvalues, elements, rfl, hliterals⟩
    exact ⟨inner, kindName, elements, hvalue, hkind, hvalues, hliterals⟩
  · rintro ⟨inner, kindName, elements, hvalue, hkind, hvalues, hliterals⟩
    exact ⟨_, hvalue, inner, rfl, kindName, hkind, _, hvalues, elements, rfl, hliterals⟩

/-! ### Nodes -/

/-- The rule of one node, whose children are left to `child`. -/
def readNode (child : Json → Except CompileError Rule) (document : Json) :
    Except CompileError Rule := do
  let members ← require "statement" .object document.object?
  let name ← tagName members
  match Tag.ofName? name with
  | some .all => return .all (← (← statements .all members).mapM child)
  | some .any => return .any (← (← statements .any members).mapM child)
  | some .not => return .not (← child (← property (.tagged .not) "statement" members))
  | some .compare => return .compare (← comparison members)
  | none => .error (.unsupportedTag name)

theorem read_succ_eq_readNode (limit depth : Nat) :
    Document.read limit (depth + 1) = readNode (Document.read limit depth) := rfl

theorem readNode_object (child : Json → Except CompileError Rule) (members : Members) :
    readNode child (.object members) =
      tagName members >>= fun name =>
        match Tag.ofName? name with
        | some .all => .all <$> (statements .all members >>= (·.mapM child))
        | some .any => .any <$> (statements .any members >>= (·.mapM child))
        | some .not => .not <$> (property (.tagged .not) "statement" members >>= child)
        | some .compare => .compare <$> comparison members
        | none => .error (.unsupportedTag name) := by
  rw [readNode]
  refine congrArg (tagName members >>= ·) (funext fun name => ?_)
  cases Tag.ofName? name with
  | none => rfl
  | some tag => cases tag <;> simp only [bind_pure_comp, map_bind]

theorem read_succ (limit depth : Nat) (members : Members) :
    Document.read limit (depth + 1) (.object members) =
      tagName members >>= fun name =>
        match Tag.ofName? name with
        | some .all => .all <$> (statements .all members >>= (·.mapM (read limit depth)))
        | some .any => .any <$> (statements .any members >>= (·.mapM (read limit depth)))
        | some .not => .not <$> (property (.tagged .not) "statement" members >>= read limit depth)
        | some .compare => .compare <$> comparison members
        | none => .error (.unsupportedTag name) :=
  readNode_object (Document.read limit depth) members

end Document

end RecordRules
