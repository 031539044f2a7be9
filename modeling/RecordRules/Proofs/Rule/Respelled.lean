import RecordRules.Proofs.Rule.Alike

/-!
# Names in other spellings

The case of the letters makes no difference to a tag, to an operator or to a kind, wherever one is
looked for. Only an error that repeats a name shows how it was spelled. Main statement:
`Document.read_of_respelled`.
-/

namespace RecordRules

open Json

/-- An error without the spelling of the name that it repeats. -/
def CompileError.inSmallLetters : CompileError → CompileError
  | .unsupportedTag tag => .unsupportedTag tag.toLower
  | .unsupportedOperator name => .unsupportedOperator name.toLower
  | .unsupportedKind name => .unsupportedKind name.toLower
  | error => error

namespace Document

/-- What comes of a reader, up to the spelling of names in errors. -/
def unspelled {α : Type} (outcome : Except CompileError α) : Except CompileError α :=
  outcome.mapError CompileError.inSmallLetters

/-- The same value, or one name in two spellings. -/
inductive NamesAlike : Json → Json → Prop where
  | refl (value : Json) : NamesAlike value value
  | string {name other : String} (hsame : Text.SameName name other) :
      NamesAlike (.string name) (.string other)

inductive LiteralsRespelled : Json → Json → Prop where
  | refl (value : Json) : LiteralsRespelled value value
  | object {members others : Members}
      (hkind : Option.Rel NamesAlike (members.lookup "valueType") (others.lookup "valueType"))
      (hitems : others.lookup "values" = members.lookup "values") :
      LiteralsRespelled (.object members) (.object others)

structure ComparisonsRespelled (members others : Members) : Prop where
  path : others.lookup "attribute" = members.lookup "attribute"
  operator : Option.Rel NamesAlike (members.lookup "operator") (others.lookup "operator")
  literals : Option.Rel LiteralsRespelled (members.lookup "value") (others.lookup "value")

/-- Documents whose nodes have the same tags, operators and kinds, spelled in any way, and agree in
whatever else is looked at. -/
inductive Respelled : Json → Json → Prop where
  | refl (document : Json) : Respelled document document
  | array {elements others : List Json} (helements : List.Forall₂ Respelled elements others) :
      Respelled (.array elements) (.array others)
  | object {members others : Members}
      (htype : Option.Rel NamesAlike (members.lookup "$type") (others.lookup "$type"))
      (hfallback : members.lookup "$type" = none →
        Option.Rel NamesAlike (members.lookup "type") (others.lookup "type"))
      (hgroup : IsTagged members .all ∨ IsTagged members .any →
        Option.Rel Respelled (members.lookup "statements") (others.lookup "statements"))
      (hnot : IsTagged members .not →
        Option.Rel Respelled (members.lookup "statement") (others.lookup "statement"))
      (hcompare : IsTagged members .compare → ComparisonsRespelled members others) :
      Respelled (.object members) (.object others)

/-! ### Errors without spellings

No part of a node but a name that is looked up is repeated in an error.
-/

section Unspelled

variable {α β : Type} {members others : Members}

@[simp]
theorem unspelled_property (site : Site) (name : String) (members : Members) :
    unspelled (property site name members) = property site name members := by
  rw [property]
  cases members.lookup name <;> rfl

@[simp]
theorem unspelled_require (name : String) (expected : Shape) (found : Option α) :
    unspelled (require name expected found) = require name expected found := by
  cases found <;> rfl

theorem unspelled_bind (first : Except CompileError α) (next : α → Except CompileError β) :
    unspelled (first >>= next) = unspelled first >>= fun value => unspelled (next value) :=
  mapError_bind _ first next

theorem unspelled_map (result : α → β) (outcome : Except CompileError α) :
    unspelled (result <$> outcome) = result <$> unspelled outcome :=
  mapError_map _ result outcome

@[simp]
theorem unspelled_statements (tag : Tag) (members : Members) :
    unspelled (statements tag members) = statements tag members := by
  simp only [statements, unspelled_bind, unspelled_property, unspelled_require]

/-- Two readers of names that agree may go on with what depends on the spelling in errors only. -/
theorem unspelled_bind_congr {first other : Except CompileError String}
    {next : String → Except CompileError β} (hagree : Agree Text.SameName first other)
    (hnext : ∀ name other, Text.SameName name other →
      unspelled (next other) = unspelled (next name)) :
    unspelled (other >>= next) = unspelled (first >>= next) := by
  cases hagree with
  | ok hsame => exact hnext _ _ hsame
  | error error => rfl

end Unspelled

/-! ### Names -/

section Names

variable {members others : Members}

theorem agree_require {α β : Type} {related : α → β → Prop} {found : Option α} {other : Option β}
    (name : String) (expected : Shape) (hfound : Option.Rel related found other) :
    Agree related (require name expected found) (require name expected other) := by
  cases hfound with
  | none => exact .error _
  | some hrelated => exact .ok hrelated

theorem NamesAlike.string?_rel {value other : Json} (halike : NamesAlike value other) :
    Option.Rel Text.SameName value.string? other.string? := by
  cases halike with
  | refl =>
      cases value.string? with
      | none => exact .none
      | some text => exact .some (.refl text)
  | string hsame => exact .some hsame

theorem agree_stringProperty (site : Site) {name : String}
    (halike : Option.Rel NamesAlike (members.lookup name) (others.lookup name)) :
    Agree Text.SameName (stringProperty site name members) (stringProperty site name others) := by
  rw [stringProperty, stringProperty, property, property]
  generalize members.lookup name = value, others.lookup name = other at halike
  cases halike with
  | none => exact .error _
  | some hvalues => exact agree_require name .string hvalues.string?_rel

theorem agree_tagName
    (htype : Option.Rel NamesAlike (members.lookup "$type") (others.lookup "$type"))
    (hfallback : members.lookup "$type" = none →
      Option.Rel NamesAlike (members.lookup "type") (others.lookup "type")) :
    Agree Text.SameName (tagName members) (tagName others) := by
  rw [tagName, tagName]
  generalize members.lookup "$type" = value, others.lookup "$type" = other at htype hfallback
  cases htype with
  | some hvalues => exact agree_require "$type" .string hvalues.string?_rel
  | none =>
      have hnames := hfallback rfl
      generalize members.lookup "type" = value, others.lookup "type" = other at hnames
      cases hnames with
      | none => exact .error _
      | some hvalues => exact agree_require "type" .string hvalues.string?_rel

end Names

/-! ### Comparisons -/

section Comparisons

variable {members others : Members}

theorem unspelled_operator
    (halike : Option.Rel NamesAlike (members.lookup "operator") (others.lookup "operator")) :
    unspelled (Document.operator others) = unspelled (Document.operator members) := by
  rw [Document.operator, Document.operator]
  apply unspelled_bind_congr (agree_stringProperty _ halike)
  intro name other hsame
  rw [Operator.ofName?_congr hsame]
  cases Operator.ofName? name with
  | some operator => rfl
  | none =>
      have herror : name.toLower = other.toLower := Text.sameName_iff.mp hsame
      simp [unspelled, Except.mapError, CompileError.inSmallLetters, herror]

theorem unspelled_ofJson {name other : String} (hsame : Text.SameName name other)
    (elements : List Json) :
    unspelled (Literals.ofJson other elements) = unspelled (Literals.ofJson name elements) := by
  rw [Literals.ofJson, Literals.ofJson, Kind.ofName?_congr hsame]
  cases Kind.ofName? name with
  | some kind => rfl
  | none =>
      have herror : name.toLower = other.toLower := Text.sameName_iff.mp hsame
      simp [unspelled, Except.mapError, CompileError.inSmallLetters, herror]

theorem unspelled_literals
    (halike : Option.Rel LiteralsRespelled (members.lookup "value") (others.lookup "value")) :
    unspelled (Document.literals others) = unspelled (Document.literals members) := by
  rw [Document.literals, Document.literals, property, property]
  generalize members.lookup "value" = value, others.lookup "value" = other at halike
  cases halike with
  | none => rfl
  | some hvalues =>
      cases hvalues with
      | refl value => rfl
      | object hkind hitems =>
          simp only [ok_bind, object?, require]
          rw [property_congr hitems]
          apply unspelled_bind_congr (agree_stringProperty _ hkind)
          intro name other hsame
          simp only [unspelled_bind, unspelled_ofJson hsame]

theorem unspelled_comparison (hrespelled : ComparisonsRespelled members others) :
    unspelled (Document.comparison others) = unspelled (Document.comparison members) := by
  obtain ⟨hpath, hoperator, hliterals⟩ := hrespelled
  simp only [Document.comparison, stringProperty, unspelled_bind, unspelled_operator hoperator,
    unspelled_literals hliterals, property_congr hpath]

end Comparisons

/-! ### Nodes -/

theorem Respelled.array?_rel (value other : Json) (hrespelled : Respelled value other) :
    Option.Rel (List.Forall₂ Respelled) value.array? other.array? := by
  cases hrespelled with
  | refl => exact array?_rel_self .refl value
  | array helements => exact .some helements
  | object => exact .none

theorem unspelled_readNode {child : Json → Except CompileError Rule} {document other : Json}
    (hchild : ∀ document other, Respelled document other →
      unspelled (child other) = unspelled (child document))
    (hrespelled : Respelled document other) :
    unspelled (readNode child other) = unspelled (readNode child document) := by
  cases hrespelled with
  | refl document => rfl
  | array helements => rfl
  | @object members others htype hfallback hgroup hnot hcompare =>
      have hagree := agree_tagName htype hfallback
      rw [readNode_object, readNode_object]
      generalize hname : tagName members = tagged, tagName others = taggedOther at hagree
      cases hagree with
      | error error => rfl
      | @ok name nameOther hsame =>
          rw [ok_bind, ok_bind, Tag.ofName?_congr hsame]
          cases hfound : Tag.ofName? name with
          | none =>
              have herror : name.toLower = nameOther.toLower := Text.sameName_iff.mp hsame
              simp [unspelled, Except.mapError, CompileError.inSmallLetters, herror]
          | some tag =>
              have htag : IsTagged members tag := isTagged_iff.mpr ⟨name, hname, hfound⟩
              have hstatements (tag : Tag) (hrelated : Option.Rel Respelled
                  (members.lookup "statements") (others.lookup "statements")) :
                  unspelled (statements tag others >>= (·.mapM child)) =
                    unspelled (statements tag members >>= (·.mapM child)) := by
                simp only [unspelled_bind, unspelled_statements]
                simp only [unspelled, mapError_mapM]
                exact group_congr hchild Respelled.array?_rel hrelated
              cases tag with
              | all =>
                  simp only [unspelled_map, hstatements .all (hgroup (.inl htag))]
              | any =>
                  simp only [unspelled_map, hstatements .any (hgroup (.inr htag))]
              | not =>
                  simp only [unspelled_map, unspelled_bind, unspelled_property]
                  exact congrArg (Rule.not <$> ·) (operand_congr hchild (hnot htag))
              | compare =>
                  simp only [unspelled_map, unspelled_comparison (hcompare htag)]

/-- The spelling of names makes a difference to nothing but their spelling in errors. -/
theorem read_of_respelled {limit depth : Nat} {document other : Json}
    (hrespelled : Respelled document other) :
    unspelled (Document.read limit depth other) =
      unspelled (Document.read limit depth document) := by
  induction depth generalizing document other with
  | zero => rfl
  | succ depth ih =>
      rw [read_succ_eq_readNode]
      exact unspelled_readNode (fun _ _ => ih) hrespelled

/-- **Reading looks at what it should and at nothing else.** What a node is not looked at for may be
added, removed or changed in any nodes and any values of comparisons at once, and the outcome stays
what it is, whether a rule or an error. The letters of tags, operators and kinds may be small or
capital, and the outcome stays what it is but for the spelling of a name that an error repeats. And
with a character beyond ASCII there is no tag, no operator and no kind. -/
theorem reads_nothing_else (document : Json) (maxDepth : Nat) :
    (∀ other, Alike document other →
      Rule.ofJson other maxDepth = Rule.ofJson document maxDepth) ∧
      (∀ other, Respelled document other →
        unspelled (Rule.ofJson other maxDepth) = unspelled (Rule.ofJson document maxDepth)) ∧
      ∀ name, Text.BeyondAscii name →
        (∀ members limit depth, tagName members = .ok name →
          Document.read limit (depth + 1) (.object members) = .error (.unsupportedTag name)) ∧
        (∀ members, members.lookup "operator" = some (.string name) →
          Document.operator members = .error (.unsupportedOperator name)) ∧
        ∀ elements, Literals.ofJson name elements = .error (.unsupportedKind name) := by
  refine ⟨fun other => read_of_alike, fun other => read_of_respelled, ?_⟩
  intro name hname
  refine ⟨?_, ?_, ?_⟩
  · intro members limit depth htag
    rw [read_succ, htag, ok_bind, Tag.ofName?_of_beyondAscii hname]
  · intro members hlookup
    rw [Document.operator, stringProperty_eq_ok_iff.mpr hlookup, ok_bind,
      Operator.ofName?_of_beyondAscii hname]
  · intro elements
    rw [Literals.ofJson, Kind.ofName?_of_beyondAscii hname]

/-- A group of one comparison, with remarks wherever there may be some. -/
def grouped (tag operator : String) (remarks : Members) : Json :=
  .object ([("$type", .string tag),
    ("statements", .array [.object ([("$type", .string "predicate"), ("attribute", .string "Name"),
      ("operator", .string operator), ("value", .object ([("valueType", .string "String"),
        ("values", .array [])] ++ remarks))] ++ remarks)])] ++ remarks)

/-- Remarks in all places do not change an error, other letters show in it, and the long `s` is a
letter that no name is written with. -/
theorem reads_nothing_else_grouped :
    Rule.ofJson (grouped "and" "lessThan" []) 2 = .error (.unsupportedOperator "lessThan") ∧
      Alike (grouped "and" "lessThan" []) (grouped "and" "lessThan" [("type", .bool true)]) ∧
      Rule.ofJson (grouped "and" "lessThan" [("type", .bool true)]) 2 =
        .error (.unsupportedOperator "lessThan") ∧
      Respelled (grouped "and" "lessThan" []) (grouped "And" "LESSTHAN" [("type", .null)]) ∧
      Rule.ofJson (grouped "And" "LESSTHAN" [("type", .null)]) 2 =
        .error (.unsupportedOperator "LESSTHAN") ∧
      unspelled (Rule.ofJson (grouped "And" "LESSTHAN" [("type", .null)]) 2) =
        unspelled (.error (.unsupportedOperator "lessThan")) ∧
      Text.BeyondAscii "equal\u017f" ∧
      Literals.ofJson "equal\u017f" [] = .error (.unsupportedKind "equal\u017f") := by
  have hread : Rule.ofJson (grouped "and" "lessThan" []) 2 =
      .error (.unsupportedOperator "lessThan") := rfl
  have halike : Alike (grouped "and" "lessThan" [])
      (grouped "and" "lessThan" [("type", .bool true)]) :=
    .object rfl nofun (fun _ => .some (.array (.cons (.object rfl nofun (fun _ => .none)
      (fun _ => .none) fun _ => ⟨rfl, rfl, .some (.object rfl rfl)⟩) .nil)))
      (fun _ => .none) fun _ => ⟨rfl, rfl, .none⟩
  have hrespelled : Respelled (grouped "and" "lessThan" [])
      (grouped "And" "LESSTHAN" [("type", .null)]) :=
    .object (.some (.string (by decide))) nofun (fun _ => .some (.array (.cons (.object
      (.some (.refl _)) nofun (fun _ => .none) (fun _ => .none) fun _ =>
        ⟨rfl, .some (.string (by decide)), .some (.object (.some (.refl _)) rfl)⟩) .nil)))
      (fun _ => .none) fun _ => ⟨rfl, .none, .none⟩
  have hforeign : Text.BeyondAscii "equal\u017f" := ⟨'\u017f', by decide, by decide⟩
  obtain ⟨hsame, hspelled, hbeyond⟩ := reads_nothing_else (grouped "and" "lessThan" []) 2
  exact ⟨hread, halike, (hsame _ halike).trans hread, hrespelled, rfl,
    (hspelled _ hrespelled).trans (congrArg unspelled hread), hforeign,
    (hbeyond _ hforeign).2.2 []⟩

end Document

end RecordRules
