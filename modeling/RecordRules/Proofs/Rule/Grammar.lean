import RecordRules.Proofs.Rule.Alike
import RecordRules.Proofs.Rule.Document
import RecordRules.Proofs.Value.Coercion

/-!
# The grammar of rule documents

Which documents describe which rules, said without the reader: every node is tagged, its tag calls
for a few properties, and the children are described in their turn, one level further down.
Whatever else stands in an object is of no account. Main statement:
`Document.ofJson_eq_ok_iff_describes`.
-/

namespace RecordRules

open Json

namespace Document

/-! ### What describes a rule -/

/-- The value of a comparison names a kind and lists values that stand for literals of it. -/
structure DescribesLiterals (members : Members) (literals : Literals) : Prop where
  kind : ∃ name, members.lookup "valueType" = some (.string name) ∧
    name.toLower = literals.kind.name.toLower
  items : ∃ elements, members.lookup "values" = some (.array elements) ∧
    List.Forall₂ literals.kind.Denotes elements literals.items

structure DescribesComparison (members : Members) (comparison : Comparison) : Prop where
  path : members.lookup "attribute" = some (.string comparison.path.text)
  operator : ∃ name, members.lookup "operator" = some (.string name) ∧
    name.toLower = comparison.operator.name.toLower
  literals : ∃ inner, members.lookup "value" = some (.object inner) ∧
    DescribesLiterals inner comparison.literals

/-- One node describes a rule if its children describe the operands. -/
inductive DescribesNode (child : Json → Rule → Prop) : Json → Rule → Prop where
  | all {members : Members} {elements : List Json} {rules : List Rule}
      (htag : IsTagged members .all)
      (hstatements : members.lookup "statements" = some (.array elements))
      (hoperands : List.Forall₂ child elements rules) :
      DescribesNode child (.object members) (.all rules)
  | any {members : Members} {elements : List Json} {rules : List Rule}
      (htag : IsTagged members .any)
      (hstatements : members.lookup "statements" = some (.array elements))
      (hoperands : List.Forall₂ child elements rules) :
      DescribesNode child (.object members) (.any rules)
  | not {members : Members} {statement : Json} {rule : Rule}
      (htag : IsTagged members .not)
      (hstatement : members.lookup "statement" = some statement)
      (hoperand : child statement rule) :
      DescribesNode child (.object members) (.not rule)
  | compare {members : Members} {comparison : Comparison}
      (htag : IsTagged members .compare)
      (hcomparison : DescribesComparison members comparison) :
      DescribesNode child (.object members) (.compare comparison)

/-- A document describes a rule of at most `depth` nested levels. -/
def Describes : (depth : Nat) → Json → Rule → Prop
  | 0 => fun _ _ => False
  | depth + 1 => DescribesNode (Describes depth)

/-! ### What is read -/

variable {members : Members}

theorem operator_eq_ok_iff {operator : Operator} :
    Document.operator members = .ok operator ↔
      ∃ name, members.lookup "operator" = some (.string name) ∧
        name.toLower = operator.name.toLower := by
  rw [Document.operator, bind_eq_ok_iff]
  simp only [stringProperty_eq_ok_iff]
  refine exists_congr fun name => and_congr_right fun _ => ?_
  rw [@eq_comm String, ← Text.sameName_iff, ← Operator.ofName?_eq_some_iff]
  cases Operator.ofName? name <;> simp [pure, Except.pure]

theorem literals_eq_ok_iff_describes {literals : Literals} :
    Document.literals members = .ok literals ↔
      ∃ inner, members.lookup "value" = some (.object inner) ∧
        DescribesLiterals inner literals := by
  simp only [literals_eq_ok_iff, Literals.ofJson_eq_ok_iff, Text.sameName_iff]
  constructor
  · rintro ⟨inner, name, elements, hvalue, hname, helements, hkind, hitems⟩
    exact ⟨inner, hvalue, ⟨name, hname, hkind.symm⟩, ⟨elements, helements, hitems⟩⟩
  · rintro ⟨inner, hvalue, ⟨name, hname, hkind⟩, ⟨elements, helements, hitems⟩⟩
    exact ⟨inner, name, elements, hvalue, hname, helements, hkind.symm, hitems⟩

theorem comparison_eq_ok_iff {comparison : Comparison} :
    Document.comparison members = .ok comparison ↔ DescribesComparison members comparison := by
  constructor
  · intro hread
    obtain ⟨path, hpath, hread⟩ := bind_eq_ok_iff.mp hread
    obtain ⟨operator, hoperator, hread⟩ := bind_eq_ok_iff.mp hread
    obtain ⟨literals, hliterals, hread⟩ := bind_eq_ok_iff.mp hread
    cases hread
    exact ⟨stringProperty_eq_ok_iff.mp hpath, operator_eq_ok_iff.mp hoperator,
      literals_eq_ok_iff_describes.mp hliterals⟩
  · rintro ⟨hpath, hoperator, hliterals⟩
    rw [Document.comparison, stringProperty_eq_ok_iff.mpr hpath, ok_bind,
      operator_eq_ok_iff.mpr hoperator, ok_bind, literals_eq_ok_iff_describes.mpr hliterals]
    rfl

variable {child : Json → Except CompileError Rule}

theorem group_eq_ok_iff {tag : Tag} {rules : List Rule} :
    (statements tag members >>= (·.mapM child)) = .ok rules ↔
      ∃ elements, members.lookup "statements" = some (.array elements) ∧
        List.Forall₂ (fun element rule => child element = .ok rule) elements rules := by
  simp only [bind_eq_ok_iff, statements_eq_ok_iff, mapM_eq_ok_iff]

theorem operand_eq_ok_iff {site : Site} {rule : Rule} :
    (property site "statement" members >>= child) = .ok rule ↔
      ∃ statement, members.lookup "statement" = some statement ∧ child statement = .ok rule := by
  simp only [bind_eq_ok_iff, property_eq_ok_iff]

/-- A node that is read describes its rule if this is so for the children. -/
theorem describesNode_of_readNode {document : Json} {rule : Rule}
    (hread : readNode child document = .ok rule) :
    DescribesNode (fun element rule => child element = .ok rule) document rule := by
  cases document with
  | object members =>
      rw [readNode_object] at hread
      obtain ⟨name, hname, hnode⟩ := bind_eq_ok_iff.mp hread
      cases htag : Tag.ofName? name with
      | none => simp [htag] at hnode
      | some tag =>
          rw [htag] at hnode
          have htagged : IsTagged members tag := isTagged_iff.mpr ⟨name, hname, htag⟩
          cases tag with
          | all =>
              obtain ⟨rules, hrules, rfl⟩ := map_eq_ok_iff.mp hnode
              obtain ⟨elements, helements, hoperands⟩ := group_eq_ok_iff.mp hrules
              exact .all htagged helements hoperands
          | any =>
              obtain ⟨rules, hrules, rfl⟩ := map_eq_ok_iff.mp hnode
              obtain ⟨elements, helements, hoperands⟩ := group_eq_ok_iff.mp hrules
              exact .any htagged helements hoperands
          | not =>
              obtain ⟨inner, hinner, rfl⟩ := map_eq_ok_iff.mp hnode
              obtain ⟨statement, hstatement, hoperand⟩ := operand_eq_ok_iff.mp hinner
              exact .not htagged hstatement hoperand
          | compare =>
              obtain ⟨comparison, hcomparison, rfl⟩ := map_eq_ok_iff.mp hnode
              exact .compare htagged (comparison_eq_ok_iff.mp hcomparison)
  | _ => cases hread

theorem readNode_of_isTagged {tag : Tag} (htag : IsTagged members tag) :
    readNode child (.object members) =
      match tag with
      | .all => .all <$> (statements .all members >>= (·.mapM child))
      | .any => .any <$> (statements .any members >>= (·.mapM child))
      | .not => .not <$> (property (.tagged .not) "statement" members >>= child)
      | .compare => .compare <$> comparison members := by
  obtain ⟨name, hname, hfound⟩ := isTagged_iff.mp htag
  rw [readNode_object, hname, ok_bind, hfound]
  cases tag <;> rfl

theorem readNode_eq_ok_iff {document : Json} {rule : Rule} :
    readNode child document = .ok rule ↔
      DescribesNode (fun element rule => child element = .ok rule) document rule := by
  refine ⟨describesNode_of_readNode, ?_⟩
  rintro (⟨htag, hstatements, hoperands⟩ | ⟨htag, hstatements, hoperands⟩ |
    ⟨htag, hstatement, hoperand⟩ | ⟨htag, hcomparison⟩)
  · rw [readNode_of_isTagged htag]
    exact map_eq_ok_iff.mpr ⟨_, group_eq_ok_iff.mpr ⟨_, hstatements, hoperands⟩, rfl⟩
  · rw [readNode_of_isTagged htag]
    exact map_eq_ok_iff.mpr ⟨_, group_eq_ok_iff.mpr ⟨_, hstatements, hoperands⟩, rfl⟩
  · rw [readNode_of_isTagged htag]
    exact map_eq_ok_iff.mpr ⟨_, operand_eq_ok_iff.mpr ⟨_, hstatement, hoperand⟩, rfl⟩
  · rw [readNode_of_isTagged htag]
    exact map_eq_ok_iff.mpr ⟨_, comparison_eq_ok_iff.mpr hcomparison, rfl⟩

/-- Reading accepts what describes a rule, whatever limit its errors would name. -/
theorem read_eq_ok_iff {limit depth : Nat} {document : Json} {rule : Rule} :
    Document.read limit depth document = .ok rule ↔ Describes depth document rule := by
  induction depth generalizing document rule with
  | zero => exact iff_of_false nofun id
  | succ depth ih =>
      have hchild : (fun element rule => Document.read limit depth element = .ok rule) =
          Describes depth := by
        funext element rule
        exact propext ih
      rw [read_succ_eq_readNode, readNode_eq_ok_iff, hchild, Describes]

/-- **Reading accepts exactly the grammar.** A document is read as a rule if and only if it
describes that rule within the depth, and what the grammar does not mention is not looked at:
documents that agree in the rest are read alike, also where they are refused. -/
theorem ofJson_eq_ok_iff_describes (document : Json) (depth : Nat) :
    (∀ rule, Rule.ofJson document depth = .ok rule ↔ Describes depth document rule) ∧
      ∀ other, Alike document other → Rule.ofJson other depth = Rule.ofJson document depth := by
  constructor
  · intro rule
    exact read_eq_ok_iff
  · intro other halike
    exact read_of_alike halike

/-- A negation, tagged under `type`, of a group that is tagged under `$type`. -/
def remarked (remarks : Members) : Json :=
  .object (("type", .string "NOT") ::
    ("statement", .object (("$type", .string "Or") :: ("type", .null) ::
      ("statements", .array []) :: remarks)) :: remarks)

/-- Remarks may be added to all the nodes at once. -/
theorem ofJson_eq_ok_iff_describes_remarked :
    Describes 2 (remarked []) (.not (.any [])) ∧
      Alike (remarked []) (remarked [("remark", .bool true)]) ∧
      Rule.ofJson (remarked [("remark", .bool true)]) 2 = .ok (.not (.any [])) := by
  have halike : Alike (remarked []) (remarked [("remark", .bool true)]) :=
    .object rfl (fun _ => rfl) (fun _ => .none)
      (fun _ => .some (.object rfl (fun _ => rfl) (fun _ => .some (.refl _)) (fun _ => .none)
        fun _ => ⟨rfl, rfl, .none⟩))
      fun _ => ⟨rfl, rfl, .none⟩
  obtain ⟨hread, hother⟩ := ofJson_eq_ok_iff_describes (remarked []) 2
  have hrule : Rule.ofJson (remarked []) 2 = .ok (.not (.any [])) := rfl
  exact ⟨(hread _).mp hrule, halike, (hother _ halike).trans hrule⟩

end Document

end RecordRules
