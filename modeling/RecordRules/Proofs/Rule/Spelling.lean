import RecordRules.Proofs.Rule.Faults
import RecordRules.Proofs.Rule.Grammar
import RecordRules.Proofs.Value.Spelling
import Mathlib.Data.List.Infix

/-!
# The spelling of rules

The comparisons of a rule stand in its document one after another, and the rule shows each of them
with its label. So the numbers of a document are found again in the text of the rule, as they are
spelled there.
-/

namespace RecordRules

open Json

namespace Document

/-! ### Comparisons of a document -/

def comparisonMembers? : Json → Option Members
  | .object members => if tag? members = some .compare then some members else none
  | _ => none

/-- The objects that stand for comparisons, from left to right. -/
def comparisonNodes (level : Nat) (document : Json) : List Members :=
  (nodes level document).filterMap fun node => comparisonMembers? node.2

theorem comparisonNodes_eq (level : Nat) (document : Json) :
    comparisonNodes level document =
      (comparisonMembers? document).toList ++
        (children document).flatMap (comparisonNodes (level + 1)) := by
  rw [comparisonNodes, nodes_eq, List.filterMap_cons, List.filterMap_flatMap]
  cases comparisonMembers? document <;> rfl

theorem tag?_of_isTagged {members : Members} {tag : Tag} (htag : IsTagged members tag) :
    tag? members = some tag := by
  obtain ⟨name, hname, hfound⟩ := isTagged_iff.mp htag
  rw [tagName_eq] at hname
  rw [tag?]
  cases hvalue : members.lookup (tagKey members) with
  | none => simp [hvalue] at hname
  | some value =>
      rw [hvalue] at hname
      rw [string?_eq_some_iff.mp (require_eq_ok_iff.mp hname)]
      exact hfound

/-- The comparisons of a rule come from the nodes of its document, one from each. -/
theorem describesComparisons {depth : Nat} {document : Json} {rule : Rule}
    (hdescribes : Describes depth document rule) (level : Nat) :
    List.Forall₂ DescribesComparison (comparisonNodes level document) rule.comparisons := by
  induction depth generalizing document rule level with
  | zero => cases hdescribes
  | succ depth ih =>
      have hgroup {members : Members} {elements : List Json} {rules : List Rule}
          (hstatements : members.lookup "statements" = some (.array elements))
          (hoperands : List.Forall₂ (Describes depth) elements rules) :
          List.Forall₂ DescribesComparison
            ((elementsOf "statements" members).flatMap (comparisonNodes (level + 1)))
            (rules.flatMap Rule.comparisons) := by
        rw [elementsOf, hstatements]
        exact List.rel_flatMap hoperands fun _ _ hoperand => ih hoperand (level + 1)
      rw [comparisonNodes_eq]
      cases hdescribes with
      | all htag hstatements hoperands | any htag hstatements hoperands =>
          rw [Rule.comparisons, Rule.comparisonsOf_eq]
          simpa [comparisonMembers?, children, tag?_of_isTagged htag] using
            hgroup hstatements hoperands
      | not htag hstatement hoperand =>
          simpa [comparisonMembers?, children, tag?_of_isTagged htag, hstatement,
            Rule.comparisons] using ih hoperand (level + 1)
      | compare htag hcomparison =>
          simpa [comparisonMembers?, children, tag?_of_isTagged htag, Rule.comparisons] using
            hcomparison

end Document

/-! ### Labels -/

/-- The array that the value of a comparison lists its literals in. -/
def Document.Lists (members : Members) (elements : List Json) : Prop :=
  ∃ inner, members.lookup "value" = some (.object inner) ∧
    inner.lookup "values" = some (.array elements)

namespace Comparison

variable {comparison : Comparison} {members : Members}

/-- The label of a comparison whose literals are shown as the given texts. -/
def labelOf (comparison : Comparison) (shown : List String) : String :=
  comparison.path.text ++ " " ++ comparison.operator.name ++ " " ++
    ("[" ++ String.intercalate ", " shown ++ "]")

theorem exists_lists (hread : Document.DescribesComparison members comparison) :
    ∃ elements, Document.Lists members elements ∧
      List.Forall₂ comparison.literals.kind.Denotes elements comparison.literals.items := by
  obtain ⟨inner, hinner, -, elements, helements, hitems⟩ := hread.literals
  exact ⟨elements, ⟨inner, hinner, helements⟩, hitems⟩

/-- A label shows the numbers as they are spelled in the document. -/
theorem exists_label_eq (hread : Document.DescribesComparison members comparison) :
    ∃ elements shown, Document.Lists members elements ∧
      List.Forall₂ comparison.literals.kind.Shows elements shown ∧
        comparison.label = comparison.labelOf shown := by
  obtain ⟨elements, hlists, hitems⟩ := exists_lists hread
  refine ⟨elements, comparison.literals.values.map Value.display, hlists, ?_, rfl⟩
  rw [Literals.values, List.forall₂_map_right_iff, List.forall₂_map_right_iff]
  exact hitems.imp fun _ _ => Kind.Denotes.shows_display

end Comparison

/-! ### Texts of rules -/

namespace Rule

theorem infix_intercalate {separator text : String} {texts : List String} (htext : text ∈ texts) :
    text.toList <:+: (String.intercalate separator texts).toList := by
  rw [String.toList_intercalate]
  induction texts with
  | nil => cases htext
  | cons first rest ih =>
      cases rest with
      | nil =>
          rw [List.mem_singleton.mp htext]
          simp
      | cons second others =>
          simp only [List.map_cons] at ih ⊢
          rw [List.intercalate_cons_cons]
          rcases List.mem_cons.mp htext with rfl | hrest
          · rw [List.append_assoc]
            exact (List.prefix_append _ _).isInfix
          · exact (ih hrest).trans (List.suffix_append _ _).isInfix

theorem infix_groupText {word text : String} {texts : List String} (htext : text ∈ texts) :
    text.toList <:+: (groupText word texts).toList := by
  have hnonempty : texts.isEmpty = false := by
    rw [List.isEmpty_eq_false_iff]
    exact List.ne_nil_of_mem htext
  rw [groupText, hnonempty, if_neg Bool.false_ne_true, String.toList_append, String.toList_append]
  exact (infix_intercalate htext).trans (List.infix_append _ _ _)

/-- A rule shows each of its comparisons between brackets. -/
theorem infix_text {rule : Rule} {comparison : Comparison}
    (hcomparison : comparison ∈ rule.comparisons) :
    ("(" ++ comparison.label ++ ")").toList <:+: rule.text.toList := by
  induction rule with
  | all rules ih | any rules ih =>
      rw [comparisons, comparisonsOf_eq] at hcomparison
      obtain ⟨rule, hrule, hwithin⟩ := List.mem_flatMap.mp hcomparison
      rw [text, texts_eq]
      exact (ih rule hrule hwithin).trans (infix_groupText (List.mem_map_of_mem hrule))
  | not rule ih =>
      have hinner : rule.text.toList <:+: ("(NOT " ++ rule.text ++ ")").toList := by
        rw [String.toList_append, String.toList_append]
        exact List.infix_append _ _ _
      exact (ih hcomparison).trans hinner
  | compare other =>
      rw [List.mem_singleton.mp hcomparison]
      exact List.infix_rfl

end Rule

end RecordRules
