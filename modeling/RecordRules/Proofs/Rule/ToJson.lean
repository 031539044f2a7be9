import RecordRules.Proofs.Json.Reread
import RecordRules.Rule.Document

/-!
# The document of a rule

How deep the containers of a document are nested: a group opens two of them, a negation one and a
comparison three. A document that is not too deep for the reader comes back from its text, which is
so for every rule of height 63 and less. Main statement: `Rule.readable_toJson`.
-/

namespace RecordRules

open Json

namespace Comparison

theorem keys_pairwise : ["$type", "attribute", "operator", "value"].Pairwise (· < ·) := by decide

theorem valueKeys_pairwise : ["valueType", "values"].Pairwise (· < ·) := by decide

theorem toJson_eq (comparison : Comparison) :
    comparison.toJson = .object [
      ("$type", .string Tag.compare.name),
      ("attribute", .string comparison.path.text),
      ("operator", .string comparison.operator.name),
      ("value", .object [
        ("valueType", .string comparison.literals.kind.name),
        ("values", .array comparison.literals.toJson)])] := by
  rw [toJson, ofMembers_of_pairwise, ofMembers_of_pairwise]
  · exact valueKeys_pairwise
  · exact keys_pairwise

theorem nesting_of_mem_literals {literals : Literals} {element : Json}
    (helement : element ∈ literals.toJson) : element.nesting = 0 := by
  obtain ⟨kind, items⟩ := literals
  obtain ⟨item, -, rfl⟩ := List.mem_map.mp helement
  cases kind <;> rfl

theorem nesting_toJson (comparison : Comparison) : comparison.toJson.nesting = 3 := by
  have helements : elementsNesting comparison.literals.toJson = 0 := by
    rw [← Nat.le_zero, elementsNesting_le_iff]
    intro element helement
    exact Nat.le_of_eq (nesting_of_mem_literals helement)
  simp [toJson_eq, nesting, membersNesting, helements]

theorem isOrdered_toJson (comparison : Comparison) : comparison.toJson.isOrdered = true := by
  have hliterals : ∀ element ∈ comparison.literals.toJson, element.isOrdered = true := by
    intro element helement
    exact isOrdered_scalar (nesting_of_mem_literals helement)
  have hvalue : (Json.object [("valueType", .string comparison.literals.kind.name),
      ("values", .array comparison.literals.toJson)]).isOrdered = true :=
    isOrdered_object_iff.mpr ⟨valueKeys_pairwise, by simpa [isOrdered] using hliterals⟩
  have hstring (text : String) : (Json.string text).isOrdered = true := rfl
  rw [toJson_eq]
  exact isOrdered_object_iff.mpr ⟨keys_pairwise, by simp [hstring, hvalue]⟩

theorem tagsSpelled_toJson (comparison : Comparison) : comparison.toJson.tagsSpelled = true := by
  have htype : "$type" ≠ numeralKey := by decide
  have hkind : "valueType" ≠ numeralKey := by decide
  have hliterals : ∀ element ∈ comparison.literals.toJson, element.tagsSpelled = true := by
    intro element helement
    exact tagsSpelled_scalar (nesting_of_mem_literals helement)
  simpa [toJson_eq, tagsSpelled, taggedObject?, htype, hkind] using hliterals

end Comparison

namespace Rule

theorem groupKeys_pairwise : ["$type", "statements"].Pairwise (· < ·) := by decide

theorem notKeys_pairwise : ["$type", "statement"].Pairwise (· < ·) := by decide

theorem groupJson_eq (tag : Tag) (documents : List Json) :
    groupJson tag documents =
      .object [("$type", .string tag.name), ("statements", .array documents)] := by
  exact ofMembers_of_pairwise groupKeys_pairwise

theorem toJson_not (rule : Rule) :
    (Rule.not rule).toJson =
      .object [("$type", .string Tag.not.name), ("statement", rule.toJson)] := by
  exact ofMembers_of_pairwise notKeys_pairwise

theorem nesting_groupJson (tag : Tag) (documents : List Json) :
    (groupJson tag documents).nesting = 2 + elementsNesting documents := by
  simp [groupJson_eq, nesting, membersNesting]
  omega

theorem elementsNesting_toJson_le {rules : List Rule}
    (hrules : ∀ rule ∈ rules, rule.toJson.nesting ≤ 2 * rule.height + 1) :
    elementsNesting (rules.map toJson) ≤ 2 * heights rules + 1 := by
  rw [elementsNesting_le_iff, List.forall_mem_map]
  intro rule hrule
  have hheight := height_le_heights hrule
  have hnesting := hrules rule hrule
  omega

/-- A rule of one more level adds two containers at most, and a comparison is made of three. -/
theorem nesting_toJson_le (rule : Rule) : rule.toJson.nesting ≤ 2 * rule.height + 1 := by
  induction rule with
  | all rules ih =>
      calc (all rules).toJson.nesting = 2 + elementsNesting (rules.map toJson) := by
            rw [toJson, toJsons_eq, nesting_groupJson]
        _ ≤ 2 + (2 * heights rules + 1) := Nat.add_le_add_left (elementsNesting_toJson_le ih) 2
        _ = 2 * (all rules).height + 1 := by
            rw [height]
            omega
  | any rules ih =>
      calc (any rules).toJson.nesting = 2 + elementsNesting (rules.map toJson) := by
            rw [toJson, toJsons_eq, nesting_groupJson]
        _ ≤ 2 + (2 * heights rules + 1) := Nat.add_le_add_left (elementsNesting_toJson_le ih) 2
        _ = 2 * (any rules).height + 1 := by
            rw [height]
            omega
  | not rule ih =>
      rw [toJson_not, height]
      simp only [nesting, membersNesting]
      omega
  | compare comparison =>
      change comparison.toJson.nesting ≤ 2 * 1 + 1
      exact Nat.le_of_eq comparison.nesting_toJson

theorem isOrdered_toJson (rule : Rule) : rule.toJson.isOrdered = true := by
  induction rule with
  | all rules ih | any rules ih =>
      rw [toJson, toJsons_eq, groupJson_eq]
      exact isOrdered_object_iff.mpr ⟨groupKeys_pairwise, by simpa [isOrdered] using ih⟩
  | not rule ih =>
      rw [toJson_not]
      exact isOrdered_object_iff.mpr ⟨notKeys_pairwise, by simpa [isOrdered] using ih⟩
  | compare comparison => exact comparison.isOrdered_toJson

theorem tagsSpelled_toJson (rule : Rule) : rule.toJson.tagsSpelled = true := by
  have htype : "$type" ≠ numeralKey := by decide
  induction rule with
  | all rules ih | any rules ih =>
      rw [toJson, toJsons_eq, groupJson_eq]
      simpa [tagsSpelled, taggedObject?, htype] using ih
  | not rule ih =>
      rw [toJson_not]
      simpa [tagsSpelled, taggedObject?, htype] using ih
  | compare comparison => exact comparison.tagsSpelled_toJson

/-- **A rule of height 63 comes back from the text of its document**: 127 containers are the most
that its document nests. -/
theorem readable_toJson {rule : Rule} (hheight : rule.height ≤ 63) : rule.toJson.Readable := by
  have hnesting := nesting_toJson_le rule
  refine ⟨?_, tagsSpelled_toJson rule⟩
  unfold depthLimit
  omega

end Rule

end RecordRules
