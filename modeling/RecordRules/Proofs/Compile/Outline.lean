import RecordRules.Proofs.Compile.Log
import RecordRules.Proofs.Rule.Outline

/-!
# The form of compiled rules

A compiled rule is its own outline, collapsed. Rules and conditions are written by two procedures,
which differ for groups without operands, and there are none of these in what was compiled. Main
statement: `Compiler.compile_collapses`.
-/

namespace RecordRules

/-! ### Conditions -/

namespace Condition

variable {α : Type}

mutual

/-- A condition without its checks. -/
def outline : Condition α → Outline
  | .const value => .const value
  | .compare comparison _ => .compare comparison
  | .all conditions => .group true (outlines conditions)
  | .any conditions => .group false (outlines conditions)
  | .not condition => .not condition.outline

def outlines : List (Condition α) → List Outline
  | [] => []
  | condition :: rest => condition.outline :: outlines rest

end

@[simp]
theorem outlines_eq (conditions : List (Condition α)) :
    outlines conditions = conditions.map outline := by
  induction conditions with
  | nil => rfl
  | cons condition rest ih => simp [outlines, ih]

theorem outline_group (unit : Bool) {combine : List (Condition α) → Condition α}
    (hcombine : ∀ conditions, (combine conditions).outline = .group unit (outlines conditions))
    (conditions : List (Condition α)) :
    (group unit combine conditions).outline =
      .collapseGroup unit (conditions.map outline) := by
  match conditions with
  | [] => rfl
  | [condition] => rfl
  | first :: second :: rest =>
      calc (combine (first :: second :: rest)).outline
          = .group unit (outlines (first :: second :: rest)) := hcombine _
        _ = .collapseGroup unit ((first :: second :: rest).map outline) := by
            rw [outlines_eq]
            rfl

/-- The two ways of writing a group agree unless it is empty. -/
theorem groupText_eq {texts : List String} (hlength : 2 ≤ texts.length) (word : String) :
    groupText word texts = Rule.groupText word texts := by
  have hpresent : ¬texts.isEmpty = true := by
    rw [List.isEmpty_iff_length_eq_zero]
    omega
  rw [groupText, Rule.groupText, if_neg hpresent]

theorem text_eq_text_outline {condition : Condition α} (hnormal : condition.outline.IsNormal) :
    condition.text = condition.outline.text := by
  have hgroup (unit : Bool) {conditions : List (Condition α)}
      (ih : ∀ condition ∈ conditions, condition.outline.IsNormal →
        condition.text = condition.outline.text)
      (hnormal : (Outline.group unit (outlines conditions)).IsNormal) :
      groupText (Outline.word unit) (texts conditions) =
        (Outline.group unit (outlines conditions)).text := by
    rw [outlines_eq] at hnormal ⊢
    obtain - | ⟨hlength, hoperands⟩ := hnormal
    rw [List.length_map] at hlength
    have htexts : conditions.map text = (conditions.map outline).map Outline.text := by
      rw [List.map_map]
      exact List.map_congr_left fun condition hmem =>
        ih condition hmem (List.forall_mem_map.mp hoperands condition hmem)
    rw [Outline.text, Outline.texts_eq, ← htexts, texts_eq, groupText_eq]
    rwa [List.length_map]
  induction condition with
  | const value => rfl
  | compare comparison check => rfl
  | all conditions ih => exact hgroup true ih hnormal
  | any conditions ih => exact hgroup false ih hnormal
  | not condition ih =>
      obtain - | - | ⟨hoperand⟩ := hnormal
      rw [text, ih hoperand]
      rfl

end Condition

/-! ### Compiled rules -/

variable {Index : Type} {Carrier : Index → Type} {schema : Schema Carrier} {root : Index}

namespace Schema

theorem outline_compile {limit depth : Nat} {rule : Rule} {condition : Condition (Carrier root)}
    (hcompile : (schema.compile root limit depth rule).outcome = .ok condition) :
    condition.outline = rule.outline.collapse := by
  have hgroup (unit : Bool) {rules : List Rule} {conditions : List (Condition (Carrier root))}
      (hoperands : List.Forall₂ (fun rule condition => condition.outline = rule.outline.collapse)
        rules conditions) :
      Outline.collapseGroup unit (conditions.map Condition.outline) =
        (Outline.group unit (Rule.outlines rules)).collapse := by
    rw [Outline.collapse, Outline.collapses_eq, Rule.outlines_eq, List.map_map,
      map_eq_map_of_forall₂ hoperands.flip]
    rfl
  refine compile_induction (motive := fun _ rule condition =>
    condition.outline = rule.outline.collapse) ?all ?any ?not ?compare hcompile
  case all =>
    intro depth rules conditions hoperands
    rw [Condition.outline_group true fun _ => rfl]
    exact hgroup true hoperands
  case any =>
    intro depth rules conditions hoperands
    rw [Condition.outline_group false fun _ => rfl]
    exact hgroup false hoperands
  case not =>
    intro depth rule condition hinner
    rw [Condition.outline, hinner, Rule.outline, Outline.collapse]
  case compare =>
    intro depth comparison condition hcomparison
    obtain ⟨field, -, -, -, rfl⟩ := compileComparison_eq_ok hcomparison
    rfl

end Schema

namespace Compiler

variable {compiler : Compiler} {rule : Rule} {condition : Condition (Carrier root)}

/-- **Compiling collapses a rule and loses no comparison.** Every group of a compiled rule has two
operands at least. Its comparisons are those of the rule from left to right, and it is written like
the collapsed outline of the rule, which is the rule itself if no group of it has less than two
operands. A predicate is written with the same text. -/
theorem compile_collapses
    (hcompile : (compiler.compile schema root rule).outcome = .ok condition) :
    condition.outline.IsNormal ∧
      condition.comparisons = rule.comparisons ∧
      condition.text = rule.outline.collapse.text ∧
      (rule.outline.IsNormal → condition.text = rule.text) ∧
      ∃ predicate, (compiler.predicate schema root rule).outcome = .ok predicate ∧
        predicate.condition = condition ∧ predicate.text = "Predicate" ++ condition.text := by
  rw [outcome_compile] at hcompile
  have houtline := Schema.outline_compile hcompile
  have hnormal : condition.outline.IsNormal := houtline ▸ rule.outline.isNormal_collapse
  have htext : condition.text = rule.outline.collapse.text := by
    rw [Condition.text_eq_text_outline hnormal, houtline]
  refine ⟨hnormal, Schema.comparisons_compile hcompile, htext, ?_, ?_⟩
  · intro hrule
    rw [htext, Outline.collapse_eq_self hrule, Rule.text_outline]
  · exact ⟨.ofCondition condition, predicate_eq_ok_iff.mpr ⟨condition, hcompile, rfl⟩, rfl, rfl⟩

/-- Groups with one operand and with none, inside one another. -/
def sparse : Rule := .all [.any [], .all [.any [notRoot]], .not (.any [.all []])]

theorem compile_collapses_sparse :
    ∃ condition, (Compiler.compile ⟨5⟩ accounts 0 sparse).outcome = .ok condition ∧
      condition.outline.IsNormal ∧ condition.comparisons = notRoot.comparisons ∧
      condition.text = "(FALSE AND (NOT (Name equals [\"root\"])) AND (NOT TRUE))" := by
  obtain ⟨condition, hcompile⟩ : ∃ condition,
      (Compiler.compile ⟨5⟩ accounts 0 sparse).outcome = .ok condition := ⟨_, rfl⟩
  obtain ⟨hnormal, hcomparisons, htext, -⟩ := compile_collapses hcompile
  exact ⟨condition, hcompile, hnormal, hcomparisons, htext.trans rfl⟩

end Compiler

end RecordRules
