import RecordRules.Proofs.Induction

/-!
# Outlines of rules

An outline is a rule in which constants may stand for groups. It is collapsed from the inside
outwards: a group of one operand gives way to this operand, and a group without operands to the
constant that it amounts to. Main statements: what is collapsed is normal
(`Outline.isNormal_collapse`) and as true as before (`Outline.holds_collapse`), what is normal is
not changed (`Outline.collapse_eq_self`), and a rule is written like its outline
(`Rule.text_outline`).
-/

namespace RecordRules

/-- The constant that a group amounts to without operands tells conjunctions from disjunctions. -/
inductive Outline where
  | const (value : Bool)
  | group (unit : Bool) (operands : List Outline)
  | not (operand : Outline)
  | compare (comparison : Comparison)

namespace Outline

@[elab_as_elim, induction_eliminator]
theorem induction {motive : Outline → Prop} (const : ∀ value, motive (.const value))
    (group : ∀ unit operands, (∀ operand ∈ operands, motive operand) →
      motive (.group unit operands))
    (not : ∀ operand, motive operand → motive (.not operand))
    (compare : ∀ comparison, motive (.compare comparison)) : ∀ outline, motive outline
  | .const value => const value
  | .group unit operands =>
    group unit operands fun operand _ => induction const group not compare operand
  | .not operand => not operand (induction const group not compare operand)
  | .compare comparison => compare comparison

/-! ### Text -/

def word (unit : Bool) : String := if unit then "AND" else "OR"

mutual

/-- Outlines are written as rules are, and constants in capitals. -/
def text : Outline → String
  | .const value => if value then "TRUE" else "FALSE"
  | .group unit operands => Rule.groupText (word unit) (texts operands)
  | .not operand => "(NOT " ++ operand.text ++ ")"
  | .compare comparison => "(" ++ comparison.label ++ ")"

def texts : List Outline → List String
  | [] => []
  | operand :: rest => operand.text :: texts rest

end

@[simp]
theorem texts_eq (operands : List Outline) : texts operands = operands.map text := by
  induction operands with
  | nil => rfl
  | cons operand rest ih => simp [texts, ih]

/-! ### Collapsing -/

/-- What remains of a group with operands that are collapsed. -/
def collapseGroup (unit : Bool) : List Outline → Outline
  | [] => .const unit
  | [operand] => operand
  | operands => .group unit operands

mutual

def collapse : Outline → Outline
  | .const value => .const value
  | .group unit operands => collapseGroup unit (collapses operands)
  | .not operand => .not operand.collapse
  | .compare comparison => .compare comparison

def collapses : List Outline → List Outline
  | [] => []
  | operand :: rest => operand.collapse :: collapses rest

end

@[simp]
theorem collapses_eq (operands : List Outline) : collapses operands = operands.map collapse := by
  induction operands with
  | nil => rfl
  | cons operand rest ih => simp [collapses, ih]

/-- Every group has two operands at least. -/
inductive IsNormal : Outline → Prop where
  | const (value : Bool) : IsNormal (.const value)
  | group {unit : Bool} {operands : List Outline} (hlength : 2 ≤ operands.length)
      (hoperands : ∀ operand ∈ operands, IsNormal operand) : IsNormal (.group unit operands)
  | not {operand : Outline} (hoperand : IsNormal operand) : IsNormal (.not operand)
  | compare (comparison : Comparison) : IsNormal (.compare comparison)

theorem isNormal_collapseGroup {unit : Bool} {operands : List Outline}
    (hoperands : ∀ operand ∈ operands, operand.IsNormal) :
    (collapseGroup unit operands).IsNormal := by
  match operands with
  | [] => exact .const unit
  | [operand] => exact hoperands operand List.mem_cons_self
  | first :: second :: rest => exact .group (Nat.le_add_left 2 rest.length) hoperands

theorem isNormal_collapse (outline : Outline) : outline.collapse.IsNormal := by
  induction outline with
  | const value => exact .const value
  | group unit operands ih =>
      rw [collapse, collapses_eq]
      exact isNormal_collapseGroup (List.forall_mem_map.mpr ih)
  | not operand ih => exact .not ih
  | compare comparison => exact .compare comparison

theorem collapseGroup_eq_group {unit : Bool} {operands : List Outline}
    (hlength : 2 ≤ operands.length) : collapseGroup unit operands = .group unit operands := by
  match operands with
  | [] => cases hlength
  | [operand] => exact absurd hlength (Nat.not_succ_le_self 1)
  | first :: second :: rest => rfl

theorem collapse_eq_self {outline : Outline} (hnormal : outline.IsNormal) :
    outline.collapse = outline := by
  induction hnormal with
  | const value => rfl
  | @group unit operands hlength _ ih =>
      have hsame : operands.map collapse = operands := by
        rw [List.map_congr_left ih, List.map_id']
      rw [collapse, collapses_eq, hsame, collapseGroup_eq_group hlength]
  | not _ ih => rw [collapse, ih]
  | compare comparison => rfl

/-! ### Comparisons and truth -/

mutual

def comparisons : Outline → List Comparison
  | .const _ => []
  | .group _ operands => comparisonsOf operands
  | .not operand => operand.comparisons
  | .compare comparison => [comparison]

def comparisonsOf : List Outline → List Comparison
  | [] => []
  | operand :: rest => operand.comparisons ++ comparisonsOf rest

end

mutual

/-- The truth of an outline, given the truth of its comparisons. -/
def holds (truth : Comparison → Bool) : Outline → Bool
  | .const value => value
  | .group true operands => allHold truth operands
  | .group false operands => anyHolds truth operands
  | .not operand => !operand.holds truth
  | .compare comparison => truth comparison

def allHold (truth : Comparison → Bool) : List Outline → Bool
  | [] => true
  | operand :: rest => operand.holds truth && allHold truth rest

def anyHolds (truth : Comparison → Bool) : List Outline → Bool
  | [] => false
  | operand :: rest => operand.holds truth || anyHolds truth rest

end

@[simp]
theorem comparisonsOf_eq (operands : List Outline) :
    comparisonsOf operands = operands.flatMap comparisons := by
  induction operands with
  | nil => rfl
  | cons operand rest ih => simp [comparisonsOf, ih]

@[simp]
theorem allHold_eq (truth : Comparison → Bool) (operands : List Outline) :
    allHold truth operands = operands.all (holds truth) := by
  induction operands with
  | nil => rfl
  | cons operand rest ih => simp [allHold, ih]

@[simp]
theorem anyHolds_eq (truth : Comparison → Bool) (operands : List Outline) :
    anyHolds truth operands = operands.any (holds truth) := by
  induction operands with
  | nil => rfl
  | cons operand rest ih => simp [anyHolds, ih]

theorem comparisons_collapseGroup (unit : Bool) (operands : List Outline) :
    (collapseGroup unit operands).comparisons = operands.flatMap comparisons := by
  match operands with
  | [] => rfl
  | [operand] => simp [collapseGroup]
  | first :: second :: rest => exact comparisonsOf_eq (first :: second :: rest)

theorem holds_collapseGroup (truth : Comparison → Bool) (unit : Bool) (operands : List Outline) :
    (collapseGroup unit operands).holds truth = (group unit operands).holds truth := by
  match operands with
  | [] => cases unit <;> rfl
  | [operand] => cases unit <;> simp [collapseGroup, holds]
  | first :: second :: rest => rfl

theorem comparisons_collapse (outline : Outline) :
    outline.collapse.comparisons = outline.comparisons := by
  induction outline with
  | const value => rfl
  | group unit operands ih =>
      rw [collapse, collapses_eq, comparisons_collapseGroup, List.flatMap_map, comparisons,
        comparisonsOf_eq]
      exact List.flatMap_congr ih
  | not operand ih => exact ih
  | compare comparison => rfl

/-- What a group gives way to is as true as the group. -/
theorem holds_collapse (truth : Comparison → Bool) (outline : Outline) :
    outline.collapse.holds truth = outline.holds truth := by
  induction outline with
  | const value => rfl
  | group unit operands ih =>
      have hsame : List.Forall₂ (fun operand other => operand.collapse.holds truth =
          other.holds truth) operands operands := List.forall₂_same.mpr ih
      rw [collapse, collapses_eq, holds_collapseGroup]
      cases unit with
      | true =>
          rw [holds, holds, allHold_eq, allHold_eq, List.all_map]
          exact all_eq_all_of_forall₂ hsame
      | false =>
          rw [holds, holds, anyHolds_eq, anyHolds_eq, List.any_map]
          exact any_eq_any_of_forall₂ hsame
  | not operand ih => exact congrArg (!·) ih
  | compare comparison => rfl

end Outline

namespace Rule

mutual

def outline : Rule → Outline
  | .all rules => .group true (outlines rules)
  | .any rules => .group false (outlines rules)
  | .not rule => .not rule.outline
  | .compare comparison => .compare comparison

def outlines : List Rule → List Outline
  | [] => []
  | rule :: rest => rule.outline :: outlines rest

end

@[simp]
theorem outlines_eq (rules : List Rule) : outlines rules = rules.map outline := by
  induction rules with
  | nil => rfl
  | cons rule rest ih => simp [outlines, ih]

theorem text_outline (rule : Rule) : rule.outline.text = rule.text := by
  have htexts {rules : List Rule} (ih : ∀ rule ∈ rules, rule.outline.text = rule.text) :
      (rules.map outline).map Outline.text = rules.map text := by
    rw [List.map_map]
    exact List.map_congr_left ih
  induction rule with
  | all rules ih =>
      rw [outline, Outline.text, outlines_eq, Outline.texts_eq, htexts ih, text, texts_eq]
      rfl
  | any rules ih =>
      rw [outline, Outline.text, outlines_eq, Outline.texts_eq, htexts ih, text, texts_eq]
      rfl
  | not rule ih => rw [outline, Outline.text, ih, text]
  | compare comparison => rfl

theorem comparisons_outline (rule : Rule) : rule.outline.comparisons = rule.comparisons := by
  have hsame {rules : List Rule}
      (ih : ∀ rule ∈ rules, rule.outline.comparisons = rule.comparisons) :
      (rules.map outline).flatMap Outline.comparisons = rules.flatMap comparisons := by
    rw [List.flatMap_map]
    exact List.flatMap_congr ih
  induction rule with
  | all rules ih =>
      rw [outline, Outline.comparisons, outlines_eq, Outline.comparisonsOf_eq, hsame ih,
        comparisons_all]
  | any rules ih =>
      rw [outline, Outline.comparisons, outlines_eq, Outline.comparisonsOf_eq, hsame ih,
        comparisons_any]
  | not rule ih => rw [outline, Outline.comparisons, ih, comparisons]
  | compare comparison => rfl

theorem holds_outline (truth : Comparison → Bool) (rule : Rule) :
    rule.outline.holds truth = rule.holds truth := by
  induction rule with
  | all rules ih =>
      rw [outline, Outline.holds, outlines_eq, Outline.allHold_eq, List.all_map, holds, allHold_eq]
      exact all_eq_all_of_forall₂ (List.forall₂_same.mpr ih)
  | any rules ih =>
      rw [outline, Outline.holds, outlines_eq, Outline.anyHolds_eq, List.any_map, holds,
        anyHolds_eq]
      exact any_eq_any_of_forall₂ (List.forall₂_same.mpr ih)
  | not rule ih => rw [outline, Outline.holds, ih, holds]
  | compare comparison => rfl

end Rule

end RecordRules
