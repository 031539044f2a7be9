import RecordRules.Proofs.Rule.Depth
import RecordRules.Proofs.Rule.Run

/-!
# Rules joined one by one

A rule that is joined to a group of the right kind becomes a further operand of it, so that groups
which grow from the left stay flat. Main statement: rules that are joined one by one make one group
of them all, apart from the operands of the first (`Rule.foldl_join_cons`).
-/

namespace RecordRules

namespace Rule

/-- The group that operands which come out as `unit` leave undecided. -/
def junction : (unit : Bool) → List Rule → Rule
  | true => .all
  | false => .any

/-- The builder of such groups. -/
def join : (unit : Bool) → Rule → Rule → Rule
  | true => .and
  | false => .or

/-- What a rule brings into a group: a group of the same kind brings its own operands. -/
def parts : (unit : Bool) → Rule → List Rule
  | true, .all rules => rules
  | false, .any rules => rules
  | _, rule => [rule]

variable {unit : Bool}

theorem join_eq (left right : Rule) :
    join unit left right = junction unit (left.parts unit ++ [right]) := by
  cases unit <;> cases left <;> rfl

@[simp]
theorem parts_junction (rules : List Rule) : (junction unit rules).parts unit = rules := by
  cases unit <;> rfl

theorem parts_eq_singleton {rule : Rule} (hother : ∀ rules, rule ≠ junction unit rules) :
    rule.parts unit = [rule] := by
  cases unit with
  | true =>
      cases rule with
      | all rules => exact absurd rfl (hother rules)
      | _ => rfl
  | false =>
      cases rule with
      | any rules => exact absurd rfl (hother rules)
      | _ => rfl

/-- Every rule is a group of the kind in question or brings itself. -/
theorem parts_cases (unit : Bool) (rule : Rule) :
    rule = junction unit (rule.parts unit) ∨ rule.parts unit = [rule] := by
  by_cases hgroup : ∃ rules, rule = junction unit rules
  · obtain ⟨rules, rfl⟩ := hgroup
    rw [parts_junction]
    exact .inl rfl
  · exact .inr (parts_eq_singleton fun rules heq => hgroup ⟨rules, heq⟩)

theorem foldl_join_cons (seed first : Rule) (rest : List Rule) :
    (first :: rest).foldl (join unit) seed = junction unit (seed.parts unit ++ first :: rest) := by
  induction rest generalizing seed first with
  | nil => exact join_eq seed first
  | cons next others ih =>
      rw [List.foldl_cons, ih, join_eq, parts_junction, List.append_assoc]
      rfl

/-! ### Height -/

theorem height_junction (rules : List Rule) : (junction unit rules).height = 1 + heights rules := by
  cases unit <;> rfl

theorem heights_append_le_iff {rules others : List Rule} {depth : Nat} :
    heights (rules ++ others) ≤ depth ↔ heights rules ≤ depth ∧ heights others ≤ depth := by
  simp only [heights_le_iff, List.forall_mem_append]

theorem heights_parts_le (unit : Bool) (rule : Rule) :
    heights (rule.parts unit) ≤ rule.height := by
  obtain hgroup | hself := parts_cases unit rule
  · have hheight : rule.height = 1 + heights (rule.parts unit) := by
      conv_lhs => rw [hgroup, height_junction]
    omega
  · rw [hself]
    exact heights_le_iff.mpr (List.forall_mem_singleton.mpr (Nat.le_refl _))

/-- Joining any number of rules adds one level to the highest of them at most. -/
theorem height_foldl_join_le (unit : Bool) (seed : Rule) (rules : List Rule) :
    (rules.foldl (join unit) seed).height ≤ 1 + heights (seed :: rules) := by
  have hseed : seed.height ≤ heights (seed :: rules) := height_le_heights List.mem_cons_self
  have hrules : heights rules ≤ heights (seed :: rules) :=
    heights_le_iff.mpr fun _ hmem => height_le_heights (List.mem_cons_of_mem seed hmem)
  cases rules with
  | nil => exact Nat.le_trans hseed (Nat.le_add_left _ 1)
  | cons first rest =>
      rw [foldl_join_cons, height_junction, Nat.add_le_add_iff_left, heights_append_le_iff]
      exact ⟨Nat.le_trans (heights_parts_le unit seed) hseed, hrules⟩

/-! ### Comparisons -/

theorem comparisons_junction (rules : List Rule) :
    (junction unit rules).comparisons = rules.flatMap comparisons := by
  cases unit
  · exact comparisons_any rules
  · exact comparisons_all rules

theorem comparisons_parts (unit : Bool) (rule : Rule) :
    (rule.parts unit).flatMap comparisons = rule.comparisons := by
  obtain hgroup | hself := parts_cases unit rule
  · conv_rhs => rw [hgroup, comparisons_junction]
  · rw [hself, List.flatMap_singleton]

theorem comparisons_foldl_join (seed : Rule) (rules : List Rule) :
    (rules.foldl (join unit) seed).comparisons = (seed :: rules).flatMap comparisons := by
  cases rules with
  | nil => rw [List.foldl_nil, List.flatMap_singleton]
  | cons first rest =>
      rw [foldl_join_cons, comparisons_junction, List.flatMap_append, comparisons_parts]
      rfl

/-! ### Runs -/

variable (truth : Comparison → Bool)

theorem run_junction (rules : List Rule) :
    (junction unit rules).run truth = .join unit (rules.map (run truth)) := by
  cases unit
  · exact run_any rules
  · exact run_all rules

/-- The operands that a rule brings are run as the rule itself is. -/
theorem join_map_parts (seed : Rule) (rest : List Run) :
    Run.join unit ((seed.parts unit).map (run truth) ++ rest) =
      .join unit (seed.run truth :: rest) := by
  obtain hgroup | hself := parts_cases unit seed
  · conv_rhs => rw [hgroup, run_junction]
    exact (Run.join_splice unit [] _ rest).symm
  · rw [hself]
    rfl

theorem run_foldl_join (seed : Rule) (rules : List Rule) :
    (rules.foldl (join unit) seed).run truth = .join unit ((seed :: rules).map (run truth)) := by
  cases rules with
  | nil => rw [List.foldl_nil, List.map_singleton, Run.join_singleton]
  | cons first rest =>
      rw [foldl_join_cons, run_junction, List.map_append, join_map_parts]
      rfl

end Rule

end RecordRules
