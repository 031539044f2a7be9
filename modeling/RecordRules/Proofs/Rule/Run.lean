import RecordRules.Rule.Basic

/-!
# Runs of rules

What comes of a rule on a record is an answer, together with the comparisons that had to be made for
it. The operands of a group are run one after another until one of them decides the group, so the
run of the group is put together from those of its operands (`Run.join`). Main statements: the runs
of a group may be gathered in groups of their own (`Run.join_splice`), and the run of a negated
group is that of the other group of the negated operands (`Run.not_join`).
-/

namespace RecordRules

/-- An answer and the comparisons that were made for it, each with its result. -/
structure Run where
  held : Bool
  made : List (Comparison × Bool)

namespace Run

def not (run : Run) : Run := { run with held := !run.held }

/-- A run that goes on from some comparisons. -/
def after (made : List (Comparison × Bool)) (run : Run) : Run :=
  { run with made := made ++ run.made }

/-- Runs one after another, as long as they come out as `unit`, which leaves the group undecided. -/
def join (unit : Bool) : List Run → Run
  | [] => ⟨unit, []⟩
  | run :: rest => if run.held = unit then (join unit rest).after run.made else run

@[simp]
theorem not_not (run : Run) : run.not.not = run := by
  simp [not]

@[simp]
theorem after_nil (run : Run) : run.after [] = run := rfl

@[simp]
theorem held_after (made : List (Comparison × Bool)) (run : Run) :
    (run.after made).held = run.held := rfl

theorem after_append (made others : List (Comparison × Bool)) (run : Run) :
    run.after (made ++ others) = (run.after others).after made := by
  simp [after, List.append_assoc]

theorem not_after (made : List (Comparison × Bool)) (run : Run) :
    (run.after made).not = run.not.after made := rfl

variable {unit : Bool}

@[simp]
theorem join_singleton (unit : Bool) (run : Run) : join unit [run] = run := by
  rw [join]
  split
  · rename_i hunit
    rw [join, after, List.append_nil, ← hunit]
  · rfl

/-- The second part of a list is run if the first part leaves the group undecided. -/
theorem join_append (unit : Bool) (runs others : List Run) :
    join unit (runs ++ others) =
      if (join unit runs).held = unit then (join unit others).after (join unit runs).made
      else join unit runs := by
  induction runs with
  | nil => rw [List.nil_append, join, if_pos rfl, after_nil]
  | cons run rest ih =>
      rw [List.cons_append, join, join]
      by_cases hunit : run.held = unit
      · rw [if_pos hunit, if_pos hunit, held_after, ih]
        split
        · exact (after_append _ _ _).symm
        · rfl
      · rw [if_neg hunit, if_neg hunit, if_neg hunit]

/-- What stands in a group of the same kind might as well stand in its place. -/
theorem join_splice (unit : Bool) (before inner rest : List Run) :
    join unit (before ++ join unit inner :: rest) = join unit (before ++ (inner ++ rest)) := by
  have hinner : join unit (join unit inner :: rest) = join unit (inner ++ rest) := by
    rw [join_append unit inner rest, join]
  rw [join_append, join_append, hinner]

/-- A negated group is the other group of the negated operands, and it is run as far. -/
theorem not_join (unit : Bool) (runs : List Run) :
    (join unit runs).not = join (!unit) (runs.map not) := by
  induction runs with
  | nil => rfl
  | cons run rest ih =>
      have hopen : run.not.held = !unit ↔ run.held = unit := Bool.not_inj_iff
      rw [List.map_cons, join, join]
      by_cases hunit : run.held = unit
      · rw [if_pos hunit, if_pos (hopen.mpr hunit), not_after, ih]
        rfl
      · rw [if_neg hunit, if_neg (mt hopen.mp hunit)]

end Run

namespace Rule

mutual

/-- What comes of a rule, given the truth of its comparisons. -/
def run (truth : Comparison → Bool) : Rule → Run
  | .all rules => .join true (runs truth rules)
  | .any rules => .join false (runs truth rules)
  | .not rule => (rule.run truth).not
  | .compare comparison => ⟨truth comparison, [(comparison, truth comparison)]⟩

def runs (truth : Comparison → Bool) : List Rule → List Run
  | [] => []
  | rule :: rest => rule.run truth :: runs truth rest

end

@[simp]
theorem runs_eq (truth : Comparison → Bool) (rules : List Rule) :
    runs truth rules = rules.map (run truth) := by
  induction rules with
  | nil => rfl
  | cons rule rest ih => simp [runs, ih]

variable {truth : Comparison → Bool}

theorem run_all (rules : List Rule) :
    (all rules).run truth = .join true (rules.map (run truth)) := by
  rw [run, runs_eq]

theorem run_any (rules : List Rule) :
    (any rules).run truth = .join false (rules.map (run truth)) := by
  rw [run, runs_eq]

theorem run_not (rule : Rule) : rule.not.run truth = (rule.run truth).not := rfl

end Rule

end RecordRules
