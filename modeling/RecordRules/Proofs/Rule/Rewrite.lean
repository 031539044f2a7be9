import RecordRules.Proofs.Rule.Run
import Mathlib.Data.List.Flatten
import Mathlib.Logic.Relation

/-!
# Rewriting rules

The laws of negation and of nested groups, each of which may be used in either direction, anywhere
in a rule and any number of times. A rule may become deeper or less deep, but it makes the same
comparisons in the same order and comes to the same answer. Main statements: `Rewrites.run_eq` and
`Rewrites.comparisons_eq`.
-/

namespace RecordRules

namespace Rule

/-- The laws by which a rule can be written in another way. A group inside a group of the same kind
gives its place to its own operands, so an empty one vanishes. -/
inductive Law : Rule → Rule → Prop where
  | notNot (rule : Rule) : Law (.not (.not rule)) rule
  | notAll (rules : List Rule) : Law (.not (.all rules)) (.any (rules.map .not))
  | notAny (rules : List Rule) : Law (.not (.any rules)) (.all (rules.map .not))
  | spliceAll (before inner rest : List Rule) :
      Law (.all (before ++ .all inner :: rest)) (.all (before ++ (inner ++ rest)))
  | spliceAny (before inner rest : List Rule) :
      Law (.any (before ++ .any inner :: rest)) (.any (before ++ (inner ++ rest)))
  | oneOfAll (rule : Rule) : Law (.all [rule]) rule
  | oneOfAny (rule : Rule) : Law (.any [rule]) rule

/-- One law used once, somewhere in a rule. -/
inductive Rewrite : Rule → Rule → Prop where
  | forward {rule other : Rule} (hlaw : Law rule other) : Rewrite rule other
  | backward {rule other : Rule} (hlaw : Law rule other) : Rewrite other rule
  | all (before rest : List Rule) {rule other : Rule} (hinner : Rewrite rule other) :
      Rewrite (.all (before ++ rule :: rest)) (.all (before ++ other :: rest))
  | any (before rest : List Rule) {rule other : Rule} (hinner : Rewrite rule other) :
      Rewrite (.any (before ++ rule :: rest)) (.any (before ++ other :: rest))
  | not {rule other : Rule} (hinner : Rewrite rule other) : Rewrite (.not rule) (.not other)

/-- Any number of rewrites, one after another. -/
def Rewrites : Rule → Rule → Prop := Relation.ReflTransGen Rewrite

variable {rule other : Rule}

/-! ### Runs -/

theorem Law.run_eq (hlaw : Law rule other) (truth : Comparison → Bool) :
    other.run truth = rule.run truth := by
  have hnegations (rules : List Rule) :
      (rules.map Rule.not).map (run truth) = (rules.map (run truth)).map Run.not := by
    rw [List.map_map, List.map_map]
    rfl
  cases hlaw with
  | notNot => rw [run_not, run_not, Run.not_not]
  | notAll rules =>
      rw [run_any, run_not, run_all, Run.not_join, hnegations]
      rfl
  | notAny rules =>
      rw [run_all, run_not, run_any, Run.not_join, hnegations]
      rfl
  | spliceAll before inner rest =>
      simp only [run_all, List.map_append, List.map_cons, Run.join_splice]
  | spliceAny before inner rest =>
      simp only [run_any, List.map_append, List.map_cons, Run.join_splice]
  | oneOfAll => rw [run_all, List.map_singleton, Run.join_singleton]
  | oneOfAny => rw [run_any, List.map_singleton, Run.join_singleton]

/-- A rewrite changes nothing around the place where it is made. -/
theorem Rewrite.run_eq (hrewrite : Rewrite rule other) (truth : Comparison → Bool) :
    other.run truth = rule.run truth := by
  induction hrewrite with
  | forward hlaw => exact hlaw.run_eq truth
  | backward hlaw => exact (hlaw.run_eq truth).symm
  | all before rest _ ih => simp only [run_all, List.map_append, List.map_cons, ih]
  | any before rest _ ih => simp only [run_any, List.map_append, List.map_cons, ih]
  | not _ ih => rw [run_not, run_not, ih]

theorem Rewrites.run_eq (hrewrites : Rewrites rule other) (truth : Comparison → Bool) :
    other.run truth = rule.run truth := by
  induction hrewrites with
  | refl => rfl
  | tail _ hrewrite ih => exact (hrewrite.run_eq truth).trans ih

/-! ### Comparisons -/

theorem Law.comparisons_eq (hlaw : Law rule other) : other.comparisons = rule.comparisons := by
  have hnegations (rules : List Rule) :
      (rules.map Rule.not).flatMap comparisons = rules.flatMap comparisons := by
    rw [List.flatMap_map]
    rfl
  cases hlaw with
  | notNot => rfl
  | notAll rules =>
      rw [comparisons_any, hnegations]
      exact (comparisons_all rules).symm
  | notAny rules =>
      rw [comparisons_all, hnegations]
      exact (comparisons_any rules).symm
  | spliceAll before inner rest =>
      simp only [comparisons_all, List.flatMap_append, List.flatMap_cons]
  | spliceAny before inner rest =>
      simp only [comparisons_any, List.flatMap_append, List.flatMap_cons]
  | oneOfAll => rw [comparisons_all, List.flatMap_singleton]
  | oneOfAny => rw [comparisons_any, List.flatMap_singleton]

theorem Rewrite.comparisons_eq (hrewrite : Rewrite rule other) :
    other.comparisons = rule.comparisons := by
  induction hrewrite with
  | forward hlaw => exact hlaw.comparisons_eq
  | backward hlaw => exact hlaw.comparisons_eq.symm
  | all before rest _ ih =>
      simp only [comparisons_all, List.flatMap_append, List.flatMap_cons, ih]
  | any before rest _ ih =>
      simp only [comparisons_any, List.flatMap_append, List.flatMap_cons, ih]
  | not _ ih => exact ih

theorem Rewrites.comparisons_eq (hrewrites : Rewrites rule other) :
    other.comparisons = rule.comparisons := by
  induction hrewrites with
  | refl => rfl
  | tail _ hrewrite ih => exact hrewrite.comparisons_eq.trans ih

end Rule

end RecordRules
