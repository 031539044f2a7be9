import RecordRules.Proofs.Induction
import RecordRules.Proofs.Rule.Run
import Mathlib.Algebra.Ring.Parity

/-!
# Polarity

A comparison stands under some number of negations, and an even number of them cancels out. Main
statements: a rule that holds goes on to hold where no comparison changes against its polarity
(`Rule.holds_of_polarity`), and where no comparison changes at all, neither does anything else
(`Rule.run_congr`).
-/

namespace RecordRules.Rule

/-- A comparison stands somewhere in a rule, under so many negations. -/
inductive Occurs (comparison : Comparison) : (negations : Nat) → Rule → Prop where
  | here : Occurs comparison 0 (.compare comparison)
  | all {negations : Nat} {rules : List Rule} {rule : Rule} (hmem : rule ∈ rules)
      (hinner : Occurs comparison negations rule) : Occurs comparison negations (.all rules)
  | any {negations : Nat} {rules : List Rule} {rule : Rule} (hmem : rule ∈ rules)
      (hinner : Occurs comparison negations rule) : Occurs comparison negations (.any rules)
  | not {negations : Nat} {rule : Rule} (hinner : Occurs comparison negations rule) :
      Occurs comparison (negations + 1) (.not rule)

/-- There is no negation anywhere in a rule. -/
inductive NegationFree : Rule → Prop where
  | all {rules : List Rule} (hrules : ∀ rule ∈ rules, NegationFree rule) : NegationFree (.all rules)
  | any {rules : List Rule} (hrules : ∀ rule ∈ rules, NegationFree rule) : NegationFree (.any rules)
  | compare (comparison : Comparison) : NegationFree (.compare comparison)

variable {comparison : Comparison} {negations : Nat} {rule : Rule}

theorem Occurs.eq_zero (hoccurs : Occurs comparison negations rule) (hfree : rule.NegationFree) :
    negations = 0 := by
  induction hoccurs with
  | here => rfl
  | all hmem _ ih =>
      cases hfree with
      | all hrules => exact ih (hrules _ hmem)
  | any hmem _ ih =>
      cases hfree with
      | any hrules => exact ih (hrules _ hmem)
  | not => cases hfree

/-- A rule that holds goes on to hold if no comparison under an even number of negations ceases to
be true and none under an odd number becomes true. -/
theorem holds_of_polarity {truth other : Comparison → Bool}
    (heven : ∀ comparison negations, Occurs comparison negations rule → Even negations →
      truth comparison = true → other comparison = true)
    (hodd : ∀ comparison negations, Occurs comparison negations rule → Odd negations →
      other comparison = true → truth comparison = true)
    (hholds : rule.holds truth = true) : rule.holds other = true := by
  induction rule generalizing truth other with
  | all rules ih =>
      rw [holds, allHold_eq, List.all_eq_true] at hholds ⊢
      intro rule hmem
      exact ih rule hmem (fun comparison negations hinner => heven _ _ (.all hmem hinner))
        (fun comparison negations hinner => hodd _ _ (.all hmem hinner)) (hholds rule hmem)
  | any rules ih =>
      rw [holds, anyHolds_eq, List.any_eq_true] at hholds ⊢
      obtain ⟨rule, hmem, hrule⟩ := hholds
      refine ⟨rule, hmem, ?_⟩
      exact ih rule hmem (fun comparison negations hinner => heven _ _ (.any hmem hinner))
        (fun comparison negations hinner => hodd _ _ (.any hmem hinner)) hrule
  | not rule ih =>
      -- Under one more negation the polarity is the other one, so the two truths change places.
      rw [holds, Bool.not_eq_true'] at hholds ⊢
      by_contra hother
      rw [Bool.not_eq_false] at hother
      have htruth : rule.holds truth = true :=
        ih (fun comparison negations hinner hparity => hodd _ _ (.not hinner) hparity.add_one)
          (fun comparison negations hinner hparity => heven _ _ (.not hinner) hparity.add_one)
          hother
      rw [hholds] at htruth
      cases htruth
  | compare comparison => exact heven comparison 0 .here (by decide) hholds

/-- What comes of a rule depends on nothing but the truth of its comparisons. -/
theorem run_congr {truth other : Comparison → Bool}
    (hequal : ∀ comparison ∈ rule.comparisons, other comparison = truth comparison) :
    rule.run other = rule.run truth := by
  induction rule with
  | all rules ih =>
      rw [comparisons_all, List.forall_mem_flatMap] at hequal
      rw [run_all, run_all]
      exact congrArg (Run.join true)
        (List.map_congr_left fun rule hmem => ih rule hmem (hequal rule hmem))
  | any rules ih =>
      rw [comparisons_any, List.forall_mem_flatMap] at hequal
      rw [run_any, run_any]
      exact congrArg (Run.join false)
        (List.map_congr_left fun rule hmem => ih rule hmem (hequal rule hmem))
  | not rule ih => exact congrArg Run.not (ih hequal)
  | compare comparison =>
      rw [run, run, hequal comparison (List.mem_singleton_self comparison)]

end RecordRules.Rule
