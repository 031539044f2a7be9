import RecordRules.Proofs.Compile.Run
import RecordRules.Proofs.Rule.Polarity
import RecordRules.Proofs.Schema.Absence

/-!
# Absence and answers

No operator is satisfied by a value that is not there. So a record that loses values can only lose
matches where a rule does not negate, and can only gain them where it does; what reads the same in
two records makes no difference between them at all. Main statement:
`Compiler.absence_removes_matches`.
-/

namespace RecordRules

/-! ### Comparisons -/

theorem Value.Exceeds.of_equals {value other literal : Value} (hequal : value.Equals other)
    (hexceeds : value.Exceeds literal) : other.Exceeds literal := by
  cases value <;> cases other <;> cases literal <;> simp_all [Equals, Exceeds]

theorem Operator.Says.of_equals {operator : Operator} {literals : Literals} {value other : Value}
    (hequal : value.Equals other) (hsatisfied : operator.Says literals value) :
    operator.Says literals other := by
  cases operator with
  | contains =>
      obtain ⟨literal, hmem, hliteral⟩ := hsatisfied
      exact ⟨literal, hmem, hequal.symm.trans hliteral⟩
  | equals =>
      obtain ⟨literal, hfirst, hliteral⟩ := hsatisfied
      exact ⟨literal, hfirst, hequal.symm.trans hliteral⟩
  | startsWith =>
      obtain ⟨literal, hfirst, rest, rfl⟩ := hsatisfied
      cases other with
      | string text => exact ⟨literal, hfirst, rest, congrArg Value.string hequal.symm⟩
      | int32 _ | int64 _ | decimal _ | bool _ => cases hequal
  | greaterThan =>
      obtain ⟨literal, hfirst, hliteral⟩ := hsatisfied
      exact ⟨literal, hfirst, hliteral.of_equals hequal⟩

variable {Index : Type} {Carrier : Index → Type} {schema : Schema Carrier} {root : Index}

namespace Comparison

/-- What the path of a comparison reads in a record. -/
def read? (comparison : Comparison) (schema : Schema Carrier) (root : Index)
    (record : Carrier root) : Option Value :=
  schema.walk? root comparison.path.segments record

variable {comparison : Comparison} {record other : Carrier root}

/-- A comparison that is true after a value has gone missing was true before. -/
theorem holdsIn_of_fades
    (hfades : Fades (comparison.read? schema root record) (comparison.read? schema root other))
    (hholds : comparison.holdsIn schema root other = true) :
    comparison.holdsIn schema root record = true := by
  rw [holdsIn_iff] at hholds ⊢
  obtain ⟨value, hread, hsatisfied⟩ := hholds
  rw [← read?] at hread
  rw [hread] at hfades
  generalize hbefore : comparison.read? schema root record = before at hfades
  cases hfades with
  | present hequal => exact ⟨_, hbefore, hsatisfied.of_equals hequal.symm⟩

theorem holdsIn_of_equal_reads
    (hequal : Option.Rel Value.Equals (comparison.read? schema root record)
      (comparison.read? schema root other)) :
    comparison.holdsIn schema root other = comparison.holdsIn schema root record := by
  have hback : Option.Rel Value.Equals (comparison.read? schema root other)
      (comparison.read? schema root record) := by
    generalize comparison.read? schema root record = before,
      comparison.read? schema root other = after at hequal
    cases hequal with
    | none => exact .none
    | some hvalues => exact .some hvalues.symm
  rw [Bool.eq_iff_iff]
  exact ⟨holdsIn_of_fades (.of_rel hequal), holdsIn_of_fades (.of_rel hback)⟩

end Comparison

namespace Compiler

/-- **Absence takes matches away, except under negations.** Let a record read, for every comparison
of a rule under an even number of negations, what another record reads or nothing, and the other
way round under an odd number: if the first record passes, so does the other one. In a rule without
negations this makes a record pass whenever it passes after values and records were taken out of
it, and records that read equal values pass or fail together, with one report. -/
theorem absence_removes_matches {compiler : Compiler} {rule : Rule}
    {predicate : Predicate (Carrier root)}
    (hcompile : (compiler.predicate schema root rule).outcome = .ok predicate) :
    (∀ record other,
      (∀ comparison negations, rule.Occurs comparison negations →
        (Even negations →
          Fades (comparison.read? schema root record) (comparison.read? schema root other)) ∧
        (Odd negations →
          Fades (comparison.read? schema root other) (comparison.read? schema root record))) →
        predicate.test other = true → predicate.test record = true) ∧
      (rule.NegationFree → ∀ record other, schema.Thinned root record other →
        predicate.test other = true → predicate.test record = true) ∧
      ∀ record other,
        (∀ comparison ∈ rule.comparisons, Option.Rel Value.Equals
          (comparison.read? schema root record) (comparison.read? schema root other)) →
          predicate.test other = predicate.test record ∧
            predicate.report other = predicate.report record := by
  have hpolarity (record other : Carrier root)
      (hfades : ∀ comparison negations, rule.Occurs comparison negations →
        (Even negations →
          Fades (comparison.read? schema root record) (comparison.read? schema root other)) ∧
        (Odd negations →
          Fades (comparison.read? schema root other) (comparison.read? schema root record)))
      (htest : predicate.test other = true) : predicate.test record = true := by
    rw [test_eq_holdsIn hcompile] at htest ⊢
    apply Rule.holds_of_polarity _ _ htest
    · intro comparison negations hoccurs heven
      exact Comparison.holdsIn_of_fades ((hfades comparison negations hoccurs).1 heven)
    · intro comparison negations hoccurs hodd
      exact Comparison.holdsIn_of_fades ((hfades comparison negations hoccurs).2 hodd)
  refine ⟨hpolarity, ?_, ?_⟩
  · intro hfree record other hthinned
    apply hpolarity record other
    intro comparison negations hoccurs
    rw [hoccurs.eq_zero hfree]
    exact ⟨fun _ => Schema.walk?_of_thinned hthinned _, nofun⟩
  · intro record other hequal
    have hrun : (rule.run fun comparison => comparison.holdsIn schema root other) =
        rule.run fun comparison => comparison.holdsIn schema root record :=
      Rule.run_congr fun comparison hmem =>
        Comparison.holdsIn_of_equal_reads (hequal comparison hmem)
    obtain ⟨htest, hreport⟩ := predicate_run hcompile record
    obtain ⟨htestOther, hreportOther⟩ := predicate_run hcompile other
    rw [htest, htestOther, hreport, hreportOther, hrun]
    exact ⟨rfl, rfl⟩

/-- An account of that name, as long as no parent of it is called `root`. -/
def leafOutsideRoot : Rule :=
  .all [.compare ⟨⟨"Name"⟩, .equals, .string ["leaf"]⟩,
    .not (.compare ⟨⟨"Parent.Name"⟩, .equals, .string ["root"]⟩)]

/-- To lose its parent does no harm to an account where the parent is mentioned under a negation
only, and an account that passes without a parent passes with one where no negation is. -/
theorem absence_removes_matches_unparented :
    ∃ outside named,
      (Compiler.predicate {} accounts 0 leafOutsideRoot).outcome = .ok outside ∧
      (Compiler.predicate {} accounts 0
        (.compare ⟨⟨"Name"⟩, .startsWith, .string ["le"]⟩)).outcome = .ok named ∧
      outside.test (account "leaf" (.row (account "twig" .absent))) = true ∧
      outside.test (account "leaf" .absent) = true ∧
      accounts.Thinned 0 (account "leaf" (.row (account "twig" .absent)))
        (account "leaf" .absent) ∧
      named.test (account "leaf" (.row (account "twig" .absent))) = true ∧
      named.report (account "leaf" .absent) =
        named.report (account "leaf" (.row (account "twig" .absent))) := by
  obtain ⟨outside, houtside⟩ : ∃ outside,
      (Compiler.predicate {} accounts 0 leafOutsideRoot).outcome = .ok outside := ⟨_, rfl⟩
  obtain ⟨named, hnamed, hleaf⟩ : ∃ named, (Compiler.predicate {} accounts 0
      (.compare ⟨⟨"Name"⟩, .startsWith, .string ["le"]⟩)).outcome = .ok named ∧
        named.test (account "leaf" .absent) = true := ⟨_, rfl, rfl⟩
  have hparent : outside.test (account "leaf" (.row (account "twig" .absent))) = true := by
    rw [test_eq_holdsIn houtside]
    decide
  have hcleared : accounts.Thinned 0 (account "leaf" (.row (account "twig" .absent)))
      (account "leaf" .absent) :=
    Table.thinned_of_cleared _ 0 (.cons (.value _) (.cons (.absent _) .nil))
  obtain ⟨hpolarity, -, -⟩ := absence_removes_matches houtside
  obtain ⟨-, hthinned, hequal⟩ := absence_removes_matches hnamed
  refine ⟨outside, named, houtside, hnamed, hparent, ?_, hcleared,
    hthinned (.compare _) _ _ hcleared hleaf, (hequal _ _ ?_).2⟩
  · refine hpolarity _ _ (fun comparison negations hoccurs => ?_) hparent
    cases hoccurs with
    | all hmem hinner =>
        rw [List.mem_pair] at hmem
        rcases hmem with rfl | rfl
        · cases hinner
          exact ⟨fun _ => .refl _, nofun⟩
        · obtain - | - | - | hcomparison := hinner
          cases hcomparison
          exact ⟨fun heven => absurd heven (by decide), fun _ => .absent _⟩
  · exact List.forall_mem_singleton.mpr (.some rfl)

end Compiler

end RecordRules
