import RecordRules.Proofs.Compile.Correct
import RecordRules.Proofs.Rule.Same

/-!
# Compiling equal rules

Whether a rule compiles depends on paths, operators, kinds and on which literals are missing, and
equal rules have all of these in common, so they fail with one error or both succeed. What the two
predicates answer can differ in one way only: a decimal that stands at the beginning of a text is
compared as it is written (`test_ne_of_written_decimals`). Main statement:
`Compiler.predicate_of_same`.
-/

namespace RecordRules

/-- So many tenths, for at most two digits. -/
def Decimal.tenths (count : Fin 100) : Decimal where
  negative := false
  mantissa := count
  scale := 1
  mantissa_lt := count.isLt.trans (by decide)
  scale_le := by decide

def Decimal.hundredths (count : Fin 1000) : Decimal where
  negative := false
  mantissa := count
  scale := 2
  mantissa_lt := count.isLt.trans (by decide)
  scale_le := by decide

variable {Index : Type} {Carrier : Index → Type} {schema : Schema Carrier} {root : Index}

theorem Comparison.agree_check {α : Type} {left right : Comparison}
    (hsame : left.same right = true) (field : Accessor α) :
    Agree (fun _ _ => True) (left.check field).outcome (right.check field).outcome := by
  obtain ⟨hpaths, hoperators, hliterals⟩ := same_iff.mp hsame
  have hkinds := (Literals.same_iff.mp hliterals).1
  have hempty := Literals.isEmpty_congr hliterals
  rw [outcome_check, outcome_check, hpaths, hoperators, hkinds, hempty]
  split
  · split
    · exact .error _
    · exact .ok trivial
  · exact .error _

namespace Schema

theorem agree_compileComparison {left right : Comparison} (hsame : left.same right = true) :
    Agree (fun _ _ => True) (schema.compileComparison root left).outcome
      (schema.compileComparison root right).outcome := by
  rw [outcome_compileComparison, outcome_compileComparison, (Comparison.same_iff.mp hsame).1]
  cases schema.resolve root right.path with
  | error error => exact .error error
  | ok field =>
      apply (Comparison.agree_check hsame field).bind
      intro check other _
      exact .ok trivial

/-- Equal rules fail with one error or both compile, at every depth. -/
theorem agree_compile {limit depth : Nat} {left right : Rule} (hsame : left.same right = true) :
    Agree (fun _ _ => True) (schema.compile root limit depth left).outcome
      (schema.compile root limit depth right).outcome := by
  induction depth generalizing left right with
  | zero =>
      rw [outcome_compile_zero, outcome_compile_zero]
      exact .error _
  | succ depth ih =>
      cases left with
      | all rules =>
          obtain ⟨others, rfl, hpairs⟩ := Rule.all_same_iff.mp hsame
          rw [outcome_compile_all, outcome_compile_all]
          have hoperands := hpairs.imp fun first second hpair => ih hpair
          exact (Agree.mapM hoperands).map fun _ _ _ => trivial
      | any rules =>
          obtain ⟨others, rfl, hpairs⟩ := Rule.any_same_iff.mp hsame
          rw [outcome_compile_any, outcome_compile_any]
          have hoperands := hpairs.imp fun first second hpair => ih hpair
          exact (Agree.mapM hoperands).map fun _ _ _ => trivial
      | not rule =>
          obtain ⟨inner, rfl, hinner⟩ := Rule.not_same_iff.mp hsame
          rw [outcome_compile_not, outcome_compile_not]
          exact (ih hinner).map fun _ _ _ => trivial
      | compare comparison =>
          obtain ⟨second, rfl, hcomparison⟩ := Rule.compare_same_iff.mp hsame
          exact agree_compileComparison hcomparison

end Schema

/-- The name of an account begins with the first of some decimals. -/
def nameStarts (decimals : List Decimal) : Rule :=
  .compare ⟨⟨"Name"⟩, .startsWith, .decimal decimals⟩

namespace Compiler

/-- **Equal rules behave equally**, but for decimals at the beginning of texts: they fail with one
error or both compile, and then they pass the same records if those decimals are written alike. -/
theorem predicate_of_same {left right : Rule} (hsame : left.same right = true)
    (compiler : Compiler) (schema : Schema Carrier) (root : Index) :
    (∃ error, (compiler.predicate schema root left).outcome = .error error ∧
        (compiler.predicate schema root right).outcome = .error error) ∨
      ∃ first second, (compiler.predicate schema root left).outcome = .ok first ∧
        (compiler.predicate schema root right).outcome = .ok second ∧
        (left.decimalStarts = right.decimalStarts →
          ∀ record, first.test record = second.test record) := by
  have hagree : Agree (fun _ _ => True) (compiler.predicate schema root left).outcome
      (compiler.predicate schema root right).outcome := by
    rw [outcome_predicate, outcome_predicate]
    exact (Schema.agree_compile hsame).map fun _ _ _ => trivial
  obtain hfails | ⟨first, second, hleft, hright, -⟩ := agree_iff.mp hagree
  · exact .inl hfails
  · refine .inr ⟨first, second, hleft, hright, ?_⟩
    intro hstarts record
    calc first.test record = left.holdsIn schema root record := test_eq_holdsIn hleft record
      _ = right.holdsIn schema root record := Rule.holdsIn_congr hsame hstarts schema root record
      _ = second.test record := (test_eq_holdsIn hright record).symm

/-- Of several decimals only the first one is looked for, so the others may be written differently
in a rule that behaves equally. -/
theorem predicate_of_same_further_decimals :
    ∃ first second,
      (Compiler.predicate {} accounts 0 (nameStarts [.tenths 15, .tenths 20])).outcome =
          .ok first ∧
        (Compiler.predicate {} accounts 0 (nameStarts [.tenths 15, .hundredths 200])).outcome =
          .ok second ∧
        ∀ record, first.test record = second.test record := by
  have hsame : (nameStarts [.tenths 15, .tenths 20]).same
      (nameStarts [.tenths 15, .hundredths 200]) = true := by decide
  obtain ⟨error, hfails, -⟩ | ⟨first, second, hleft, hright, htests⟩ :=
    predicate_of_same hsame {} accounts 0
  · cases hfails
  · exact ⟨first, second, hleft, hright, htests rfl⟩

/-- Equal rules need not pass the same records: `1.5` and `1.50` are one decimal and two texts. -/
theorem test_ne_of_written_decimals :
    ∃ first second, (nameStarts [.tenths 15]).same (nameStarts [.hundredths 150]) = true ∧
      (Compiler.predicate {} accounts 0 (nameStarts [.tenths 15])).outcome = .ok first ∧
      (Compiler.predicate {} accounts 0 (nameStarts [.hundredths 150])).outcome = .ok second ∧
      first.test (account "1.5" .absent) = true ∧ second.test (account "1.5" .absent) = false :=
  ⟨_, _, by decide, rfl, rfl, rfl, rfl⟩

end Compiler

end RecordRules
