import RecordRules.Proofs.Compile.Run
import RecordRules.Proofs.Rule.Rearrangement

/-!
# Compiling rearranged rules

The order and the number of operands and literals decide which error is met first and how far a
group is run, but neither whether a rule compiles nor what it answers. Main statement:
`Compiler.predicate_of_rearranged`.
-/

namespace RecordRules

variable {Index : Type} {Carrier : Index → Type}

/-- Whether there are literals is no concern of a comparison with any of them. -/
theorem Comparison.Rearranged.faults_eq {comparison other : Comparison}
    (hrearranged : comparison.Rearranged other) (schema : Schema Carrier) (root : Index) :
    schema.comparisonFaults root other = schema.comparisonFaults root comparison := by
  obtain ⟨path, -⟩ := hrearranged
  simp [Schema.comparisonFaults, faultsFor]

namespace Compiler

/-- **Order and repetition do not matter to the answer.** Operands and literals may change places
and be repeated in any groups and comparisons of a rule: it compiles as it did before, or fails as
it did before, and it gives the same answer on every record. -/
theorem predicate_of_rearranged {rule other : Rule} (hrearranged : rule.Rearranged other)
    (compiler : Compiler) (schema : Schema Carrier) (root : Index) :
    ((∃ predicate, (compiler.predicate schema root rule).outcome = .ok predicate) ↔
        ∃ rearranged, (compiler.predicate schema root other).outcome = .ok rearranged) ∧
      ∀ predicate rearranged, (compiler.predicate schema root rule).outcome = .ok predicate →
        (compiler.predicate schema root other).outcome = .ok rearranged →
          ∀ record, rearranged.test record = predicate.test record := by
  constructor
  · have hsound (comparison other : Comparison) (hliterals : comparison.Rearranged other) :
        schema.comparisonFaults root comparison = [] ↔ schema.comparisonFaults root other = [] := by
      rw [hliterals.faults_eq]
    rw [predicate_compiles_iff, predicate_compiles_iff, hrearranged.height_eq,
      hrearranged.forall_comparisons_iff hsound]
  · intro predicate rearranged hpredicate hother record
    rw [test_eq_holdsIn hpredicate, test_eq_holdsIn hother, hrearranged.holdsIn_eq]

def named (names : List String) : Rule := .compare ⟨⟨"Name"⟩, .contains, .string names⟩

theorem rearranged_named :
    Rule.Rearranged (.all [notRoot, named ["root", "leaf"]])
      (.all [named ["leaf", "root", "leaf"], notRoot, notRoot]) := by
  have hliterals : SameItems ["root", "leaf"] ["leaf", "root", "leaf"] := by
    simp [SameItems, or_comm]
  have hnames : Rule.Rearrangement (.all [notRoot, named ["root", "leaf"]])
      (.all [notRoot, named ["leaf", "root", "leaf"]]) :=
    .all [notRoot] [] (.literals (.contains ⟨"Name"⟩ hliterals))
  have hswap : Rule.Rearrangement (.all [notRoot, named ["leaf", "root", "leaf"]])
      (.all [named ["leaf", "root", "leaf"], notRoot]) :=
    .operandsOfAll (.of_perm (.swap _ _ []))
  have hrepeat : Rule.Rearrangement (.all [named ["leaf", "root", "leaf"], notRoot])
      (.all [named ["leaf", "root", "leaf"], notRoot, notRoot]) := by
    have hmem : notRoot ∈ [named ["leaf", "root", "leaf"]] ++ [notRoot] :=
      List.mem_append_right _ List.mem_cons_self
    exact .operandsOfAll (.insert hmem)
  exact ((Relation.ReflTransGen.single hnames).tail hswap).tail hrepeat

theorem predicate_of_rearranged_named :
    ∃ predicate rearranged,
      (Compiler.predicate ⟨3⟩ accounts 0 (.all [notRoot, named ["root", "leaf"]])).outcome =
        .ok predicate ∧
      (Compiler.predicate ⟨3⟩ accounts 0
        (.all [named ["leaf", "root", "leaf"], notRoot, notRoot])).outcome = .ok rearranged ∧
      ∀ record, rearranged.test record = predicate.test record := by
  obtain ⟨predicate, hpredicate⟩ : ∃ predicate, (Compiler.predicate ⟨3⟩ accounts 0
      (.all [notRoot, named ["root", "leaf"]])).outcome = .ok predicate := ⟨_, rfl⟩
  obtain ⟨hcompiles, htest⟩ := predicate_of_rearranged rearranged_named ⟨3⟩ accounts 0
  obtain ⟨rearranged, hrearranged⟩ := hcompiles.mp ⟨predicate, hpredicate⟩
  exact ⟨predicate, rearranged, hpredicate, hrearranged,
    htest predicate rearranged hpredicate hrearranged⟩

end Compiler

end RecordRules
