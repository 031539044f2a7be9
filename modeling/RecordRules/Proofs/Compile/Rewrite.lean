import RecordRules.Proofs.Compile.Run
import RecordRules.Proofs.Rule.Rewrite

/-!
# Compiling rewritten rules

A rule that was rewritten by the laws of negation and of nested groups compiles unless it has become
too deep, and it cannot be told from the rule that it was by any answer or report. Main statement:
`Compiler.predicate_of_rewrites`.
-/

namespace RecordRules

variable {Index : Type} {Carrier : Index → Type}

namespace Compiler

/-- **Rewriting changes neither answers nor reports.** A rule that compiles can be rewritten by any
number of laws at any places: it still compiles, exactly if the limit allows for its new height, and
then it gives the same answer and the same report on every record. -/
theorem predicate_of_rewrites {rule other : Rule} (hrewrites : rule.Rewrites other)
    (compiler : Compiler) (schema : Schema Carrier) (root : Index)
    {predicate : Predicate (Carrier root)}
    (hcompile : (compiler.predicate schema root rule).outcome = .ok predicate) :
    ((∃ rewritten, (compiler.predicate schema root other).outcome = .ok rewritten) ↔
        other.height ≤ compiler.maxDepth) ∧
      ∀ rewritten, (compiler.predicate schema root other).outcome = .ok rewritten →
        ∀ record, rewritten.test record = predicate.test record ∧
          rewritten.report record = predicate.report record := by
  constructor
  · have hsound := (predicate_compiles_iff.mp ⟨predicate, hcompile⟩).2
    rw [predicate_compiles_iff, hrewrites.comparisons_eq, and_iff_left hsound]
  · intro rewritten hrewritten record
    obtain ⟨htest, hreport⟩ := predicate_run hcompile record
    obtain ⟨htestOther, hreportOther⟩ := predicate_run hrewritten record
    rw [htest, hreport, htestOther, hreportOther, hrewrites.run_eq]
    exact ⟨rfl, rfl⟩

def namedRoot : Rule := .compare ⟨⟨"Name"⟩, .equals, .string ["root"]⟩

def childOfRoot : Rule := .compare ⟨⟨"Parent.Name"⟩, .startsWith, .string ["ro"]⟩

/-- Neither one nor the other of two negations, the first of them in a group of its own. -/
def neitherFails : Rule := .not (.any [.all [.not namedRoot], .not childOfRoot])

theorem rewrites_neitherFails : neitherFails.Rewrites (.all [namedRoot, childOfRoot]) := by
  have hungroup : Rule.Rewrite neitherFails (.not (.any [.not namedRoot, .not childOfRoot])) :=
    .not (.any [] [.not childOfRoot] (.forward (.oneOfAll (.not namedRoot))))
  have hnegate : Rule.Rewrite (.not (.any [.not namedRoot, .not childOfRoot]))
      (.all [.not (.not namedRoot), .not (.not childOfRoot)]) := .forward (.notAny _)
  have hfirst : Rule.Rewrite (.all [.not (.not namedRoot), .not (.not childOfRoot)])
      (.all [namedRoot, .not (.not childOfRoot)]) :=
    .all [] [.not (.not childOfRoot)] (.forward (.notNot namedRoot))
  have hsecond : Rule.Rewrite (.all [namedRoot, .not (.not childOfRoot)])
      (.all [namedRoot, childOfRoot]) := .all [namedRoot] [] (.forward (.notNot childOfRoot))
  exact (((Relation.ReflTransGen.single hungroup).tail hnegate).tail hfirst).tail hsecond

/-- Five levels become two. -/
theorem predicate_of_rewrites_neitherFails :
    ∃ predicate rewritten, (Compiler.predicate ⟨5⟩ accounts 0 neitherFails).outcome =
        .ok predicate ∧
      (Compiler.predicate ⟨5⟩ accounts 0 (.all [namedRoot, childOfRoot])).outcome =
        .ok rewritten ∧
      ∀ record, rewritten.test record = predicate.test record ∧
        rewritten.report record = predicate.report record := by
  obtain ⟨predicate, hcompile⟩ : ∃ predicate,
      (Compiler.predicate ⟨5⟩ accounts 0 neitherFails).outcome = .ok predicate := ⟨_, rfl⟩
  obtain ⟨hcompiles, hagree⟩ := predicate_of_rewrites rewrites_neitherFails ⟨5⟩ accounts 0 hcompile
  obtain ⟨rewritten, hrewritten⟩ := hcompiles.mpr (by decide)
  exact ⟨predicate, rewritten, hcompile, hrewritten, hagree rewritten hrewritten⟩

end Compiler

end RecordRules
