import RecordRules.Proofs.Compile.Faults
import RecordRules.Proofs.Rule.Faults

/-!
# Compiling documents

A document is read to its end before anything of it is compiled, so what is wrong with the document,
be it with its last node, comes before what is wrong with the rule, be it with its first comparison.
Main statement: `Compiler.document_reports_faults`.
-/

namespace RecordRules

variable {Index : Type} {Carrier : Index → Type}

namespace Compiler

variable {compiler : Compiler} {document : Json}

/-- A document that cannot be read leaves nothing to compile and nothing to log. -/
theorem compileJson_of_read_error {error : CompileError}
    (hread : compiler.read document = .error error) (schema : Schema Carrier) (root : Index) :
    compiler.compileJson schema root document = .ofExcept (.error error) := by
  rw [compileJson, hread]
  rfl

theorem predicateOfJson_of_read_error {error : CompileError}
    (hread : compiler.read document = .error error) (schema : Schema Carrier) (root : Index) :
    compiler.predicateOfJson schema root document = .ofExcept (.error error) := by
  rw [predicateOfJson, hread]
  rfl

theorem failure?_predicateOfJson (compiler : Compiler) (schema : Schema Carrier) (root : Index)
    (document : Json) :
    failure? (compiler.predicateOfJson schema root document).outcome =
      match compiler.read document with
      | .ok rule => (schema.faults root compiler.maxDepth rule).head?
      | .error error => some error := by
  rw [outcome_predicateOfJson]
  cases compiler.read document with
  | error error => rfl
  | ok rule =>
      rw [ok_bind, outcome_predicate, failure?_map]
      exact Schema.failure?_compile_root compiler.maxDepth rule

/-- **A document is refused for its first fault**, and for a fault of the rule only if it has none
of its own. Until the rule is read, nothing is compiled. -/
theorem document_reports_faults (compiler : Compiler) (document : Json) (schema : Schema Carrier)
    (root : Index) :
    (∀ limit,
        ((∃ rule, Rule.ofJson document limit = .ok rule) ↔ Document.faults limit document = []) ∧
          ∀ error, Rule.ofJson document limit = .error error ↔
            (Document.faults limit document).head? = some error) ∧
      (∀ error, (Document.faults compiler.maxDepth document).head? = some error →
        compiler.compileJson schema root document = .ofExcept (.error error) ∧
          compiler.predicateOfJson schema root document = .ofExcept (.error error)) ∧
      ∀ error, (compiler.predicateOfJson schema root document).outcome = .error error ↔
        (Document.faults compiler.maxDepth document).head? = some error ∨
          ∃ rule, compiler.read document = .ok rule ∧
            (schema.faults root compiler.maxDepth rule).head? = some error := by
  have herror (limit : Nat) (error : CompileError) : Rule.ofJson document limit = .error error ↔
      (Document.faults limit document).head? = some error := by
    rw [← failure?_eq_some_iff, Document.failure?_ofJson]
  refine ⟨fun limit => ⟨?_, herror limit⟩, ?_, ?_⟩
  · rw [← failure?_eq_none_iff, Document.failure?_ofJson, List.head?_eq_none_iff]
  · intro error hfault
    have hread : compiler.read document = .error error := (herror _ error).mpr hfault
    exact ⟨compileJson_of_read_error hread schema root,
      predicateOfJson_of_read_error hread schema root⟩
  · intro error
    rw [← failure?_eq_some_iff, failure?_predicateOfJson, ← herror, ← read]
    cases compiler.read document <;> simp

/-- A document that can be read, of a comparison that cannot be compiled. -/
def unordered : Json := Comparison.toJson ⟨⟨"Name"⟩, .greaterThan, .int32 [1]⟩

/-- A comparison of an unknown kind that lists nothing. -/
def unlisted : Json :=
  .object [("$type", .string "predicate"), ("attribute", .string "Name"),
    ("operator", .string "equals"),
    ("value", .object [("valueType", .string "Guid"), ("values", .null)])]

def unorderedThenUnlisted : Json :=
  .object [("$type", .string "and"), ("statements", .array [unordered, unlisted])]

theorem faults_unorderedThenUnlisted :
    Document.faults 2 unorderedThenUnlisted =
      [.invalidProperty "values" .array, .unsupportedKind "Guid"] := by
  have hroot : Document.children unorderedThenUnlisted = [unordered, unlisted] := rfl
  have hleft : Document.children unordered = [] := rfl
  have hright : Document.children unlisted = [] := rfl
  have hnodes : Document.nodes 1 unorderedThenUnlisted =
      [(1, unorderedThenUnlisted), (2, unordered), (2, unlisted)] := by
    simp [Document.nodes_eq, hroot, hleft, hright]
  rw [Document.faults, hnodes]
  rfl

/-- The shape of the values comes before the kind that they are said to be of, and both come before
what is wrong with the comparison to the left. -/
theorem document_reports_faults_unorderedThenUnlisted :
    Compiler.predicateOfJson ⟨2⟩ accounts 0 unorderedThenUnlisted =
        .ofExcept (.error (.invalidProperty "values" .array)) ∧
      (Compiler.predicateOfJson ⟨2⟩ accounts 0 unordered).outcome =
        .error (.kindMismatch ⟨"Name"⟩ .greaterThan .string .int32) := by
  have hfirst : (Document.faults 2 unorderedThenUnlisted).head? =
      some (.invalidProperty "values" .array) := by
    rw [faults_unorderedThenUnlisted]
    rfl
  constructor
  · exact ((document_reports_faults ⟨2⟩ unorderedThenUnlisted accounts 0).2.1 _ hfirst).2
  · exact ((document_reports_faults ⟨2⟩ unordered accounts 0).2.2 _).mpr (.inr ⟨_, rfl, rfl⟩)

end Compiler

end RecordRules
