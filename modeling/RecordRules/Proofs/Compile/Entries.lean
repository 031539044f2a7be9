import RecordRules.Compile.Load
import RecordRules.Proofs.Compile.Run
import RecordRules.Proofs.Json.Reading
import RecordRules.Proofs.Rule.Reread
import RecordRules.Proofs.Rule.RoundTrip

/-!
# Documents and their texts

A rule can be given as a document or as the text of one. The text is read by a reader that has a
limit of its own for nested containers, whatever nesting of rules a compiler allows, so the text of
a document that compiles can be refused (`predicateOfText_conjoined`). Apart from that both ways
lead to one predicate. Main statement: `Compiler.predicateOfText_text`.
-/

namespace RecordRules

open Json (depthLimit)

variable {Index : Type} {Carrier : Index → Type}

/-- What is entered as a document can be entered as a text, unless the text is refused. -/
theorem enter_text {α : Type} {enter : Json → Except CompileError α} {document : Json} {result : α}
    (hordered : document.isOrdered = true)
    (hrereads : ∀ read, document.Rereads read → enter read = .ok result) :
    let entered : Except LoadError α := (Json.ofText document.text).mapError .json >>=
      fun read => (enter read).mapError .compile
    (entered = .ok result ↔ document.Readable) ∧
      (¬document.Readable → ∃ error, entered = .error (.json error)) := by
  intro entered
  obtain ⟨hreadable, read, hread, htext⟩ | ⟨hunreadable, error, htext⟩ := Json.ofText_text hordered
  · have hentered : entered = .ok result := by
      simp only [entered, htext]
      exact mapError_eq_ok_iff.mpr (hrereads read hread)
    exact ⟨iff_of_true hentered hreadable, absurd hreadable⟩
  · have hentered : entered = .error (.json error) := by
      simp only [entered, htext]
      rfl
    have hne : entered ≠ .ok result := by
      rw [hentered]
      intro hok
      cases hok
    exact ⟨iff_of_false hne hunreadable, fun _ => ⟨error, hentered⟩⟩

theorem Rule.ofText_eq (text : String) :
    Rule.ofText text =
      (Json.ofText text).mapError .json >>= fun document =>
        (Rule.ofJson document).mapError .compile := rfl

/-- A rule comes back from the text of its document, unless the text is refused. -/
theorem enter_ofText {document : Json} {rule : Rule} (hordered : document.isOrdered = true)
    (hrule : Rule.ofJson document = .ok rule) :
    (Rule.ofText document.text = .ok rule ↔ document.Readable) ∧
      (¬document.Readable → ∃ error, Rule.ofText document.text = .error (.json error)) := by
  rw [Rule.ofText_eq]
  apply enter_text hordered
  intro read hread
  exact Document.read_of_rereads hread hrule

/-! ### Rules in layers -/

/-- The name of an account is the one given. -/
def nameIs (name : String) : Comparison := ⟨⟨"Name"⟩, .equals, .string [name]⟩

theorem comparisonFaults_nameIs (name : String) :
    accounts.comparisonFaults 0 (nameIs name) = [] := by
  obtain ⟨field, hfield, hkind⟩ : ∃ field, accounts.resolve 0 ⟨"Name"⟩ = .ok field ∧
      field.kind = .string := ⟨_, rfl, rfl⟩
  rw [Schema.comparisonFaults, nameIs, hfield]
  dsimp only
  rw [hkind]
  rfl

namespace Rule

/-- Each layer is a disjunction within a conjunction, with a negation beside it. -/
def layered : (count : Nat) → Rule
  | 0 => .compare (nameIs "root")
  | count + 1 =>
    .all [.not (.compare (nameIs "leaf")), .any [layered count, .compare (nameIs "root")]]

theorem height_layered (count : Nat) : (layered count).height = 2 * count + 1 := by
  induction count with
  | zero => rfl
  | succ count ih =>
      simp only [layered, height, heights, ih]
      omega

theorem nesting_toJson_layered (count : Nat) :
    (layered count).toJson.nesting = 4 * count + 3 := by
  induction count with
  | zero => exact Comparison.nesting_toJson _
  | succ count ih =>
      have hnot : (Rule.not (.compare (nameIs "leaf"))).toJson.nesting = 4 := by
        rw [toJson_not]
        simp [Json.nesting, Json.membersNesting, toJson, Comparison.nesting_toJson]
      have hany : (Rule.any [layered count, .compare (nameIs "root")]).toJson.nesting =
          4 * count + 5 := by
        simp only [toJson, toJsons, nesting_groupJson, Json.elementsNesting, ih,
          Comparison.nesting_toJson]
        omega
      rw [layered, toJson, nesting_groupJson, toJsons, toJsons, toJsons]
      simp only [Json.elementsNesting, hnot, hany]
      omega

theorem eq_nameIs_of_mem_layered {count : Nat} {comparison : Comparison}
    (hcomparison : comparison ∈ (layered count).comparisons) :
    ∃ name, comparison = nameIs name := by
  induction count with
  | zero => exact ⟨"root", List.mem_singleton.mp hcomparison⟩
  | succ count ih =>
      simp only [layered, comparisons, comparisonsOf, List.append_nil, List.mem_append,
        List.mem_singleton] at hcomparison
      rcases hcomparison with rfl | hinner | rfl
      · exact ⟨"leaf", rfl⟩
      · exact ih hinner
      · exact ⟨"root", rfl⟩

/-- No literal of a layered rule is a zero. -/
theorem unsignZeros_layered (count : Nat) : (layered count).unsignZeros = layered count := by
  apply unsignZeros_eq_self
  intro comparison hcomparison literal hliteral
  obtain ⟨name, rfl⟩ := eq_nameIs_of_mem_layered hcomparison
  rw [List.mem_singleton.mp hliteral]
  rfl

end Rule

/-! ### Documents and texts -/

namespace Compiler

theorem outcome_predicateOfText (compiler : Compiler) (schema : Schema Carrier) (root : Index)
    (text : String) :
    (compiler.predicateOfText schema root text).outcome =
      (Json.ofText text).mapError .json >>= fun document =>
        (compiler.predicateOfJson schema root document).outcome.mapError .compile := by
  rw [predicateOfText, Logged.outcome_bind]
  rfl

/-- A rule that is not too deep compiles like its document, whose zeros have no sign. -/
theorem predicateOfJson_toJson (compiler : Compiler) {schema : Schema Carrier} {root : Index}
    {rule : Rule} (hdepth : rule.height ≤ compiler.maxDepth) :
    (compiler.predicateOfJson schema root rule.toJson).outcome =
      (compiler.predicate schema root rule.unsignZeros).outcome := by
  rw [outcome_predicateOfJson, Compiler.read, Rule.ofJson_toJson_of_height_le hdepth, ok_bind]

theorem predicateOfJson_of_rereads {compiler : Compiler} {schema : Schema Carrier} {root : Index}
    {document read : Json} {predicate : Predicate (Carrier root)}
    (hread : document.Rereads read)
    (hpredicate : (compiler.predicateOfJson schema root document).outcome = .ok predicate) :
    (compiler.predicateOfJson schema root read).outcome = .ok predicate := by
  rw [outcome_predicateOfJson] at hpredicate ⊢
  obtain ⟨rule, hrule, hcompiled⟩ := bind_eq_ok_iff.mp hpredicate
  exact bind_eq_ok_iff.mpr ⟨rule, Document.read_of_rereads hread hrule, hcompiled⟩

/-- A predicate comes back from the text of its document, unless the text is refused. -/
theorem enter_predicateOfText {compiler : Compiler} {schema : Schema Carrier} {root : Index}
    {document : Json} {predicate : Predicate (Carrier root)}
    (hordered : document.isOrdered = true)
    (hpredicate : (compiler.predicateOfJson schema root document).outcome = .ok predicate) :
    ((compiler.predicateOfText schema root document.text).outcome = .ok predicate ↔
        document.Readable) ∧
      (¬document.Readable → ∃ error,
        (compiler.predicateOfText schema root document.text).outcome = .error (.json error)) := by
  rw [outcome_predicateOfText]
  apply enter_text hordered
  intro read hread
  exact predicateOfJson_of_rereads hread hpredicate

/-- **A document and its text lead to one predicate and to one rule** exactly if the reader of texts
has room for the containers of the document and finds no number in it where there is none; else the
text is refused before any rule is looked at. -/
theorem predicateOfText_text {document : Json} (hordered : document.isOrdered = true)
    (compiler : Compiler) (schema : Schema Carrier) (root : Index) :
    (∀ predicate, (compiler.predicateOfJson schema root document).outcome = .ok predicate →
      ((compiler.predicateOfText schema root document.text).outcome = .ok predicate ↔
          document.Readable) ∧
        (¬document.Readable → ∃ error,
          (compiler.predicateOfText schema root document.text).outcome = .error (.json error))) ∧
      ∀ rule, Rule.ofJson document = .ok rule →
        (Rule.ofText document.text = .ok rule ↔ document.Readable) ∧
          (¬document.Readable → ∃ error, Rule.ofText document.text = .error (.json error)) := by
  constructor
  · intro predicate hpredicate
    exact enter_predicateOfText hordered hpredicate
  · intro rule hrule
    exact enter_ofText hordered hrule

/-- A rule of 31 layers is compiled from its text, which nests as many containers as the reader
allows. -/
theorem predicateOfText_text_layered :
    (Rule.layered 31).height = 63 ∧ (Rule.layered 31).toJson.nesting = depthLimit ∧
      (∃ predicate,
        (Compiler.predicateOfJson {} accounts 0 (Rule.layered 31).toJson).outcome =
            .ok predicate ∧
          (Compiler.predicateOfText {} accounts 0 (Rule.layered 31).toJson.text).outcome =
            .ok predicate) ∧
      Rule.ofText (Rule.layered 31).toJson.text = .ok (Rule.layered 31) := by
  have hheight : (Rule.layered 31).height = 63 := Rule.height_layered 31
  have hreadable : (Rule.layered 31).toJson.Readable :=
    Rule.readable_toJson (Nat.le_of_eq hheight)
  have hdepth : (Rule.layered 31).height ≤ Rule.defaultMaxDepth := by
    rw [hheight]
    decide
  have hrule : Rule.ofJson (Rule.layered 31).toJson = .ok (Rule.layered 31) := by
    rw [Rule.ofJson_toJson_of_height_le hdepth, Rule.unsignZeros_layered]
  obtain ⟨predicate, hpredicate⟩ : ∃ predicate,
      (Compiler.predicateOfJson {} accounts 0 (Rule.layered 31).toJson).outcome =
        .ok predicate := by
    rw [predicateOfJson_toJson {} hdepth, Rule.unsignZeros_layered]
    refine predicate_compiles_iff.mpr ⟨hdepth, fun comparison hcomparison => ?_⟩
    obtain ⟨name, rfl⟩ := Rule.eq_nameIs_of_mem_layered hcomparison
    exact comparisonFaults_nameIs name
  obtain ⟨hpredicates, hrules⟩ :=
    predicateOfText_text (Rule.isOrdered_toJson (Rule.layered 31)) {} accounts 0
  exact ⟨hheight, Rule.nesting_toJson_layered 31,
    ⟨predicate, hpredicate, (hpredicates predicate hpredicate).1.mpr hreadable⟩,
    (hrules _ hrule).1.mpr hreadable⟩

/-- **What was read from a text can be printed and read again.** The document of a text is ordered,
so its own text leads to the predicate and to the rule of the first one, unless it is refused. -/
theorem predicateOfText_reprinted {text : String} {document : Json}
    (hdocument : Json.ofText text = .ok document) (compiler : Compiler) (schema : Schema Carrier)
    (root : Index) :
    (∀ predicate, (compiler.predicateOfText schema root text).outcome = .ok predicate →
      ((compiler.predicateOfText schema root document.text).outcome = .ok predicate ↔
        document.Readable)) ∧
      ∀ rule, Rule.ofText text = .ok rule →
        (Rule.ofText document.text = .ok rule ↔ document.Readable) := by
  have hordered : document.isOrdered = true := Json.isOrdered_of_readWithin hdocument
  constructor
  · intro predicate hpredicate
    rw [outcome_predicateOfText, hdocument] at hpredicate
    exact (enter_predicateOfText hordered (mapError_eq_ok_iff.mp hpredicate)).1
  · intro rule hrule
    rw [Rule.ofText_eq, hdocument] at hrule
    exact (enter_ofText hordered (mapError_eq_ok_iff.mp hrule)).1

/-- Up to height 63 it does not matter how a rule is written down. -/
theorem predicateOfText_toJson {compiler : Compiler} {schema : Schema Carrier} {root : Index}
    {rule : Rule} (hheight : rule.height ≤ 63) {predicate : Predicate (Carrier root)}
    (hpredicate : (compiler.predicateOfJson schema root rule.toJson).outcome = .ok predicate) :
    (compiler.predicateOfText schema root rule.toJson.text).outcome = .ok predicate :=
  (enter_predicateOfText (Rule.isOrdered_toJson rule) hpredicate).1.mpr
    (Rule.readable_toJson hheight)

end Compiler

/-! ### Nested conjunctions -/

/-- A rule inside so many conjunctions of one. -/
def Rule.conjoined (rule : Rule) : (count : Nat) → Rule
  | 0 => rule
  | count + 1 => .all [rule.conjoined count]

namespace Rule

theorem height_conjoined (rule : Rule) (count : Nat) :
    (rule.conjoined count).height = count + rule.height := by
  induction count with
  | zero => rw [conjoined, Nat.zero_add]
  | succ count ih =>
      rw [conjoined, height, heights, heights, ih]
      omega

theorem nesting_toJson_conjoined (rule : Rule) (count : Nat) :
    (rule.conjoined count).toJson.nesting = 2 * count + rule.toJson.nesting := by
  induction count with
  | zero => rw [conjoined, Nat.mul_zero, Nat.zero_add]
  | succ count ih =>
      have hinner : Json.elementsNesting [(rule.conjoined count).toJson] =
          2 * count + rule.toJson.nesting := by
        rw [Json.elementsNesting, Json.elementsNesting, Nat.max_zero, ih]
      calc (rule.conjoined (count + 1)).toJson.nesting
          = 2 + Json.elementsNesting [(rule.conjoined count).toJson] := by
            rw [conjoined, toJson, toJsons_eq, nesting_groupJson, List.map_singleton]
        _ = 2 * (count + 1) + rule.toJson.nesting := by omega

theorem read_toJson_all (limit depth : Nat) (rules : List Rule) :
    Document.read limit (depth + 1) (Rule.all rules).toJson =
      .all <$> (rules.map toJson).mapM (Document.read limit depth) := by
  rw [toJson, toJsons_eq, groupJson_eq, Document.read_succ]
  rfl

theorem read_toJson_conjoined {limit depth : Nat} {rule : Rule}
    (hrule : Document.read limit depth rule.toJson = .ok rule) (count : Nat) :
    Document.read limit (depth + count) (rule.conjoined count).toJson =
      .ok (rule.conjoined count) := by
  induction count with
  | zero => exact hrule
  | succ count ih =>
      rw [conjoined, ← Nat.add_assoc, read_toJson_all, List.map_singleton, List.mapM_cons, ih]
      rfl

end Rule

theorem Schema.outcome_compile_conjoined (schema : Schema Carrier) (root : Index)
    (limit depth : Nat) (rule : Rule) (count : Nat) :
    (schema.compile root limit (depth + count) (rule.conjoined count)).outcome =
      (schema.compile root limit depth rule).outcome := by
  induction count with
  | zero => rfl
  | succ count ih =>
      rw [Rule.conjoined, ← Nat.add_assoc, outcome_compile_all, List.mapM_cons, ih]
      cases (schema.compile root limit depth rule).outcome <;> rfl

namespace Compiler

/-- **The limit of a compiler is out of reach of texts.** However deep rules may be nested, a rule
that compiles at depth one can be conjoined up to the limit, but from 63 conjunctions on only as a
document. -/
theorem predicateOfText_conjoined {schema : Schema Carrier} {root : Index} {count : Nat}
    {comparison : Comparison} {condition : Condition (Carrier root)} (hdeep : 63 ≤ count)
    (hread : Document.read (1 + count) 1 comparison.toJson = .ok (.compare comparison))
    (hcondition : (schema.compileComparison root comparison).outcome = .ok condition) :
    let document := ((Rule.compare comparison).conjoined count).toJson
    (Compiler.predicateOfJson ⟨1 + count⟩ schema root document).outcome =
        .ok (.ofCondition condition) ∧
      ∃ error, (Compiler.predicateOfText ⟨1 + count⟩ schema root document.text).outcome =
        .error (.json error) := by
  intro document
  have hrule : Document.read (1 + count) (1 + count) document =
      .ok ((Rule.compare comparison).conjoined count) := Rule.read_toJson_conjoined hread count
  have hpredicate : (Compiler.predicateOfJson ⟨1 + count⟩ schema root document).outcome =
      .ok (.ofCondition condition) := by
    rw [outcome_predicateOfJson, Compiler.read, Rule.ofJson, hrule, ok_bind, outcome_predicate,
      Schema.outcome_compile_conjoined, Schema.outcome_compile_compare, hcondition]
    rfl
  have hunreadable : ¬document.Readable := by
    rintro ⟨hnesting, -⟩
    rw [Rule.nesting_toJson_conjoined, Rule.toJson, Comparison.nesting_toJson] at hnesting
    unfold depthLimit at hnesting
    omega
  have hordered := Rule.isOrdered_toJson ((Rule.compare comparison).conjoined count)
  exact ⟨hpredicate, (enter_predicateOfText hordered hpredicate).2 hunreadable⟩

/-- At the default limit, a document of height 64 compiles and its text does not. -/
theorem predicateOfText_ne_predicateOfJson :
    ∃ document predicate error,
      document = ((Rule.compare (nameIs "root")).conjoined 63).toJson ∧
        ((Rule.compare (nameIs "root")).conjoined 63).height ≤ Rule.defaultMaxDepth ∧
        (Compiler.predicateOfJson {} accounts 0 document).outcome = .ok predicate ∧
        (Compiler.predicateOfText {} accounts 0 document.text).outcome = .error (.json error) := by
  obtain ⟨condition, hcondition⟩ : ∃ condition,
      (accounts.compileComparison 0 (nameIs "root")).outcome = .ok condition := ⟨_, rfl⟩
  obtain ⟨hpredicate, error, herror⟩ := predicateOfText_conjoined (le_refl 63) rfl hcondition
  refine ⟨_, _, error, rfl, ?_, hpredicate, herror⟩
  rw [Rule.height_conjoined]
  decide

end Compiler

end RecordRules
