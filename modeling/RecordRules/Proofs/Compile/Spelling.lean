import RecordRules.Proofs.Compile.Log
import RecordRules.Proofs.Compile.Typed
import RecordRules.Proofs.Rule.Spelling

/-!
# Numbers as they are written

From the text of a number to the rule that is compiled, the digits stay as they are spelled: in the
literal, in the label that it is shown with, and in the text that a field has to begin with. Main
statement: `Compiler.numbers_keep_their_spelling`.
-/

namespace RecordRules

open Json

variable {Index : Type} {Carrier : Index → Type} {schema : Schema Carrier} {root : Index}

/-- What is asked of a field whose text has to begin with a literal. -/
theorem Schema.check_startsWith {comparison : Comparison} {check : Carrier root → Bool}
    (hcompile : (schema.compileComparison root comparison).outcome =
      .ok (.compare comparison check)) (hoperator : comparison.operator = .startsWith) :
    ∃ first, comparison.literals.first? = some first ∧ ∀ record, check record = true ↔
      ∃ rest, schema.walk? root comparison.path.segments record =
        some (.string (first.text ++ rest)) := by
  obtain ⟨field, hresolve, -, hpresent, hcheck⟩ := compileComparison_eq_ok hcompile
  obtain ⟨-, rfl⟩ := Condition.compare.inj hcheck
  rw [hoperator, Operator.usesFirst, Bool.true_and] at hpresent
  cases hfirst : comparison.literals.first? with
  | none =>
      rw [Literals.first?_eq_none_iff.mp hfirst] at hpresent
      cases hpresent
  | some first =>
      refine ⟨first, rfl, fun record => ?_⟩
      simp only [read_of_resolve hresolve, Option.any_eq_true, Operator.isSatisfied_iff, hoperator,
        Operator.Says, hfirst, Option.some.injEq, exists_eq_left']
      constructor
      · rintro ⟨value, hwalk, rest, rfl⟩
        exact ⟨rest, hwalk⟩
      · rintro ⟨rest, hwalk⟩
        exact ⟨_, hwalk, rest, rfl⟩

/-- The text that a field has to begin with is the first of those in the document. -/
theorem Comparison.check_startsWith {comparison : Comparison} {members : Members}
    {check : Carrier root → Bool} (hread : Document.DescribesComparison members comparison)
    (hcompile : (schema.compileComparison root comparison).outcome =
      .ok (.compare comparison check)) (hoperator : comparison.operator = .startsWith) :
    ∃ element others start, Document.Lists members (element :: others) ∧
      comparison.literals.kind.Shows element start ∧ ∀ record, check record = true ↔
        ∃ rest, schema.walk? root comparison.path.segments record =
          some (.string (start ++ rest)) := by
  obtain ⟨first, hfirst, hcheck⟩ := Schema.check_startsWith hcompile hoperator
  obtain ⟨elements, hlists, hitems⟩ := exists_lists hread
  have htexts : List.Forall₂ (fun element (value : Value) =>
      comparison.literals.kind.Shows element value.text) elements comparison.literals.values := by
    rw [Literals.values, List.forall₂_map_right_iff]
    exact hitems.imp fun _ _ => Kind.Denotes.shows
  obtain ⟨rest, hrest⟩ := List.head?_eq_some_iff.mp hfirst
  rw [hrest] at htexts
  obtain ⟨element, others, hshows, -, rfl⟩ := List.forall₂_cons_right_iff.mp htexts
  exact ⟨element, others, first.text, hlists, hshows, hcheck⟩

namespace Compiler

/-- **Numbers keep their spelling.** A number without an exponent that is taken for an integer is
written as it was, and only `-0` turns into `0`. It is taken for a decimal if there is room for its
digits, with a place for each digit after the point, and is written as it was, except for the minus
of a zero. So every label shows the numbers of its own place in the document, the text of the rule
shows every label, and what a field has to begin with is the first number as it is spelled. -/
theorem numbers_keep_their_spelling (schema : Schema Carrier) (root : Index) :
    (∀ text (numeral : Numeral), numeral.IsSpelled text →
      Json.ofText text = .ok (.number numeral) ∧
      (∀ (kind : Kind) item, kind = .int32 ∨ kind = .int64 →
        kind.read? (.number numeral) = some item →
          (kind.toValue item).text = (if text = "-0" then "0" else text) ∧
          (kind.toValue item).display = if text = "-0" then "0" else text) ∧
      (Text.FitsDecimal text → ∃ decimal, Kind.decimal.read? (.number numeral) = some decimal ∧
        decimal.scale = (Digits.afterPoint text).length ∧
        decimal.text = Text.unsignZero text ∧
        (Value.decimal decimal).display = Text.unsignZero text)) ∧
    ∀ (compiler : Compiler) (document : Json) (rule : Rule), compiler.read document = .ok rule →
      List.Forall₂ (fun members (comparison : Comparison) => ∃ elements shown,
          Document.Lists members elements ∧
          List.Forall₂ comparison.literals.kind.Shows elements shown ∧
          comparison.label = comparison.labelOf shown ∧
          ∃ before after, rule.text = before ++ ("(" ++ comparison.label ++ ")") ++ after)
        (Document.comparisonNodes 1 document) rule.comparisons ∧
      ∀ condition, (compiler.compile schema root rule).outcome = .ok condition →
        condition.leaves.map Leaf.label = rule.comparisons.map Comparison.label ∧
        List.Forall₂ (fun members (leaf : Leaf (Carrier root)) =>
            leaf.comparison.operator = .startsWith → ∃ element others start,
              Document.Lists members (element :: others) ∧
              leaf.comparison.literals.kind.Shows element start ∧
              ∀ record, leaf.check record = true ↔
                ∃ rest, schema.walk? root leaf.comparison.path.segments record =
                  some (.string (start ++ rest)))
          (Document.comparisonNodes 1 document) condition.leaves := by
  refine ⟨fun text numeral hspelled => ⟨hspelled.ofText_eq, ?_, ?_⟩,
    fun compiler document rule hread => ?_⟩
  · intro kind item hkind hread
    have hdenotes := Kind.read?_eq_some_iff.mp hread
    obtain ⟨number, hinteger⟩ : ∃ number, numeral.toInt? = some number := by
      rcases hkind with rfl | rfl
      · exact ⟨_, Kind.read?_int32_iff.mp hread⟩
      · exact ⟨_, Kind.read?_int64_iff.mp hread⟩
    have hnumber : kind ≠ .decimal := by rcases hkind with rfl | rfl <;> decide
    have hfits (hdecimal : kind = .decimal) : Text.FitsDecimal text := absurd hdecimal hnumber
    rw [← hspelled.unsignZero_eq (Numeral.toInt?_eq_some_iff.mp hinteger).1.1]
    exact ⟨hdenotes.shows text numeral rfl hspelled hfits,
      hdenotes.shows_display text numeral rfl hspelled hfits⟩
  · intro hfits
    obtain ⟨decimal, hread, hscale, htext⟩ := hspelled.ofNumeral?_eq hfits
    exact ⟨decimal, hread, hscale, htext, htext⟩
  · have hnodes := Document.describesComparisons (Document.read_eq_ok_iff.mp hread) 1
    refine ⟨?_, fun condition hcompile => ?_⟩
    · refine forall₂_imp_of_mem_right hnodes fun comparison hcomparison members hdescribes => ?_
      obtain ⟨elements, shown, hlists, hshows, hlabel⟩ := Comparison.exists_label_eq hdescribes
      obtain ⟨before, after, htext⟩ := Rule.infix_text hcomparison
      refine ⟨elements, shown, hlists, hshows, hlabel, .ofList before, .ofList after, ?_⟩
      rw [← String.toList_inj, ← htext]
      simp
    · rw [outcome_compile] at hcompile
      have hcomparisons := (Condition.comparison_leaves condition).trans
        (Schema.comparisons_compile hcompile)
      rw [← hcomparisons, List.forall₂_map_right_iff] at hnodes
      refine ⟨by rw [← hcomparisons, List.map_map]; rfl, ?_⟩
      exact forall₂_imp_of_mem_right hnodes fun leaf hleaf members hdescribes =>
        Comparison.check_startsWith hdescribes
          (Schema.compileComparison_of_compile hcompile leaf hleaf)

/-- `-0.50`. -/
def minusHalf : Numeral := ⟨true, 0, Digits.lastOf 2 50, none⟩

/-- `-0.00`. -/
def minusNothing : Numeral := ⟨true, 0, Digits.lastOf 2 0, none⟩

def halfMembers : Members :=
  [("$type", .string "Predicate"), ("attribute", .string "Name"),
    ("operator", .string "startsWith"), ("value", .object [("valueType", .string "Decimal"),
      ("values", .array [.number minusHalf, .number minusNothing])])]

theorem fits_minusHalf : minusHalf.FitsDecimal := ⟨by decide, by decide⟩

theorem fits_minusNothing : minusNothing.FitsDecimal := ⟨by decide, by decide⟩

/-- The minus of the half is kept, and the minus of nothing is not. -/
def beginsWithHalf : Comparison :=
  ⟨⟨"Name"⟩, .startsWith, .decimal [minusHalf.toDecimal fits_minusHalf,
    (minusNothing.toDecimal fits_minusNothing).unsignZero]⟩

theorem comparisonNodes_halfMembers :
    Document.comparisonNodes 1 (.object halfMembers) = [halfMembers] := by
  rw [Document.comparisonNodes_eq]
  rfl

theorem numbers_keep_their_spelling_minusHalf :
    (Kind.int32.toValue 0).text = "0" ∧
      (∃ decimal, Kind.decimal.read? (.number minusHalf) = some decimal ∧ decimal.scale = 2 ∧
        decimal.text = "-0.50") ∧
      ∃ check, (Compiler.compile {} lineage () (.compare beginsWithHalf)).outcome =
          .ok (.compare beginsWithHalf check) ∧
        beginsWithHalf.label = "Name startswith [-0.50, 0.00]" ∧
        ∀ name, check [name] = true ↔ ∃ rest, name = "-0.50" ++ rest := by
  obtain ⟨hnumbers, hrules⟩ := numbers_keep_their_spelling lineage ()
  have hzero : Numeral.IsSpelled ⟨true, 0, [], none⟩ "-0" :=
    ⟨by decide +kernel, by simp [NumeralPart.isExponentMark]⟩
  have hhalf : minusHalf.IsSpelled "-0.50" :=
    ⟨by decide +kernel, by simp [NumeralPart.isExponentMark]⟩
  have hfits : Text.FitsDecimal "-0.50" := ⟨by decide +kernel, by decide +kernel⟩
  have hplaces : (Digits.afterPoint "-0.50").length = 2 := by decide +kernel
  have hkept : Text.unsignZero "-0.50" = "-0.50" := by decide +kernel
  obtain ⟨-, hintegers, -⟩ := hnumbers "-0" _ hzero
  obtain ⟨-, -, hdecimals⟩ := hnumbers "-0.50" minusHalf hhalf
  refine ⟨(hintegers .int32 0 (.inl rfl) rfl).1, ?_, ?_⟩
  · obtain ⟨decimal, hread, hscale, htext, -⟩ := hdecimals hfits
    exact ⟨decimal, hread, hscale.trans hplaces, htext.trans hkept⟩
  · obtain ⟨-, hconditions⟩ := hrules {} (.object halfMembers) (.compare beginsWithHalf) rfl
    obtain ⟨check, hcompile⟩ : ∃ check,
        (Compiler.compile {} lineage () (.compare beginsWithHalf)).outcome =
          .ok (.compare beginsWithHalf check) := ⟨_, rfl⟩
    refine ⟨check, hcompile, by decide +kernel, fun name => ?_⟩
    obtain ⟨-, hleaves⟩ := hconditions _ hcompile
    rw [comparisonNodes_halfMembers] at hleaves
    obtain ⟨hleaf, -⟩ := List.forall₂_cons.mp hleaves
    obtain ⟨element, others, start, ⟨inner, hinner, helements⟩, hshows, hcheck⟩ := hleaf rfl
    cases hinner
    cases helements
    obtain rfl := hshows "-0.50" minusHalf rfl hhalf fun _ => hfits
    rw [hkept] at hcheck
    have hwalk : lineage.walk? () beginsWithHalf.path.segments [name] = some (.string name) := rfl
    refine (hcheck [name]).trans (exists_congr fun rest => ?_)
    rw [hwalk, Option.some.injEq, Value.string.injEq]

end Compiler

end RecordRules
