import RecordRules.Predicate
import RecordRules.Proofs.Induction
import Mathlib.Data.List.FinRange

/-!
# The forms of a condition

A condition is evaluated as it stands, traced for a report, or turned once into a check, and a
predicate keeps the condition beside a check that was made of a copy. The forms differ in how they
walk the condition: two of them stop at the first operand that decides a group, one with a trace in
hand, and the check walks a list of checks instead. Main statement: they give one answer
(`Predicate.ofCondition_forms_agree`).
-/

namespace RecordRules

variable {α : Type}

namespace Condition

@[simp]
theorem copy_eq (condition : Condition α) : condition.copy = condition := by
  induction condition with
  | const value => rfl
  | compare comparison check => rfl
  | all conditions ih =>
      have hcopies : conditions.map copy = conditions.map id := List.map_congr_left ih
      rw [copy, copies_eq, hcopies, List.map_id]
  | any conditions ih =>
      have hcopies : conditions.map copy = conditions.map id := List.map_congr_left ih
      rw [copy, copies_eq, hcopies, List.map_id]
  | not condition ih => rw [copy, ih]

/-- The check of a condition is its evaluation, made ready for any record. -/
theorem toCheck_eq_evaluate (condition : Condition α) (record : α) :
    condition.toCheck record = condition.evaluate record := by
  induction condition with
  | const value => rfl
  | compare comparison check => rfl
  | all conditions ih =>
      change ((toChecks conditions).all fun check => check record) = evaluateAll record conditions
      rw [toChecks_eq, evaluateAll_eq, List.all_map]
      exact all_eq_all_of_forall₂ (List.forall₂_same.mpr ih)
  | any conditions ih =>
      change ((toChecks conditions).any fun check => check record) = evaluateAny record conditions
      rw [toChecks_eq, evaluateAny_eq, List.any_map]
      exact any_eq_any_of_forall₂ (List.forall₂_same.mpr ih)
  | not condition ih => exact congrArg (!·) ih

/-! ### Traces

Operands are traced one after another, each with the trace of those before it in hand, until one of
them decides the group.
-/

theorem fst_traceAll {record : α} {conditions : List (Condition α)}
    (htrace : ∀ condition ∈ conditions, ∀ before,
      (condition.trace record before).1 = condition.evaluate record) (before : Trace) :
    (traceAll record before conditions).1 = conditions.all (evaluate record) := by
  induction conditions generalizing before with
  | nil => rfl
  | cons condition rest ih =>
      obtain ⟨hcondition, hrest⟩ := List.forall_mem_cons.mp htrace
      rw [traceAll, List.all_cons, ← hcondition before]
      rcases condition.trace record before with ⟨_ | _, after⟩
      · rfl
      · exact ih hrest after

theorem fst_traceAny {record : α} {conditions : List (Condition α)}
    (htrace : ∀ condition ∈ conditions, ∀ before,
      (condition.trace record before).1 = condition.evaluate record) (before : Trace) :
    (traceAny record before conditions).1 = conditions.any (evaluate record) := by
  induction conditions generalizing before with
  | nil => rfl
  | cons condition rest ih =>
      obtain ⟨hcondition, hrest⟩ := List.forall_mem_cons.mp htrace
      rw [traceAny, List.any_cons, ← hcondition before]
      rcases condition.trace record before with ⟨_ | _, after⟩
      · exact ih hrest after
      · rfl

/-- What has been written down before, and what is written down now, never changes the answer. -/
theorem fst_trace (condition : Condition α) (record : α) (before : Trace) :
    (condition.trace record before).1 = condition.evaluate record := by
  induction condition generalizing before with
  | const value => rfl
  | compare comparison check => rfl
  | all conditions ih => rw [trace, evaluate, evaluateAll_eq, fst_traceAll ih]
  | any conditions ih => rw [trace, evaluate, evaluateAny_eq, fst_traceAny ih]
  | not condition ih => exact congrArg (!·) (ih before)

theorem result_report (condition : Condition α) (record : α) :
    (condition.report record).result = condition.evaluate record :=
  fst_trace condition record .empty

end Condition

/-- A filtered list holds the elements from the places where the test holds, place after place. -/
theorem filter_eq_map_places (test : α → Bool) (records : List α) :
    records.filter test =
      ((List.finRange records.length).filter fun place => test (records.get place)).map
        records.get := by
  conv_lhs => rw [← List.map_get_finRange records]
  rw [List.filter_map]
  rfl

namespace Predicate

theorem test_ofCondition (condition : Condition α) (record : α) :
    (ofCondition condition).test record = condition.evaluate record := by
  calc (ofCondition condition).test record = condition.copy.toCheck record := rfl
    _ = condition.toCheck record := by rw [Condition.copy_eq]
    _ = condition.evaluate record := Condition.toCheck_eq_evaluate condition record

/-- **One condition, one answer.** A predicate keeps the condition that it was made of, its test, an
evaluation of the condition and a report agree on every record, and filtering takes exactly the
records that pass, from their places in the list and in the order of these. -/
theorem ofCondition_forms_agree (condition : Condition α) :
    (ofCondition condition).condition = condition ∧ condition.copy = condition ∧
      (∀ record,
        (ofCondition condition).test record = condition.evaluate record ∧
          (condition.report record).result = condition.evaluate record ∧
          ((ofCondition condition).report record).result = condition.evaluate record) ∧
      ∀ records : List α,
        (ofCondition condition).filter records =
            ((List.finRange records.length).filter fun place =>
              (ofCondition condition).test (records.get place)).map records.get ∧
          records.filter (ofCondition condition).matcher =
            (ofCondition condition).filter records := by
  refine ⟨rfl, Condition.copy_eq condition, ?_, ?_⟩
  · intro record
    have htest := test_ofCondition condition record
    have hreport := Condition.result_report condition record
    exact ⟨htest, hreport, hreport⟩
  · intro records
    exact ⟨filter_eq_map_places _ records, rfl⟩

end Predicate

end RecordRules
