import RecordRules.Proofs.Condition.Forms

/-!
# What a trace writes down

The comparisons that an evaluation makes, each with its result, apart from any trace: the operands
of a group are evaluated as long as they leave the group undecided. Main statement: a trace goes on
from whatever it has by just these comparisons (`Condition.trace_eq`).
-/

namespace RecordRules

variable {α : Type}

namespace Trace

/-- Comparisons added one after another, each with its result. -/
def addAll (trace : Trace) (made : List (Comparison × Bool)) : Trace :=
  made.foldl (fun trace entry => trace.add entry.1.label entry.2) trace

theorem addAll_append (trace : Trace) (made others : List (Comparison × Bool)) :
    trace.addAll (made ++ others) = (trace.addAll made).addAll others := List.foldl_append

theorem evaluated_addAll (trace : Trace) (made : List (Comparison × Bool)) :
    (trace.addAll made).evaluated.toList =
      trace.evaluated.toList ++ made.map fun entry => entry.1.label := by
  induction made generalizing trace with
  | nil => exact (List.append_nil _).symm
  | cons entry rest ih =>
      rw [addAll, List.foldl_cons, ← addAll, ih]
      simp [add]

theorem satisfied_addAll (trace : Trace) (made : List (Comparison × Bool)) :
    (trace.addAll made).satisfied.toList =
      trace.satisfied.toList ++ (made.filter Prod.snd).map fun entry => entry.1.label := by
  induction made generalizing trace with
  | nil => exact (List.append_nil _).symm
  | cons entry rest ih =>
      rw [addAll, List.foldl_cons, ← addAll, ih]
      rcases entry with ⟨comparison, _ | _⟩ <;> simp [add]

end Trace

namespace Condition

mutual

/-- The comparisons that are made to evaluate a condition. -/
def made (record : α) : Condition α → List (Comparison × Bool)
  | .const _ => []
  | .compare comparison check => [(comparison, check record)]
  | .all conditions => madeWhile record true conditions
  | .any conditions => madeWhile record false conditions
  | .not condition => condition.made record

/-- Operands are evaluated while they come out as `unit`, which leaves a group undecided. -/
def madeWhile (record : α) (unit : Bool) : List (Condition α) → List (Comparison × Bool)
  | [] => []
  | condition :: rest =>
    condition.made record ++
      if condition.evaluate record = unit then madeWhile record unit rest else []

end

variable {record : α} {conditions : List (Condition α)}

theorem snd_traceAll (htrace : ∀ condition ∈ conditions, ∀ before,
      (condition.trace record before).2 = before.addAll (condition.made record))
    (before : Trace) :
    (traceAll record before conditions).2 = before.addAll (madeWhile record true conditions) := by
  induction conditions generalizing before with
  | nil => rfl
  | cons condition rest ih =>
      obtain ⟨hcondition, hrest⟩ := List.forall_mem_cons.mp htrace
      rw [traceAll, madeWhile, Trace.addAll_append, ← hcondition before,
        ← fst_trace condition record before]
      rcases condition.trace record before with ⟨_ | _, after⟩
      · rfl
      · exact ih hrest after

theorem snd_traceAny (htrace : ∀ condition ∈ conditions, ∀ before,
      (condition.trace record before).2 = before.addAll (condition.made record))
    (before : Trace) :
    (traceAny record before conditions).2 = before.addAll (madeWhile record false conditions) := by
  induction conditions generalizing before with
  | nil => rfl
  | cons condition rest ih =>
      obtain ⟨hcondition, hrest⟩ := List.forall_mem_cons.mp htrace
      rw [traceAny, madeWhile, Trace.addAll_append, ← hcondition before,
        ← fst_trace condition record before]
      rcases condition.trace record before with ⟨_ | _, after⟩
      · exact ih hrest after
      · rfl

theorem snd_trace (condition : Condition α) (record : α) (before : Trace) :
    (condition.trace record before).2 = before.addAll (condition.made record) := by
  induction condition generalizing before with
  | const value => rfl
  | compare comparison check => rfl
  | all conditions ih => exact snd_traceAll ih before
  | any conditions ih => exact snd_traceAny ih before
  | not condition ih => exact ih before

theorem trace_eq (condition : Condition α) (record : α) (before : Trace) :
    condition.trace record before =
      (condition.evaluate record, before.addAll (condition.made record)) :=
  Prod.ext (fst_trace condition record before) (snd_trace condition record before)

theorem report_eq (condition : Condition α) (record : α) :
    condition.report record =
      ⟨condition.evaluate record, (condition.made record).map fun entry => entry.1.label,
        ((condition.made record).filter Prod.snd).map fun entry => entry.1.label⟩ := by
  simp [report, trace_eq, Trace.evaluated_addAll, Trace.satisfied_addAll, Trace.empty]

end Condition

end RecordRules
