import RecordRules.Condition.Basic

/-!
# Traced evaluation

An evaluation that writes down which comparisons it made, and which of them held, by their labels.
What is skipped because the answer is known already is not written down.
-/

namespace RecordRules

structure Trace where
  evaluated : Array String
  satisfied : Array String
  deriving DecidableEq

namespace Trace

def empty : Trace := ⟨#[], #[]⟩

def add (trace : Trace) (label : String) (held : Bool) : Trace where
  evaluated := trace.evaluated.push label
  satisfied := if held then trace.satisfied.push label else trace.satisfied

end Trace

structure Report where
  result : Bool
  evaluated : List String
  satisfied : List String
  deriving DecidableEq

def Report.text (report : Report) : String :=
  "result: " ++ toString report.result ++ ", satisfied: [" ++
    String.intercalate ", " report.satisfied ++ "]"

namespace Condition

variable {α : Type}

mutual

/-- The answer, and the trace continued. -/
def trace (record : α) (before : Trace) : Condition α → Bool × Trace
  | .const value => (value, before)
  | .compare comparison check =>
    let held := check record
    (held, before.add comparison.label held)
  | .all conditions => traceAll record before conditions
  | .any conditions => traceAny record before conditions
  | .not condition =>
    let (held, after) := condition.trace record before
    (!held, after)

def traceAll (record : α) (before : Trace) : List (Condition α) → Bool × Trace
  | [] => (true, before)
  | condition :: rest =>
    match condition.trace record before with
    | (true, after) => traceAll record after rest
    | (false, after) => (false, after)

def traceAny (record : α) (before : Trace) : List (Condition α) → Bool × Trace
  | [] => (false, before)
  | condition :: rest =>
    match condition.trace record before with
    | (true, after) => (true, after)
    | (false, after) => traceAny record after rest

end

def report (condition : Condition α) (record : α) : Report :=
  let (result, trace) := condition.trace record .empty
  ⟨result, trace.evaluated.toList, trace.satisfied.toList⟩

end Condition

end RecordRules
