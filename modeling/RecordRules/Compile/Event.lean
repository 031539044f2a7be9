import RecordRules.Error
import RecordRules.Rule.Basic

/-!
# The log of a compilation

A logged computation lists the events that happened until it ended or failed.
-/

namespace RecordRules

inductive Level where
  | trace
  | debug
  | warn
  deriving DecidableEq, Repr

inductive Event where
  | compiling (record : String) (rule : Rule)
  | segmentNotFound (path : Path) (segment : String) (record : String) (known : List String)
  | firstLiteralOnly (path : Path) (operator : Operator) (count : Nat)
  | comparisonCompiled (path : Path) (operator : Operator) (kind : Kind)
  | compiled (comparisons : Nat)

namespace Event

def level : Event → Level
  | .comparisonCompiled .. => .trace
  | .firstLiteralOnly .. => .warn
  | _ => .debug

def message : Event → String
  | .compiling .. => "compiling rule"
  | .segmentNotFound .. => "attribute segment not found"
  | .firstLiteralOnly .. => "operator uses only the first of several values"
  | .comparisonCompiled .. => "compiled comparison"
  | .compiled .. => "rule compiled"

end Event

structure Logged (ε α : Type) where
  events : List Event
  outcome : Except ε α

namespace Logged

variable {ε α β : Type}

instance : Monad (Logged ε) where
  pure value := ⟨[], .ok value⟩
  bind first next :=
    match first.outcome with
    | .ok value =>
      let rest := next value
      ⟨first.events ++ rest.events, rest.outcome⟩
    | .error error => ⟨first.events, .error error⟩

def log (event : Event) : Logged ε Unit := ⟨[event], .ok ()⟩

def ofExcept (outcome : Except ε α) : Logged ε α := ⟨[], outcome⟩

@[simp]
theorem outcome_pure (value : α) : (pure value : Logged ε α).outcome = .ok value := rfl

@[simp]
theorem events_pure (value : α) : (pure value : Logged ε α).events = [] := rfl

@[simp]
theorem outcome_ofExcept (outcome : Except ε α) : (ofExcept outcome).outcome = outcome := rfl

@[simp]
theorem events_ofExcept (outcome : Except ε α) : (ofExcept outcome).events = [] := rfl

@[simp]
theorem outcome_bind (first : Logged ε α) (next : α → Logged ε β) :
    (first >>= next).outcome = first.outcome >>= fun value => (next value).outcome := by
  rcases first with ⟨events, _ | value⟩ <;> rfl

instance : LawfulMonad (Logged ε) :=
  LawfulMonad.mk' (Logged ε)
    (fun first => by
      rcases first with ⟨events, _ | value⟩
      · rfl
      · exact congrArg (Logged.mk · (.ok value)) (List.append_nil events))
    (fun _ _ => rfl)
    (fun first next last => by
      rcases first with ⟨events, _ | value⟩
      · rfl
      · rcases next_eq : next value with ⟨more, _ | other⟩ <;>
          simp [bind, next_eq, List.append_assoc])

@[simp]
theorem outcome_map (convert : α → β) (logged : Logged ε α) :
    (convert <$> logged).outcome = convert <$> logged.outcome := by
  rw [map_eq_pure_bind, map_eq_pure_bind, outcome_bind]
  rfl

end Logged

end RecordRules
