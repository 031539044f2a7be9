import RecordRules.Compile.Event
import RecordRules.Schema.Basic

/-!
# Resolving paths

A path is followed through the record types alone, once; what comes out reads the value at its end
from any record. Only a name that a record type lacks is worth a line in the log.
-/

namespace RecordRules

/-- A way to read a value from a record, and the kind that it is declared to have. -/
structure Accessor (α : Type) where
  kind : Kind
  read : α → Option Value

/-- An accessor of a part is one of the whole. -/
def Accessor.through {α β : Type} (accessor : Accessor β) (get : α → Option β) : Accessor α where
  kind := accessor.kind
  read whole := (get whole).bind accessor.read

namespace Schema

variable {Index : Type} {Carrier : Index → Type}

def owner (schema : Schema Carrier) (index : Index) : Owner :=
  .record (schema index).name (schema index).fieldNames

/-- Errors carry the whole path; `segments` is what is left of it. -/
def resolveLoggedFrom (schema : Schema Carrier) (path : Path) :
    (index : Index) → (segments : List String) → Logged CompileError (Accessor (Carrier index))
  | index, [] => .ofExcept (.error (.unknownAttribute path "" (schema.owner index)))
  | index, segment :: rest =>
    match (schema index).find? segment, rest with
    | none, _ => do
      .log (.segmentNotFound path segment (schema index).name (schema index).fieldNames)
      .ofExcept (.error (.unknownAttribute path segment (schema.owner index)))
    | some (.value kind read), [] => return ⟨kind, read⟩
    | some (.value kind _), next :: _ =>
      .ofExcept (.error (.unknownAttribute path next (.value kind)))
    | some (.nested target _), [] => .ofExcept (.error (.notAValue path (schema target).name))
    | some (.nested target get), next :: others =>
      (·.through get) <$> resolveLoggedFrom schema path target (next :: others)

def resolveLogged (schema : Schema Carrier) (root : Index) (path : Path) :
    Logged CompileError (Accessor (Carrier root)) :=
  schema.resolveLoggedFrom path root path.segments

def resolveFrom (schema : Schema Carrier) (path : Path) (index : Index) (segments : List String) :
    Except CompileError (Accessor (Carrier index)) :=
  (schema.resolveLoggedFrom path index segments).outcome

def resolve (schema : Schema Carrier) (root : Index) (path : Path) :
    Except CompileError (Accessor (Carrier root)) :=
  schema.resolveFrom path root path.segments

end Schema

end RecordRules
