import RecordRules.Schema.Resolve
import RecordRules.Schema.Table

/-!
# Resolved paths and walks

Resolving composes an accessor from the inside out, one re-rooting for each record on the way; a
walk starts at the record and never sees an accessor. Main statement: a resolved path reads what the
walk finds (`Schema.read_of_resolve`).
-/

namespace RecordRules

namespace Schema

variable {Index : Type} {Carrier : Index → Type} {schema : Schema Carrier}

/-! ### One step of a walk -/

theorem walk?_value {index : Index} {name : String} {kind : Kind}
    {read : Carrier index → Option Value}
    (hfound : (schema index).find? name = some (.value kind read)) (record : Carrier index) :
    schema.walk? index [name] record = read record := by
  simp [walk?, hfound]

theorem walk?_nested {index target : Index} {name next : String} {others : List String}
    {get : Carrier index → Option (Carrier target)}
    (hfound : (schema index).find? name = some (.nested target get)) (record : Carrier index) :
    schema.walk? index (name :: next :: others) record =
      (get record).bind (schema.walk? target (next :: others)) := by
  simp [walk?, hfound]

/-- A first segment leads nowhere, whatever the record, or to a value, or to a record for what is
left of the path. -/
theorem walk?_cons_cases (schema : Schema Carrier) (index : Index) (name : String)
    (rest : List String) :
    (∀ record, schema.walk? index (name :: rest) record = none) ∨
      (∃ kind read, rest = [] ∧ (schema index).find? name = some (.value kind read)) ∨
      ∃ next others target get, rest = next :: others ∧
        (schema index).find? name = some (.nested target get) := by
  rcases hfound : (schema index).find? name with _ | ⟨kind, read⟩ | ⟨target, get⟩ <;>
    rcases rest with _ | ⟨next, others⟩
  case some.value.nil => exact .inr (.inl ⟨kind, read, rfl, rfl⟩)
  case some.nested.cons => exact .inr (.inr ⟨next, others, target, get, rfl, rfl⟩)
  all_goals exact .inl fun record => by simp [walk?, hfound]

/-! ### One step of a resolution

The first segment is looked up and what is left of the path decides: five equations, and no path
falls between them. All five are read off the recursion without its log (`resolveFrom_cons`). -/

section Step

variable {path : Path} {index : Index} {name : String}

@[simp]
theorem resolveFrom_nil (schema : Schema Carrier) (path : Path) (index : Index) :
    schema.resolveFrom path index [] = .error (.unknownAttribute path "" (schema.owner index)) :=
  rfl

theorem resolveFrom_cons (schema : Schema Carrier) (path : Path) (index : Index) (name : String)
    (rest : List String) :
    schema.resolveFrom path index (name :: rest) =
      match (schema index).find? name, rest with
      | none, _ => .error (.unknownAttribute path name (schema.owner index))
      | some (.value kind read), [] => .ok ⟨kind, read⟩
      | some (.value kind _), next :: _ => .error (.unknownAttribute path next (.value kind))
      | some (.nested target _), [] => .error (.notAValue path (schema target).name)
      | some (.nested target get), next :: others =>
        (schema.resolveFrom path target (next :: others)).map (·.through get) := by
  rw [resolveFrom, resolveLoggedFrom.eq_def]
  dsimp only
  rcases (schema index).find? name with _ | ⟨kind, read⟩ | ⟨target, get⟩
  · rfl
  · cases rest <;> rfl
  · cases rest with
    | nil => rfl
    | cons next others => exact Logged.outcome_map _ _

theorem resolveFrom_unknown (hfound : (schema index).find? name = none) (rest : List String) :
    schema.resolveFrom path index (name :: rest) =
      .error (.unknownAttribute path name (schema.owner index)) := by
  simp only [resolveFrom_cons, hfound]

theorem resolveFrom_value {kind : Kind} {read : Carrier index → Option Value}
    (hfound : (schema index).find? name = some (.value kind read)) :
    schema.resolveFrom path index [name] = .ok ⟨kind, read⟩ := by
  simp only [resolveFrom_cons, hfound]

theorem resolveFrom_past_value {kind : Kind} {read : Carrier index → Option Value}
    (hfound : (schema index).find? name = some (.value kind read)) (next : String)
    (others : List String) :
    schema.resolveFrom path index (name :: next :: others) =
      .error (.unknownAttribute path next (.value kind)) := by
  simp only [resolveFrom_cons, hfound]

theorem resolveFrom_record {target : Index} {get : Carrier index → Option (Carrier target)}
    (hfound : (schema index).find? name = some (.nested target get)) :
    schema.resolveFrom path index [name] = .error (.notAValue path (schema target).name) := by
  simp only [resolveFrom_cons, hfound]

theorem resolveFrom_nested {target : Index} {get : Carrier index → Option (Carrier target)}
    (hfound : (schema index).find? name = some (.nested target get)) (next : String)
    (others : List String) :
    schema.resolveFrom path index (name :: next :: others) =
      (schema.resolveFrom path target (next :: others)).map (·.through get) := by
  rw [resolveFrom_cons, hfound]

end Step

/-! ### Paths that resolve -/

/-- What is left of a path is a value field, or a record field in front of what is left there. -/
theorem resolveFrom_ok_cases {path : Path} {index : Index} {segments : List String}
    {accessor : Accessor (Carrier index)}
    (hresolve : schema.resolveFrom path index segments = .ok accessor) :
    (∃ name kind read, segments = [name] ∧
        (schema index).find? name = some (.value kind read) ∧ accessor = ⟨kind, read⟩) ∨
      ∃ name next others target get inner, segments = name :: next :: others ∧
        (schema index).find? name = some (.nested target get) ∧
        schema.resolveFrom path target (next :: others) = .ok inner ∧
        accessor = inner.through get := by
  cases segments with
  | nil => simp at hresolve
  | cons name rest =>
      rcases hfound : (schema index).find? name with _ | ⟨kind, read⟩ | ⟨target, get⟩
      · simp [resolveFrom_unknown hfound] at hresolve
      · cases rest with
        | nil =>
            rw [resolveFrom_value hfound] at hresolve
            exact .inl ⟨name, kind, read, rfl, hfound, (Except.ok.inj hresolve).symm⟩
        | cons next others => simp [resolveFrom_past_value hfound] at hresolve
      · cases rest with
        | nil => simp [resolveFrom_record hfound] at hresolve
        | cons next others =>
            rw [resolveFrom_nested hfound] at hresolve
            cases hinner : schema.resolveFrom path target (next :: others) with
            | error error => simp [hinner, Except.map] at hresolve
            | ok inner =>
                rw [hinner] at hresolve
                exact .inr ⟨name, next, others, target, get, inner, rfl, hfound, hinner,
                  (Except.ok.inj hresolve).symm⟩

/-- Along any part of a path, the accessor of what is left reads what the walk along it finds. -/
theorem read_of_resolveFrom {path : Path} {segments : List String} :
    ∀ {index : Index} {accessor : Accessor (Carrier index)},
      schema.resolveFrom path index segments = .ok accessor → ∀ record,
        accessor.read record = schema.walk? index segments record := by
  induction segments with
  | nil =>
      intro index accessor hresolve
      simp at hresolve
  | cons segment rest ih =>
      intro index accessor hresolve record
      obtain ⟨name, kind, read, hsegments, hfound, rfl⟩ |
        ⟨name, next, others, target, get, inner, hsegments, hfound, hinner, rfl⟩ :=
        resolveFrom_ok_cases hresolve
      · obtain ⟨rfl, rfl⟩ := List.cons.inj hsegments
        exact (walk?_value hfound record).symm
      · obtain ⟨rfl, rfl⟩ := List.cons.inj hsegments
        rw [walk?_nested hfound]
        exact congrArg (Option.bind (get record)) (funext (ih hinner))

theorem read_of_resolve {root : Index} {path : Path} {accessor : Accessor (Carrier root)}
    (hresolve : schema.resolve root path = .ok accessor) (record : Carrier root) :
    accessor.read record = schema.walk? root path.segments record :=
  read_of_resolveFrom hresolve record

end Schema

/-! ### A record type that leads to itself -/

/-- Accounts with a name and perhaps a parent, which is an account again. -/
def accounts : Schema Table.Rows :=
  Table.schema [⟨"Account", [⟨"Name", .value .string⟩, ⟨"Parent", .nested 0⟩]⟩]

def account (name : String) (parent : Cell) : Row := [.value (.string name), parent]

/-- A walk ends where an account has no parent. -/
example :
    accounts.walk? 0 ["Parent", "Name"] (account "leaf" (.row (account "root" .absent))) =
        some (.string "root") ∧
      accounts.walk? 0 ["Parent", "Name"] (account "root" .absent) = none := by decide

end RecordRules
