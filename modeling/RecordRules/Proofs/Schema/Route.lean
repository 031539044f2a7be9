import RecordRules.Proofs.Schema.Walk
import Mathlib.Data.List.Infix

/-!
# Routes through record types

A path is followed by hand: as long as its next segment is the name of a record field, the walk goes
on to the record type behind that field, and where it can go no further, what is left of the path
decides. The getters that are passed on the way make up a route, which leads from a record to the
one that is reached, or breaks off where a record is absent. Main statement: resolving is that walk,
in what it returns and in what it reports (`Schema.resolve_is_walk`).
-/

namespace RecordRules

variable {Index : Type} {Carrier : Index → Type}

/-! ### Fields by name -/

namespace RecordType

variable {index : Index} {type : RecordType Carrier index} {name : String}

/-- The first of the fields with a name; others may follow it. -/
def IsFirst (type : RecordType Carrier index) (name : String) (slot : Slot Carrier index) : Prop :=
  ∃ before after, type.fields = before ++ ⟨name, slot⟩ :: after ∧
    ∀ field ∈ before, field.name ≠ name

theorem find?_eq_some_iff {slot : Slot Carrier index} :
    type.find? name = some slot ↔ type.IsFirst name slot := by
  simp only [find?, Option.map_eq_some_iff, List.find?_eq_some_iff_append, IsFirst]
  constructor
  · rintro ⟨⟨_, _⟩, ⟨hname, before, after, hfields, hbefore⟩, rfl⟩
    cases of_decide_eq_true hname
    exact ⟨before, after, hfields, by simpa using hbefore⟩
  · rintro ⟨before, after, hfields, hbefore⟩
    exact ⟨⟨name, slot⟩, ⟨decide_eq_true rfl, before, after, hfields, by simpa using hbefore⟩, rfl⟩

theorem find?_eq_none_iff : type.find? name = none ↔ name ∉ type.fieldNames := by
  simp [find?, fieldNames, List.find?_eq_none]

theorem IsFirst.unique {one other : Slot Carrier index} (hone : type.IsFirst name one)
    (hother : type.IsFirst name other) : one = other := by
  rw [← find?_eq_some_iff] at hone hother
  exact Option.some.inj (hone.symm.trans hother)

end RecordType

/-! ### Routes -/

/-- Getters one after another, each one taken from the record that the last one found. -/
inductive Route (Carrier : Index → Type) : (start target : Index) → Type where
  | here {index : Index} : Route Carrier index index
  | through {start next target : Index} (get : Carrier start → Option (Carrier next))
      (onward : Route Carrier next target) : Route Carrier start target

namespace Route

variable {start target : Index}

/-- The record at the end of a route. -/
def follow {start target : Index} : Route Carrier start target → Carrier start →
    Option (Carrier target)
  | .here, record => some record
  | .through get onward, record => (get record).bind onward.follow

/-- Some getter on the way finds nothing. -/
def IsBroken {start target : Index} : Route Carrier start target → Carrier start → Prop
  | .here, _ => False
  | .through get onward, record =>
    get record = none ∨ ∃ found, get record = some found ∧ onward.IsBroken found

theorem follow_eq_none_iff {route : Route Carrier start target} {record : Carrier start} :
    route.follow record = none ↔ route.IsBroken record := by
  induction route with
  | here => simp [follow, IsBroken]
  | through get onward ih =>
      rw [follow, IsBroken]
      cases get record with
      | none => simp
      | some found => simpa using ih

end Route

namespace Schema

/-- Names of record fields, one for each getter of a route. -/
inductive Leads (schema : Schema Carrier) :
    {start target : Index} → (names : List String) → Route Carrier start target → Prop where
  | here (index : Index) : Leads schema [] (.here : Route Carrier index index)
  | through {start next target : Index} {name : String} {names : List String}
      {get : Carrier start → Option (Carrier next)} {onward : Route Carrier next target}
      (hfirst : (schema start).IsFirst name (.nested next get))
      (honward : Leads schema names onward) : Leads schema (name :: names) (.through get onward)

/-- The names that lead on from a record type make up the longest such beginning of a path. -/
structure LeadsFurthest (schema : Schema Carrier) {root target : Index} (segments : List String)
    (names rest : List String) (route : Route Carrier root target) : Prop where
  split : segments = names ++ rest
  leads : schema.Leads names route
  furthest : ∀ (longer : List String) (other : Index) (further : Route Carrier root other),
    longer <+: segments → schema.Leads longer further → longer.length ≤ names.length

/-- What is left of a path does not begin with a record field. -/
def Ends (schema : Schema Carrier) (target : Index) (rest : List String) : Prop :=
  ∀ name others next get, rest = name :: others →
    ¬(schema target).IsFirst name (.nested next get)

variable {schema : Schema Carrier} {root target : Index} {names rest : List String}
  {route : Route Carrier root target}

/-! ### The longest beginning -/

theorem Leads.append_singleton (hleads : schema.Leads names route) {name : String} {next : Index}
    {get : Carrier target → Option (Carrier next)}
    (hfirst : (schema target).IsFirst name (.nested next get)) :
    ∃ longer : Route Carrier root next, schema.Leads (names ++ [name]) longer := by
  induction hleads with
  | here index => exact ⟨_, .through hfirst (.here next)⟩
  | through hother _ ih =>
      obtain ⟨longer, hlonger⟩ := ih hfirst
      exact ⟨_, .through hother hlonger⟩

/-- Two routes along one path are one route as far as both of them go. -/
theorem Leads.length_le (hleads : schema.Leads names route) (hends : schema.Ends target rest)
    {longer : List String} {other : Index} {further : Route Carrier root other}
    (hstart : longer <+: names ++ rest) (hlonger : schema.Leads longer further) :
    longer.length ≤ names.length := by
  induction hleads generalizing longer other with
  | here index =>
      cases hlonger with
      | here => exact Nat.le_refl 0
      | through hfirst =>
          obtain ⟨others, hrest⟩ := hstart
          exact absurd hfirst (hends _ _ _ _ hrest.symm)
  | through hfirst _ ih =>
      cases hlonger with
      | here => exact Nat.zero_le _
      | through hother honward =>
          obtain ⟨rfl, hinner⟩ := List.cons_prefix_cons.mp hstart
          cases hfirst.unique hother
          exact Nat.succ_le_succ (ih hends hinner honward)

theorem leadsFurthest_iff {segments : List String} :
    schema.LeadsFurthest segments names rest route ↔
      segments = names ++ rest ∧ schema.Leads names route ∧ schema.Ends target rest := by
  constructor
  · rintro ⟨rfl, hleads, hfurthest⟩
    refine ⟨rfl, hleads, ?_⟩
    rintro name others next get rfl hfirst
    obtain ⟨longer, hlonger⟩ := hleads.append_singleton hfirst
    have hlength := hfurthest _ _ longer ⟨others, by simp⟩ hlonger
    rw [List.length_append] at hlength
    exact absurd hlength (Nat.not_succ_le_self _)
  · rintro ⟨rfl, hleads, hends⟩
    exact ⟨rfl, hleads, fun longer other further hstart => hleads.length_le hends hstart⟩

theorem exists_leadsFurthest (schema : Schema Carrier) (root : Index) (segments : List String) :
    ∃ (names rest : List String) (target : Index) (route : Route Carrier root target),
      schema.LeadsFurthest segments names rest route := by
  simp only [leadsFurthest_iff]
  induction segments generalizing root with
  | nil => exact ⟨[], [], root, .here, rfl, .here root, nofun⟩
  | cons name others ih =>
      by_cases hnested : ∃ next get, (schema root).IsFirst name (.nested next get)
      · obtain ⟨next, get, hfirst⟩ := hnested
        obtain ⟨names, rest, target, onward, rfl, honward, hends⟩ := ih next
        exact ⟨name :: names, rest, target, .through get onward, rfl, .through hfirst honward,
          hends⟩
      · refine ⟨[], name :: others, root, .here, rfl, .here root, ?_⟩
        rintro _ _ next get hsegments hfirst
        cases hsegments
        exact hnested ⟨next, get, hfirst⟩

/-! ### Resolving along a route -/

theorem resolveFrom_append (path : Path) (hleads : schema.Leads names route) (hrest : rest ≠ []) :
    schema.resolveFrom path root (names ++ rest) =
      (schema.resolveFrom path target rest).map (·.through route.follow) := by
  induction hleads with
  | here index =>
      rw [List.nil_append]
      cases schema.resolveFrom path index rest <;> rfl
  | @through start next target name names get onward hfirst _ ih =>
      obtain ⟨segment, others, hsegments⟩ := List.exists_cons_of_ne_nil
        (List.append_ne_nil_of_right_ne_nil names hrest)
      rw [List.cons_append, hsegments, resolveFrom_nested (RecordType.find?_eq_some_iff.mpr hfirst),
        ← hsegments, ih]
      cases schema.resolveFrom path target rest with
      | error error => rfl
      | ok accessor =>
          -- The getter in front binds what the rest of the route binds.
          simp [Except.map, Accessor.through, Route.follow, Option.bind_assoc]

/-- A path that ends on the way is no value. -/
theorem resolveFrom_of_leads (path : Path) (hleads : schema.Leads names route)
    (hnames : names ≠ []) :
    schema.resolveFrom path root names = .error (.notAValue path (schema target).name) := by
  induction hleads with
  | here => exact absurd rfl hnames
  | @through start next target name names get onward hfirst honward ih =>
      have hfound := RecordType.find?_eq_some_iff.mpr hfirst
      cases honward with
      | here => exact resolveFrom_record hfound
      | through hinner hrest =>
          rw [resolveFrom_nested hfound, ih (List.cons_ne_nil _ _)]
          rfl

/-- How a path leads nowhere, `rest` being what is left of it at the record type that is reached. -/
inductive DeadEnd (schema : Schema Carrier) (path : Path) (target : Index) :
    (rest : List String) → CompileError → Prop where
  | record : DeadEnd schema path target [] (.notAValue path (schema target).name)
  | unknown {name : String} {others : List String} (habsent : name ∉ (schema target).fieldNames) :
      DeadEnd schema path target (name :: others) (.unknownAttribute path name
        (.record (schema target).name (schema target).fieldNames))
  | pastValue {name next : String} {others : List String} {kind : Kind}
      {read : Carrier target → Option Value}
      (hfirst : (schema target).IsFirst name (.value kind read)) :
      DeadEnd schema path target (name :: next :: others)
        (.unknownAttribute path next (.value kind))

theorem notMem_fieldNames_iff {name : String} :
    name ∉ (schema target).fieldNames ↔ ∀ slot, ¬(schema target).IsFirst name slot := by
  simp only [← RecordType.find?_eq_none_iff, Option.eq_none_iff_forall_ne_some,
    ← RecordType.find?_eq_some_iff, ne_eq]

/-- What is left of a path leads nowhere in one way only. -/
theorem DeadEnd.unique {path : Path} {one other : CompileError}
    (hone : schema.DeadEnd path target rest one) (hother : schema.DeadEnd path target rest other) :
    one = other := by
  cases hone with
  | record => cases hother; rfl
  | unknown habsent =>
      cases hother with
      | unknown => rfl
      | pastValue hfirst => exact absurd hfirst (notMem_fieldNames_iff.mp habsent _)
  | pastValue hfirst =>
      cases hother with
      | unknown habsent => exact absurd hfirst (notMem_fieldNames_iff.mp habsent _)
      | pastValue hagain =>
          cases hfirst.unique hagain
          rfl

theorem DeadEnd.not_isFirst {path : Path} {error : CompileError} {name : String}
    (hdead : schema.DeadEnd path target [name] error) (slot : Slot Carrier target) :
    ¬(schema target).IsFirst name slot := by
  cases hdead with
  | unknown habsent => exact notMem_fieldNames_iff.mp habsent slot

/-- Where the walk can go no further there is a value field at the end of the path, or no way on. -/
theorem resolveFrom_of_ends (path : Path) (hends : schema.Ends target rest) (hrest : rest ≠ []) :
    (∃ error, schema.DeadEnd path target rest error ∧
        schema.resolveFrom path target rest = .error error) ∨
      ∃ name kind read, rest = [name] ∧ (schema target).IsFirst name (.value kind read) ∧
        schema.resolveFrom path target rest = .ok ⟨kind, read⟩ := by
  obtain ⟨name, others, rfl⟩ := List.exists_cons_of_ne_nil hrest
  rcases hfound : (schema target).find? name with _ | ⟨kind, read⟩ | ⟨next, get⟩
  · exact .inl ⟨_, .unknown (RecordType.find?_eq_none_iff.mp hfound), resolveFrom_unknown hfound _⟩
  · have hfirst := RecordType.find?_eq_some_iff.mp hfound
    cases others with
    | nil => exact .inr ⟨name, kind, read, rfl, hfirst, resolveFrom_value hfound⟩
    | cons next others => exact .inl ⟨_, .pastValue hfirst, resolveFrom_past_value hfound _ _⟩
  · exact absurd (RecordType.find?_eq_some_iff.mp hfound) (hends _ _ _ _ rfl)

theorem resolve_of_leadsFurthest {path : Path}
    (hfurthest : schema.LeadsFurthest path.segments names rest route) :
    (∃ error, schema.DeadEnd path target rest error ∧ schema.resolve root path = .error error) ∨
      ∃ name kind read, rest = [name] ∧ (schema target).IsFirst name (.value kind read) ∧
        schema.resolve root path = .ok (Accessor.through ⟨kind, read⟩ route.follow) := by
  obtain ⟨hsegments, hleads, hends⟩ := leadsFurthest_iff.mp hfurthest
  rw [resolve, hsegments]
  by_cases hrest : rest = []
  · have hnames : names ≠ [] := by
      rintro rfl
      exact path.segments_ne_nil (hsegments.trans hrest)
    rw [hrest, List.append_nil]
    exact .inl ⟨_, .record, resolveFrom_of_leads path hleads hnames⟩
  · rw [resolveFrom_append path hleads hrest]
    obtain ⟨error, hdead, herror⟩ | ⟨name, kind, read, hname, hfirst, hvalue⟩ :=
      resolveFrom_of_ends path hends hrest
    · exact .inl ⟨error, hdead, congrArg (Except.map _) herror⟩
    · exact .inr ⟨name, kind, read, hname, hfirst, congrArg (Except.map _) hvalue⟩

theorem read_through_eq_none_iff {kind : Kind} {read : Carrier target → Option Value}
    {record : Carrier root} :
    (Accessor.through ⟨kind, read⟩ route.follow).read record = none ↔
      route.IsBroken record ∨
        ∃ reached, route.follow record = some reached ∧ read reached = none := by
  rw [Accessor.through, ← Route.follow_eq_none_iff]
  cases hfollow : route.follow record <;> simp [hfollow]

/-- **Resolving a path is the walk by hand.** Every path has a longest beginning of record fields,
and what is left of it decides. If that is one value field, the path resolves, and what is read is
what the getters find one after another and then the reader of the field: nothing exactly if one of
these finds nothing. Otherwise the error is that of the dead end. -/
theorem resolve_is_walk (schema : Schema Carrier) (root : Index) (path : Path) :
    (∃ (names rest : List String) (target : Index) (route : Route Carrier root target),
        schema.LeadsFurthest path.segments names rest route) ∧
      ∀ (names rest : List String) (target : Index) (route : Route Carrier root target),
        schema.LeadsFurthest path.segments names rest route →
          (∀ accessor, schema.resolve root path = .ok accessor ↔
            ∃ name read, rest = [name] ∧
              (schema target).IsFirst name (.value accessor.kind read) ∧
              ∀ record, accessor.read record = (route.follow record).bind read ∧
                (accessor.read record = none ↔ route.IsBroken record ∨
                  ∃ reached, route.follow record = some reached ∧ read reached = none)) ∧
          ∀ error, schema.resolve root path = .error error ↔
            schema.DeadEnd path target rest error := by
  refine ⟨schema.exists_leadsFurthest root path.segments, ?_⟩
  intro names rest target route hfurthest
  obtain ⟨found, hdead, hresolve⟩ | ⟨name, kind, read, rfl, hfirst, hresolve⟩ :=
    resolve_of_leadsFurthest hfurthest
  · constructor
    · intro accessor
      refine iff_of_false (by simp [hresolve]) ?_
      rintro ⟨name, read, rfl, hfirst, -⟩
      exact hdead.not_isFirst _ hfirst
    · intro error
      rw [hresolve, Except.error.injEq]
      constructor
      · rintro rfl
        exact hdead
      · exact hdead.unique
  · constructor
    · rintro ⟨otherKind, otherRead⟩
      rw [hresolve, Except.ok.injEq]
      constructor
      · intro haccessor
        cases haccessor
        exact ⟨name, read, rfl, hfirst, fun record => ⟨rfl, read_through_eq_none_iff⟩⟩
      · rintro ⟨_, other, hname, hother, hread⟩
        cases hname
        cases hfirst.unique hother
        exact congrArg (Accessor.mk _) (funext fun record => (hread record).1.symm)
    · intro error
      refine iff_of_false (by simp [hresolve]) ?_
      intro hdead
      exact hdead.not_isFirst _ hfirst

/-- From an account to the parent of its parent. -/
def grandparent : Route Table.Rows 0 0 :=
  let parent : Table.Rows 0 → Option (Table.Rows 0) := fun row => row[1]?.bind Cell.row?
  .through parent (.through parent .here)

/-- The name of a grandparent, on a way that may break off; a record in place of a value; a path
that goes on from a name. -/
theorem resolve_is_walk_grandparent :
    accounts.LeadsFurthest ["Parent", "Parent", "Name"] ["Parent", "Parent"] ["Name"] grandparent ∧
      (∃ accessor, accounts.resolve 0 ⟨"Parent.Parent.Name"⟩ = .ok accessor ∧
        accessor.read (account "leaf" (.row (account "middle" (.row (account "root" .absent))))) =
            some (.string "root") ∧
          accessor.read (account "leaf" (.row (account "middle" .absent))) = none) ∧
      accounts.resolve 0 ⟨"Parent.Parent"⟩ = .error (.notAValue ⟨"Parent.Parent"⟩ "Account") ∧
      accounts.resolve 0 ⟨"Parent.Parent.Name.Length"⟩ =
        .error (.unknownAttribute ⟨"Parent.Parent.Name.Length"⟩ "Length" (.value .string)) := by
  have hparent : (accounts 0).IsFirst "Parent"
      (.nested 0 fun row : Row => row[1]?.bind Cell.row?) := RecordType.find?_eq_some_iff.mp rfl
  have hname : (accounts 0).IsFirst "Name"
      (.value .string fun row : Row => row[0]?.bind Cell.value?) :=
    RecordType.find?_eq_some_iff.mp rfl
  have hleads : accounts.Leads ["Parent", "Parent"] grandparent :=
    .through hparent (.through hparent (.here 0))
  have hends (others : List String) : accounts.Ends 0 ("Name" :: others) := by
    rintro _ _ next get hrest hfirst
    cases hrest
    cases hfirst.unique hname
  have hwhole : accounts.LeadsFurthest ["Parent", "Parent", "Name"] _ ["Name"] grandparent :=
    leadsFurthest_iff.mpr ⟨rfl, hleads, hends []⟩
  have hrecord : accounts.LeadsFurthest ["Parent", "Parent"] _ [] grandparent :=
    leadsFurthest_iff.mpr ⟨rfl, hleads, nofun⟩
  have hpast : accounts.LeadsFurthest ["Parent", "Parent", "Name", "Length"] _ ["Name", "Length"]
      grandparent := leadsFurthest_iff.mpr ⟨rfl, hleads, hends ["Length"]⟩
  let reader : Accessor Row := ⟨.string, fun row => row[0]?.bind Cell.value?⟩
  refine ⟨hwhole, ⟨reader.through grandparent.follow, ?_, rfl, rfl⟩, ?_, ?_⟩
  · exact (((resolve_is_walk accounts 0 ⟨"Parent.Parent.Name"⟩).2 _ _ _ _ hwhole).1 _).mpr
      ⟨"Name", _, rfl, hname, fun record => ⟨rfl, read_through_eq_none_iff⟩⟩
  · exact (((resolve_is_walk accounts 0 ⟨"Parent.Parent"⟩).2 _ _ _ _ hrecord).2 _).mpr .record
  · exact (((resolve_is_walk accounts 0 ⟨"Parent.Parent.Name.Length"⟩).2 _ _ _ _ hpast).2 _).mpr
      (.pastValue hname)

end Schema

end RecordRules
