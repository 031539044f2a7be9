import RecordRules.Proofs.Schema.Likeness

/-!
# The descent along a path

A path is split at its points, and joining the segments gives the path back. Resolving it takes one
call for each record type that is reached, and a record type may lead to itself, so nothing in the
schema makes the calls come to an end: what does is the path, since each call passes on what is left
of it behind one segment, and passes nothing on if nothing is left. Main statement:
`Schema.segments_never_run_out`.
-/

namespace RecordRules

/-! ### Splitting and joining -/

namespace Path

theorem splitAtPoints_eq_splitOn (chars : List Char) : splitAtPoints chars = chars.splitOn '.' := by
  induction chars with
  | nil => rfl
  | cons char rest ih =>
      rw [List.splitOn_cons_eq_if_modifyHead, ← ih, splitAtPoints]
      by_cases hpoint : char = '.'
      · rw [if_pos hpoint, if_pos (beq_iff_eq.mpr hpoint)]
      · rw [if_neg hpoint, if_neg (by rwa [beq_iff_eq])]
        cases hsplit : splitAtPoints rest with
        | nil => exact absurd hsplit (splitAtPoints_ne_nil rest)
        | cons first others => rfl

theorem map_toList_segments (path : Path) :
    path.segments.map String.toList = path.text.toList.splitOn '.' := by
  simp [segments, splitAtPoints_eq_splitOn, Function.comp_def]

theorem ofSegments_segments (path : Path) : ofSegments path.segments = path := by
  have htext : String.intercalate "." path.segments = path.text := by
    rw [← String.toList_inj, String.toList_intercalate, map_toList_segments]
    exact List.intercalate_splitOn '.'
  rw [ofSegments, htext]

theorem segments_ofSegments {names : List String} (hnonempty : names ≠ [])
    (hpoints : ∀ name ∈ names, '.' ∉ name.toList) : (ofSegments names).segments = names := by
  have hnames : names.map String.toList ≠ [] := by simpa using hnonempty
  have hsplit : (String.intercalate "." names).toList.splitOn '.' = names.map String.toList := by
    rw [String.toList_intercalate]
    exact List.splitOn_intercalate '.' (List.forall_mem_map.mpr hpoints) hnames
  rw [segments, splitAtPoints_eq_splitOn, ofSegments, hsplit, List.map_map]
  simp [Function.comp_def]

end Path

namespace Schema

variable {Index : Type} {Carrier : Index → Type} {schema : Schema Carrier} {path : Path}

/-! ### One call -/

/-- What resolving comes to from each record type with each rest of a path. -/
abbrev Resolution (Carrier : Index → Type) : Type :=
  (index : Index) → List String → Except CompileError (Accessor (Carrier index))

/-- One call of a resolution, further calls being left to `descend`. What a call without a segment
comes to is left to `stranded`. -/
def resolveStep (schema : Schema Carrier) (path : Path)
    (stranded : (index : Index) → Except CompileError (Accessor (Carrier index)))
    (descend : Resolution Carrier) : Resolution Carrier
  | index, [] => stranded index
  | index, segment :: rest =>
    match (schema index).find? segment, rest with
    | none, _ => .error (.unknownAttribute path segment (schema.owner index))
    | some (.value kind read), [] => .ok ⟨kind, read⟩
    | some (.value kind _), next :: _ => .error (.unknownAttribute path next (.value kind))
    | some (.nested target _), [] => .error (.notAValue path (schema target).name)
    | some (.nested target get), rest => (descend target rest).map (·.through get)

/-- The error of a call that is left without a segment. -/
def noSegment (schema : Schema Carrier) (path : Path) (index : Index) :
    Except CompileError (Accessor (Carrier index)) :=
  .error (.unknownAttribute path "" (schema.owner index))

/-- Resolving is made of such calls. -/
theorem resolveFrom_eq_resolveStep (schema : Schema Carrier) (path : Path) :
    schema.resolveFrom path =
      schema.resolveStep path (schema.noSegment path) (schema.resolveFrom path) := by
  funext index segments
  cases segments with
  | nil => rfl
  | cons segment rest =>
      rw [resolveFrom_cons, resolveStep.eq_def]
      dsimp only
      rcases (schema index).find? segment with _ | ⟨kind, read⟩ | ⟨target, get⟩ <;>
        cases rest <;> rfl

/-- What is behind the first segment is passed on if that segment is a record field, and only if
there is anything behind it. -/
theorem resolveStep_congr
    {stranded other : (index : Index) → Except CompileError (Accessor (Carrier index))}
    {descend further : Resolution Carrier} {index : Index} {segment : String} {rest : List String}
    (hfurther : ∀ target get, (schema index).find? segment = some (.nested target get) →
      rest ≠ [] → further target rest = descend target rest) :
    schema.resolveStep path other further index (segment :: rest) =
      schema.resolveStep path stranded descend index (segment :: rest) := by
  rw [resolveStep.eq_def, resolveStep.eq_def]
  dsimp only
  rcases hfound : (schema index).find? segment with _ | ⟨kind, read⟩ | ⟨target, get⟩
  · rfl
  · cases rest <;> rfl
  · cases rest with
    | nil => rfl
    | cons next others =>
        dsimp only
        rw [hfurther target get hfound (List.cons_ne_nil next others)]

/-- One call makes another one: what comes of the first depends on what comes of the second. -/
def CallMakes (schema : Schema Carrier) (path : Path) (index : Index) (segments : List String)
    (target : Index) (rest : List String) : Prop :=
  ∃ stranded descend further,
    (∀ next others, next ≠ target ∨ others ≠ rest → further next others = descend next others) ∧
      schema.resolveStep path stranded further index segments ≠
        schema.resolveStep path stranded descend index segments

theorem callMakes_iff {index target : Index} {segments rest : List String} :
    schema.CallMakes path index segments target rest ↔
      ∃ segment get, segments = segment :: rest ∧ rest ≠ [] ∧
        (schema index).find? segment = some (.nested target get) := by
  classical
  constructor
  · rintro ⟨stranded, descend, further, hfurther, hdepends⟩
    cases segments with
    | nil => exact absurd rfl hdepends
    | cons segment others =>
        by_contra hnone
        apply hdepends
        apply resolveStep_congr
        intro next get hfound hothers
        apply hfurther
        by_contra hsame
        rw [not_or, not_not, not_not] at hsame
        obtain ⟨rfl, rfl⟩ := hsame
        exact hnone ⟨segment, get, rfl, hothers, hfound⟩
  · rintro ⟨segment, get, rfl, hrest, hfound⟩
    -- Two answers of the second call that can be told apart.
    refine ⟨schema.noSegment path, fun _ _ => .error (.tooDeep 0),
      fun next others => .error (.tooDeep (if next = target ∧ others = rest then 1 else 0)), ?_, ?_⟩
    · intro next others hother
      dsimp only
      rw [if_neg (by tauto)]
    · obtain ⟨next, others, rfl⟩ := List.exists_cons_of_ne_nil hrest
      simp [resolveStep, hfound, Except.map]

/-! ### Calls one after another -/

/-- The calls that a resolution can come to, counted from the first one, which has none before. -/
inductive Calls (schema : Schema Carrier) (root : Index) (path : Path) :
    Nat → Index → List String → Prop where
  | first : Calls schema root path 0 root path.segments
  | next {count : Nat} {index target : Index} {segments rest : List String}
      (hcall : Calls schema root path count index segments)
      (hmakes : schema.CallMakes path index segments target rest) :
      Calls schema root path (count + 1) target rest

variable {root : Index}

/-- Each call has lost one more segment, and some are always left. -/
theorem Calls.eq_drop {count : Nat} {index : Index} {segments : List String}
    (hcall : schema.Calls root path count index segments) :
    segments = path.segments.drop count ∧ count < path.segments.length := by
  induction hcall with
  | first => exact ⟨rfl, List.length_pos_of_ne_nil path.segments_ne_nil⟩
  | @next count index target segments rest _ hmakes ih =>
      obtain ⟨segment, get, hsegments, hrest, -⟩ := callMakes_iff.mp hmakes
      have hdrop : rest = path.segments.drop (count + 1) := by
        rw [← List.tail_drop, ← ih.1, hsegments, List.tail_cons]
      refine ⟨hdrop, ?_⟩
      rw [hdrop, ne_eq, List.drop_eq_nil_iff] at hrest
      omega

/-- So many calls one inside the other. What a further call would come to is left to `beyond`. -/
def resolveWithin (schema : Schema Carrier) (path : Path)
    (stranded : (index : Index) → Except CompileError (Accessor (Carrier index)))
    (beyond : Resolution Carrier) : (count : Nat) → Resolution Carrier
  | 0 => beyond
  | count + 1 => schema.resolveStep path stranded (resolveWithin schema path stranded beyond count)

/-- As many calls as there are segments are enough, and none of them is left without a segment. -/
theorem resolveWithin_eq
    {stranded : (index : Index) → Except CompileError (Accessor (Carrier index))}
    {beyond : Resolution Carrier} {count : Nat} {index : Index} {segments : List String}
    (hnonempty : segments ≠ []) (hcount : segments.length ≤ count) :
    schema.resolveWithin path stranded beyond count index segments =
      schema.resolveFrom path index segments := by
  induction count generalizing index segments with
  | zero => exact absurd (List.length_eq_zero_iff.mp (Nat.le_zero.mp hcount)) hnonempty
  | succ count ih =>
      obtain ⟨segment, rest, rfl⟩ := List.exists_cons_of_ne_nil hnonempty
      rw [resolveFrom_eq_resolveStep, resolveWithin]
      apply resolveStep_congr
      intro target get _ hrest
      exact ih hrest (Nat.le_of_succ_le_succ hcount)

/-- **A path never runs out of segments while it is resolved.** Splitting a path and joining names
without points are inverse to each other. In every resolution each call is made with some segments,
namely with a shorter end of those of the call before; no call falls through to the error that there
is no segment, and there are not more calls than segments, even if record types lead to
themselves. -/
theorem segments_never_run_out (schema : Schema Carrier) (root : Index) :
    (∀ path : Path, path.segments ≠ [] ∧ (∀ segment ∈ path.segments, '.' ∉ segment.toList) ∧
      Path.ofSegments path.segments = path) ∧
    (∀ names : List String, names ≠ [] → (∀ name ∈ names, '.' ∉ name.toList) →
      (Path.ofSegments names).segments = names) ∧
    ∀ path : Path,
      (schema.resolveFrom path =
        schema.resolveStep path (schema.noSegment path) (schema.resolveFrom path)) ∧
      (∀ count index segments, schema.Calls root path count index segments →
        segments = path.segments.drop count ∧ count < path.segments.length ∧
        ∀ target rest, schema.CallMakes path index segments target rest →
          rest ≠ [] ∧ rest <:+ segments ∧ rest.length < segments.length) ∧
      ∀ stranded beyond count, path.segments.length ≤ count →
        schema.resolveWithin path stranded beyond count root path.segments =
          schema.resolve root path := by
  refine ⟨?_, ?_, fun path => ⟨schema.resolveFrom_eq_resolveStep path, ?_, ?_⟩⟩
  · intro path
    exact ⟨path.segments_ne_nil, fun segment => Path.point_notMem_of_mem_segments,
      path.ofSegments_segments⟩
  · intro names hnonempty hpoints
    exact Path.segments_ofSegments hnonempty hpoints
  · intro count index segments hcall
    refine ⟨hcall.eq_drop.1, hcall.eq_drop.2, fun target rest hmakes => ?_⟩
    obtain ⟨segment, get, rfl, hrest, -⟩ := callMakes_iff.mp hmakes
    exact ⟨hrest, List.suffix_cons segment rest, Nat.lt_succ_self rest.length⟩
  · intro stranded beyond count hcount
    exact resolveWithin_eq path.segments_ne_nil hcount

/-- From an account to the parent of its parent: the third call is the last one. -/
theorem segments_never_run_out_grandparent :
    (Path.ofSegments ["Parent", "Parent", "Name"]).segments = ["Parent", "Parent", "Name"] ∧
      accounts.Calls 0 ⟨"Parent.Parent.Name"⟩ 2 0 ["Name"] ∧
      (∀ count index segments, accounts.Calls 0 ⟨"Parent.Parent.Name"⟩ count index segments →
        count < 3) ∧
      ∀ stranded beyond, accounts.resolveWithin ⟨"Parent.Parent.Name"⟩ stranded beyond 3 0
        ["Parent", "Parent", "Name"] = accounts.resolve 0 ⟨"Parent.Parent.Name"⟩ := by
  have hsplit : (⟨"Parent.Parent.Name"⟩ : Path).segments = ["Parent", "Parent", "Name"] := by decide
  have hmakes (segment : String) (rest : List String) :
      accounts.CallMakes ⟨"Parent.Parent.Name"⟩ 0 ("Parent" :: segment :: rest) 0
        (segment :: rest) :=
    callMakes_iff.mpr ⟨"Parent", _, rfl, List.cons_ne_nil segment rest, rfl⟩
  have hfirst : accounts.Calls 0 ⟨"Parent.Parent.Name"⟩ 0 0 ["Parent", "Parent", "Name"] :=
    hsplit ▸ .first
  obtain ⟨-, hjoin, hcalls⟩ := segments_never_run_out accounts 0
  refine ⟨?_, .next (.next hfirst (hmakes _ _)) (hmakes _ _), ?_, ?_⟩
  · exact hjoin _ (List.cons_ne_nil _ _) (by decide)
  · intro count index segments hcall
    exact ((hcalls ⟨"Parent.Parent.Name"⟩).2.1 count index segments hcall).2.1
  · intro stranded beyond
    rw [← (hcalls ⟨"Parent.Parent.Name"⟩).2.2 stranded beyond 3 (by rw [hsplit]; decide), hsplit]

end Schema

end RecordRules
