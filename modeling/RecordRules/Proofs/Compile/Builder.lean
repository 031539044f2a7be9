import RecordRules.Proofs.Compile.Log
import RecordRules.Proofs.Compile.Run
import RecordRules.Proofs.Rule.Builder

/-!
# Compiling rules joined one by one

A rule that is joined to another one is run after it, and only while the first leaves the answer
open; it makes no difference whether the first was a group already, except that a group has to be
one level lower than its operands allow for. Main statement: this holds of both builders, for two
rules and for any number of them (`Compiler.builders_join`).
-/

namespace RecordRules

/-! ### Reports one after another -/

namespace Report

/-- A report that goes on with another one while its result is `unit`. -/
def followedBy (unit : Bool) (first second : Report) : Report :=
  if first.result = unit then
    ⟨second.result, first.evaluated ++ second.evaluated, first.satisfied ++ second.satisfied⟩
  else first

theorem result_followedBy (unit : Bool) (first second : Report) :
    (first.followedBy unit second).result =
      if first.result = unit then second.result else first.result := by
  rw [followedBy]
  split <;> rfl

/-- The result of a row of reports is decided by the results alone. -/
theorem result_foldl_followedBy {unit : Bool} {decides : Bool → Bool → Bool}
    (hdecides : ∀ left right, decides left right = if left = unit then right else left)
    (first : Report) (reports : List Report) :
    (reports.foldl (followedBy unit) first).result =
      (reports.map result).foldl decides first.result := by
  induction reports generalizing first with
  | nil => rfl
  | cons report rest ih => rw [List.foldl_cons, ih, result_followedBy, List.map_cons,
      List.foldl_cons, hdecides]

end Report

namespace Run

variable {unit : Bool}

theorem report_after (first second : Run) :
    (if first.held = unit then second.after first.made else first).report =
      first.report.followedBy unit second.report := by
  have hresult : first.report.result = first.held := rfl
  rw [Report.followedBy, hresult]
  split
  · simp [report, after]
  · rfl

theorem report_join_cons (run : Run) (rest : List Run) :
    (join unit (run :: rest)).report =
      (rest.map report).foldl (Report.followedBy unit) run.report := by
  -- The last run goes on from all the others.
  induction rest using List.reverseRecOn with
  | nil => rw [join_singleton, List.map_nil, List.foldl_nil]
  | append_singleton rest last ih =>
      rw [← List.cons_append, join_append, join_singleton, report_after, ih, List.map_append,
        List.foldl_append]
      rfl

end Run

/-! ### Joined predicates -/

/-- One predicate and then others, each of them run while the answer is `unit`, are as good as
`joined`. -/
structure Predicate.Follows {α : Type} (unit : Bool) (decides : Bool → Bool → Bool)
    (first : Predicate α) (others : List (Predicate α)) (joined : Predicate α) : Prop where
  comparisons_eq : joined.condition.comparisons =
    (first :: others).flatMap fun predicate => predicate.condition.comparisons
  test_eq (record : α) : joined.test record =
    (others.map fun predicate => predicate.test record).foldl decides (first.test record)
  report_eq (record : α) : joined.report record =
    (others.map fun predicate => predicate.report record).foldl (Report.followedBy unit)
      (first.report record)

variable {Index : Type} {Carrier : Index → Type} {schema : Schema Carrier} {root : Index}

namespace Schema

/-- A rule compiles within a limit. -/
def Compiles (schema : Schema Carrier) (root : Index) (limit : Nat) (rule : Rule) : Prop :=
  ∃ predicate, (Compiler.predicate ⟨limit⟩ schema root rule).outcome = .ok predicate

/-- What a rule compiles to, within whatever limit. -/
def CompilesTo (schema : Schema Carrier) (root : Index) (rule : Rule)
    (predicate : Predicate (Carrier root)) : Prop :=
  ∃ limit, (Compiler.predicate ⟨limit⟩ schema root rule).outcome = .ok predicate

/-- What is expected of a builder `join` of groups that `unit` leaves undecided. -/
structure Joins (schema : Schema Carrier) (root : Index) (unit : Bool)
    (group : List Rule → Rule) (join : Rule → Rule → Rule) (decides : Bool → Bool → Bool) :
    Prop where
  /-- A group takes in another operand. -/
  compiles_group_iff (rules : List Rule) (right : Rule) (depth : Nat) :
    schema.Compiles root (depth + 1) (join (group rules) right) ↔
      schema.Compiles root (depth + 1) (group rules) ∧ schema.Compiles root depth right
  /-- Any other rule becomes an operand itself. -/
  compiles_iff {left : Rule} (hother : ∀ rules, left ≠ group rules) (right : Rule) (depth : Nat) :
    schema.Compiles root (depth + 1) (join left right) ↔
      schema.Compiles root depth left ∧ schema.Compiles root depth right
  follows {left right : Rule} {first second joined : Predicate (Carrier root)}
    (hleft : schema.CompilesTo root left first) (hright : schema.CompilesTo root right second)
    (hjoined : schema.CompilesTo root (join left right) joined) :
    Predicate.Follows unit decides first [second] joined
  /-- However many rules are joined, they become one level higher at most. -/
  height_foldl_le (seed : Rule) (rules : List Rule) :
    (rules.foldl join seed).height ≤ 1 + Rule.heights (seed :: rules)
  compiles_foldl {seed : Rule} {rules : List Rule} {depth : Nat}
    (hrules : ∀ rule ∈ seed :: rules, schema.Compiles root depth rule) :
    schema.Compiles root (depth + 1) (rules.foldl join seed)
  follows_foldl {seed : Rule} {rules : List Rule} {first joined : Predicate (Carrier root)}
    {predicates : List (Predicate (Carrier root))} (hseed : schema.CompilesTo root seed first)
    (hrules : List.Forall₂ (schema.CompilesTo root) rules predicates)
    (hjoined : schema.CompilesTo root (rules.foldl join seed) joined) :
    Predicate.Follows unit decides first predicates joined

theorem Compiles.iff {limit : Nat} {rule : Rule} :
    schema.Compiles root limit rule ↔ rule.height ≤ limit ∧
      ∀ comparison ∈ rule.comparisons, schema.comparisonFaults root comparison = [] :=
  Compiler.predicate_compiles_iff

theorem compiles_junction_iff {unit : Bool} {rules : List Rule} {depth : Nat} :
    schema.Compiles root (depth + 1) (Rule.junction unit rules) ↔
      Rule.heights rules ≤ depth ∧ ∀ comparison ∈ rules.flatMap Rule.comparisons,
        schema.comparisonFaults root comparison = [] := by
  rw [Compiles.iff, Rule.height_junction, Nat.add_comm depth, Nat.add_le_add_iff_left,
    Rule.comparisons_junction]

/-- The parts of the first rule have to fit beside the second rule. -/
theorem compiles_join_iff {unit : Bool} {left right : Rule} {depth : Nat} :
    schema.Compiles root (depth + 1) (Rule.join unit left right) ↔
      schema.Compiles root (depth + 1) (Rule.junction unit (left.parts unit)) ∧
        schema.Compiles root depth right := by
  have hright : Rule.heights [right] ≤ depth ↔ right.height ≤ depth := by
    rw [Rule.heights_le_iff, List.forall_mem_singleton]
  rw [Rule.join_eq, compiles_junction_iff, compiles_junction_iff, Compiles.iff,
    Rule.heights_append_le_iff, hright, List.flatMap_append, List.flatMap_singleton,
    List.forall_mem_append, and_and_and_comm]

theorem compiles_junction_singleton_iff {unit : Bool} {rule : Rule} {depth : Nat} :
    schema.Compiles root (depth + 1) (Rule.junction unit [rule]) ↔
      schema.Compiles root depth rule := by
  rw [compiles_junction_iff, Compiles.iff, Rule.heights_le_iff, List.forall_mem_singleton,
    List.flatMap_singleton]

theorem compiles_foldl_join (unit : Bool) {seed : Rule} {rules : List Rule} {depth : Nat}
    (hrules : ∀ rule ∈ seed :: rules, schema.Compiles root depth rule) :
    schema.Compiles root (depth + 1) (rules.foldl (Rule.join unit) seed) := by
  have hheights : Rule.heights (seed :: rules) ≤ depth :=
    Rule.heights_le_iff.mpr fun rule hmem => (Compiles.iff.mp (hrules rule hmem)).1
  have hheight := Rule.height_foldl_join_le unit seed rules
  refine Compiles.iff.mpr ⟨by omega, ?_⟩
  rw [Rule.comparisons_foldl_join, List.forall_mem_flatMap]
  exact fun rule hmem => (Compiles.iff.mp (hrules rule hmem)).2

variable {rule : Rule} {predicate : Predicate (Carrier root)}

theorem CompilesTo.comparisons_eq (hcompiles : schema.CompilesTo root rule predicate) :
    predicate.condition.comparisons = rule.comparisons := by
  obtain ⟨limit, hpredicate⟩ := hcompiles
  obtain ⟨condition, hcondition, rfl⟩ := Compiler.predicate_eq_ok_iff.mp hpredicate
  exact comparisons_compile hcondition

theorem CompilesTo.report_eq (hcompiles : schema.CompilesTo root rule predicate)
    (record : Carrier root) :
    predicate.report record =
      (rule.run fun comparison => comparison.holdsIn schema root record).report := by
  obtain ⟨limit, hpredicate⟩ := hcompiles
  exact (Compiler.predicate_run hpredicate record).2

theorem CompilesTo.test_eq_result (hcompiles : schema.CompilesTo root rule predicate)
    (record : Carrier root) : predicate.test record = (predicate.report record).result := by
  obtain ⟨limit, hpredicate⟩ := hcompiles
  obtain ⟨htest, hreport⟩ := Compiler.predicate_run hpredicate record
  rw [htest, hreport]
  rfl

section Several

variable {rules : List Rule} {predicates : List (Predicate (Carrier root))}
  (hrules : List.Forall₂ (schema.CompilesTo root) rules predicates)
include hrules

theorem flatMap_comparisons_eq :
    rules.flatMap Rule.comparisons =
      predicates.flatMap fun predicate => predicate.condition.comparisons := by
  rw [List.flatMap_def, List.flatMap_def]
  refine congrArg List.flatten (map_eq_map_of_forall₂ ?_)
  exact hrules.imp fun rule predicate hcompiles => hcompiles.comparisons_eq.symm

theorem map_report_eq (record : Carrier root) :
    (rules.map (Rule.run fun comparison => comparison.holdsIn schema root record)).map Run.report =
      predicates.map fun predicate => predicate.report record := by
  rw [List.map_map]
  apply map_eq_map_of_forall₂
  exact hrules.imp fun rule predicate hcompiles => (hcompiles.report_eq record).symm

theorem map_result_eq (record : Carrier root) :
    (predicates.map fun predicate => predicate.report record).map Report.result =
      predicates.map fun predicate => predicate.test record := by
  have htests : ∀ predicate ∈ predicates,
      predicate.test record = (predicate.report record).result :=
    forall_mem_right_of_forall₂ hrules fun rule predicate hcompiles =>
      hcompiles.test_eq_result record
  rw [List.map_map]
  exact (List.map_congr_left htests).symm

/-- A rule that was built from several makes their comparisons, one rule after another. -/
theorem follows_foldl_join {unit : Bool} {decides : Bool → Bool → Bool}
    (hdecides : ∀ left right, decides left right = if left = unit then right else left)
    {seed : Rule} {first joined : Predicate (Carrier root)}
    (hseed : schema.CompilesTo root seed first)
    (hjoined : schema.CompilesTo root (rules.foldl (Rule.join unit) seed) joined) :
    Predicate.Follows unit decides first predicates joined := by
  -- The rules that were joined are run one after another, and every one of them is run as the
  -- predicate that it compiles to.
  have hreport (record : Carrier root) : joined.report record =
      (predicates.map fun predicate => predicate.report record).foldl (Report.followedBy unit)
        (first.report record) := by
    rw [hjoined.report_eq, hseed.report_eq, Rule.run_foldl_join, List.map_cons,
      Run.report_join_cons, map_report_eq hrules]
  constructor
  case comparisons_eq =>
    rw [hjoined.comparisons_eq, Rule.comparisons_foldl_join, List.flatMap_cons, List.flatMap_cons,
      hseed.comparisons_eq, flatMap_comparisons_eq hrules]
  case test_eq =>
    intro record
    rw [hjoined.test_eq_result, hseed.test_eq_result, hreport,
      Report.result_foldl_followedBy hdecides, map_result_eq hrules]
  case report_eq => exact hreport

end Several

/-- Both builders meet the expectation, since they differ in `unit` alone. -/
theorem joins_join {unit : Bool} {decides : Bool → Bool → Bool}
    (hdecides : ∀ left right, decides left right = if left = unit then right else left) :
    schema.Joins root unit (Rule.junction unit) (Rule.join unit) decides where
  compiles_group_iff rules right depth := by
    rw [compiles_join_iff, Rule.parts_junction]
  compiles_iff hother right depth := by
    rw [compiles_join_iff, Rule.parts_eq_singleton hother, compiles_junction_singleton_iff]
  follows hleft hright hjoined := follows_foldl_join (.cons hright .nil) hdecides hleft hjoined
  height_foldl_le := Rule.height_foldl_join_le unit
  compiles_foldl := compiles_foldl_join unit
  follows_foldl hseed hrules hjoined := follows_foldl_join hrules hdecides hseed hjoined

end Schema

namespace Compiler

/-- **The builders join rules as they say.** `Rule.and` makes conjunctions and `Rule.or`
disjunctions, in which the rules are run from left to right, whatever rules they are given. A group
of the same kind takes in the other rule where it is; any other rule moves down one level. -/
theorem builders_join (schema : Schema Carrier) (root : Index) :
    schema.Joins root true .all .and (· && ·) ∧ schema.Joins root false .any .or (· || ·) := by
  constructor
  · exact Schema.joins_join (by decide)
  · exact Schema.joins_join (by decide)

def isLeaf : Rule := .compare ⟨⟨"Name"⟩, .equals, .string ["leaf"]⟩

theorem builders_join_isLeaf :
    accounts.Compiles 0 3 (notRoot.and isLeaf) ∧ ¬accounts.Compiles 0 2 (notRoot.and isLeaf) ∧
      ∃ first second joined, accounts.CompilesTo 0 notRoot first ∧
        accounts.CompilesTo 0 isLeaf second ∧ accounts.CompilesTo 0 (notRoot.and isLeaf) joined ∧
        Predicate.Follows true (· && ·) first [second] joined := by
  obtain ⟨hjoins, -⟩ := builders_join accounts 0
  have hother (rules : List Rule) : notRoot ≠ .all rules := nofun
  obtain ⟨first, hfirst⟩ : accounts.Compiles 0 2 notRoot := ⟨_, rfl⟩
  obtain ⟨second, hsecond⟩ : accounts.Compiles 0 2 isLeaf := ⟨_, rfl⟩
  obtain ⟨joined, hjoined⟩ := (hjoins.compiles_iff hother isLeaf 2).mpr
    ⟨⟨first, hfirst⟩, ⟨second, hsecond⟩⟩
  refine ⟨⟨joined, hjoined⟩, ?_, first, second, joined, ⟨2, hfirst⟩, ⟨2, hsecond⟩, ⟨3, hjoined⟩, ?_⟩
  · intro hcompiles
    obtain ⟨⟨tooLow, htooLow⟩, -⟩ := (hjoins.compiles_iff hother isLeaf 1).mp hcompiles
    cases htooLow
  · exact hjoins.follows ⟨2, hfirst⟩ ⟨2, hsecond⟩ ⟨3, hjoined⟩

end Compiler

end RecordRules
