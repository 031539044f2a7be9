import RecordRules.Proofs.Compile.Correct
import RecordRules.Proofs.Compile.Faults

/-!
# The depth of a rule

Compiling counts the depth of rules on its own and comes to what reading comes to: both keep their
limit, and at the same height. A rule that was read within a limit is therefore never too deep to be
compiled within it. Main statement: `Compiler.limits_are_kept`.
-/

namespace RecordRules

variable {Index : Type} {Carrier : Index → Type} {schema : Schema Carrier} {root : Index}

/-! ### Levels -/

namespace Rule

theorem nodes_le_iff {limit level : Nat} {rule : Rule} :
    (∀ node ∈ rule.nodes level, node.1 ≤ limit) ↔ level + rule.height ≤ limit + 1 := by
  have hgroup : ∀ {rules : List Rule}, (∀ rule ∈ rules, ∀ {level},
      (∀ node ∈ rule.nodes level, node.1 ≤ limit) ↔ level + rule.height ≤ limit + 1) →
      ∀ level, (level ≤ limit ∧ ∀ node ∈ nodesOf (level + 1) rules, node.1 ≤ limit) ↔
        level + (1 + heights rules) ≤ limit + 1 := by
    intro rules ih level
    calc (level ≤ limit ∧ ∀ node ∈ nodesOf (level + 1) rules, node.1 ≤ limit)
        ↔ level ≤ limit ∧ ∀ rule ∈ rules, level + 1 + rule.height ≤ limit + 1 := by
          rw [nodesOf_eq, List.forall_mem_flatMap]
          exact and_congr_right fun _ => forall₂_congr fun rule hmem => ih rule hmem
      _ ↔ level ≤ limit ∧ heights rules ≤ limit - level := by
          rw [heights_le_iff]
          refine and_congr_right fun hlevel => forall₂_congr fun rule _ => ?_
          omega
      _ ↔ level + (1 + heights rules) ≤ limit + 1 := by omega
  induction rule generalizing level with
  | all rules ih =>
      rw [nodes, List.forall_mem_cons, height]
      exact hgroup ih level
  | any rules ih =>
      rw [nodes, List.forall_mem_cons, height]
      exact hgroup ih level
  | not rule ih =>
      have hinner : (∀ node ∈ rule.nodes (level + 1), node.1 ≤ limit) ↔
          level + 1 + rule.height ≤ limit + 1 := ih
      rw [nodes, List.forall_mem_cons, hinner, height]
      omega
  | compare comparison =>
      rw [nodes, List.forall_mem_singleton, height]
      omega

/-- The deepest node of a rule is as deep as the rule is high. -/
theorem height_le_iff_nodes {limit : Nat} {rule : Rule} :
    rule.height ≤ limit ↔ ∀ node ∈ rule.nodes 1, node.1 ≤ limit := by
  rw [nodes_le_iff]
  omega

end Rule

namespace Schema

/-- A path that leads nowhere is not blamed on the depth, however long it is. -/
theorem failure?_resolveFrom_ne_tooDeep {path : Path} {limit : Nat} {segments : List String}
    {index : Index} :
    failure? (schema.resolveFrom path index segments) ≠ some (.tooDeep limit) := by
  induction segments generalizing index with
  | nil => simp [failure?]
  | cons name rest ih =>
      rcases hfound : (schema index).find? name with _ | ⟨kind, read⟩ | ⟨target, get⟩
      · simp [resolveFrom_unknown hfound, failure?]
      · cases rest with
        | nil => simp [resolveFrom_value hfound, failure?]
        | cons next others => simp [resolveFrom_past_value hfound, failure?]
      · cases rest with
        | nil => simp [resolveFrom_record hfound, failure?]
        | cons next others =>
            rw [resolveFrom_nested hfound]
            exact (failure?_map (·.through get) _).trans_ne ih

theorem tooDeep_notMem_ownFaults (schema : Schema Carrier) (root : Index) (limit : Nat)
    (rule : Rule) : .tooDeep limit ∉ schema.ownFaults root rule := by
  cases rule with
  | compare comparison =>
      rw [ownFaults, comparisonFaults]
      cases hresolve : schema.resolve root comparison.path with
      | error error =>
          rw [List.mem_singleton]
          rintro rfl
          exact failure?_resolveFrom_ne_tooDeep (congrArg failure? hresolve)
      | ok field =>
          dsimp only [Comparison.faultsFor]
          rw [List.mem_append]
          rintro (hmem | hmem)
          · split at hmem <;> simp at hmem
          · split at hmem <;> simp at hmem
  | _ => exact List.not_mem_nil

theorem nodeFaults_eq_nil_iff {limit : Nat} {node : Nat × Rule} :
    schema.nodeFaults root limit node = [] ↔
      node.1 ≤ limit ∧ schema.ownFaults root node.2 = [] := by
  simp [nodeFaults]

theorem tooDeep_mem_nodeFaults_iff {limit named : Nat} {node : Nat × Rule} :
    .tooDeep named ∈ schema.nodeFaults root limit node ↔ named = limit ∧ limit < node.1 := by
  simp [nodeFaults, tooDeep_notMem_ownFaults, and_comm]

/-- A rule has no fault exactly if it is not higher than the limit and no node has one of its
own. -/
theorem faults_eq_nil_iff {limit : Nat} {rule : Rule} :
    schema.faults root limit rule = [] ↔
      rule.height ≤ limit ∧ ∀ node ∈ rule.nodes 1, schema.ownFaults root node.2 = [] := by
  rw [faults, List.flatMap_eq_nil_iff, Rule.height_le_iff_nodes, ← forall₂_and]
  exact forall₂_congr fun node _ => nodeFaults_eq_nil_iff

/-- A rule is too deep exactly if it is higher than the limit. -/
theorem tooDeep_mem_faults_iff {limit named : Nat} {rule : Rule} :
    .tooDeep named ∈ schema.faults root limit rule ↔ named = limit ∧ limit < rule.height := by
  rw [faults, List.mem_flatMap, ← Nat.not_le, Rule.height_le_iff_nodes]
  push Not
  constructor
  · rintro ⟨node, hnode, hmem⟩
    obtain ⟨hnamed, hdeep⟩ := tooDeep_mem_nodeFaults_iff.mp hmem
    exact ⟨hnamed, node, hnode, hdeep⟩
  · rintro ⟨hnamed, node, hnode, hdeep⟩
    exact ⟨node, hnode, tooDeep_mem_nodeFaults_iff.mpr ⟨hnamed, hdeep⟩⟩

/-! ### Compiling with more depth -/

theorem compile_agreesUnless {limit larger depth deeper : Nat} (hle : depth ≤ deeper)
    (rule : Rule) :
    AgreesUnless (· = .tooDeep limit) (schema.compile root limit depth rule).outcome
      (schema.compile root larger deeper rule).outcome := by
  induction depth generalizing deeper rule with
  | zero => exact .inl ⟨_, rfl, outcome_compile_zero rule⟩
  | succ depth ih =>
      obtain ⟨deeper, rfl⟩ := Nat.exists_eq_add_of_lt hle
      have hoperand := ih (Nat.le_add_right depth deeper)
      cases rule with
      | all rules =>
          rw [outcome_compile_all, outcome_compile_all]
          exact (AgreesUnless.mapM hoperand rules).map _
      | any rules =>
          rw [outcome_compile_any, outcome_compile_any]
          exact (AgreesUnless.mapM hoperand rules).map _
      | not rule =>
          rw [outcome_compile_not, outcome_compile_not]
          exact (hoperand rule).map _
      | compare comparison => exact .refl _

/-- What a limit has to do with whether a rule compiles is the height of the rule. -/
theorem compile_eq_ok_iff {limit : Nat} {rule : Rule} :
    (∃ condition, (schema.compile root limit limit rule).outcome = .ok condition) ↔
      rule.height ≤ limit ∧ ∀ node ∈ rule.nodes 1, schema.ownFaults root node.2 = [] := by
  rw [← failure?_eq_none_iff, failure?_compile_root, List.head?_eq_none_iff, faults_eq_nil_iff]

/-- **Compiling keeps its limit**: it takes the height of the rule to compile it, and a rule that is
refused for any other reason is refused for this reason at every larger limit. -/
theorem keepsLimit_compile (schema : Schema Carrier) (root : Index) (rule : Rule) :
    KeepsLimit (fun limit => (schema.compile root limit limit rule).outcome)
      fun _ => rule.height := by
  apply KeepsLimit.of_agreesUnless
  · intro limit larger hle
    exact compile_agreesUnless hle rule
  · intro limit condition hcompile
    exact (compile_eq_ok_iff.mp ⟨condition, hcompile⟩).1
  · intro enough limit condition hcompile hheight
    have hown := (compile_eq_ok_iff.mp ⟨condition, hcompile⟩).2
    exact compile_eq_ok_iff.mpr ⟨hheight, hown⟩

theorem failure?_compile_ne_tooDeep (schema : Schema Carrier) (root : Index) {limit : Nat}
    {rule : Rule} (hheight : rule.height ≤ limit) (named : Nat) :
    failure? (schema.compile root limit limit rule).outcome ≠ some (.tooDeep named) := by
  rw [failure?_compile_root]
  intro hhead
  have hdeep := (tooDeep_mem_faults_iff.mp (List.mem_of_mem_head? hhead)).2
  exact Nat.not_lt.mpr hheight hdeep

end Schema

/-! ### The height of a condition -/

namespace Condition

variable {α : Type}

theorem heights_le {conditions : List (Condition α)} {rules : List Rule}
    (hpairs : List.Forall₂ (fun condition rule => condition.height ≤ rule.height)
      conditions rules) :
    heights conditions ≤ Rule.heights rules := by
  induction hpairs with
  | nil => exact Nat.le_refl 0
  | cons hhead _ ih => exact max_le_max hhead ih

/-- A group is one higher than its operands at most. -/
theorem height_group_le {unit : Bool} {combine : List (Condition α) → Condition α}
    (hcombine : ∀ conditions, (combine conditions).height = 1 + heights conditions)
    (conditions : List (Condition α)) :
    (group unit combine conditions).height ≤ 1 + heights conditions := by
  match conditions with
  | [] => exact Nat.le_refl 1
  | [condition] =>
      rw [group, heights, heights]
      omega
  | first :: second :: rest => exact Nat.le_of_eq (hcombine _)

end Condition

namespace Schema

/-- A condition is not higher than the rule that it was compiled from. -/
theorem height_compile_le {limit depth : Nat} {rule : Rule} {condition : Condition (Carrier root)}
    (hcompile : (schema.compile root limit depth rule).outcome = .ok condition) :
    condition.height ≤ rule.height := by
  have hoperands {rules : List Rule} {conditions : List (Condition (Carrier root))}
      (hpairs : List.Forall₂ (fun rule condition => condition.height ≤ rule.height)
        rules conditions) : 1 + Condition.heights conditions ≤ 1 + Rule.heights rules :=
    Nat.add_le_add_left (Condition.heights_le hpairs.flip) 1
  refine compile_induction (motive := fun _ rule condition => condition.height ≤ rule.height)
    ?all ?any ?not ?compare hcompile
  case all =>
    intro depth rules conditions hpairs
    exact (Condition.height_group_le (fun _ => rfl) conditions).trans (hoperands hpairs)
  case any =>
    intro depth rules conditions hpairs
    exact (Condition.height_group_le (fun _ => rfl) conditions).trans (hoperands hpairs)
  case not =>
    intro depth rule condition hinner
    exact Nat.add_le_add_left hinner 1
  case compare =>
    intro depth comparison condition hcomparison
    obtain ⟨field, -, -, -, rfl⟩ := compileComparison_eq_ok hcomparison
    exact Nat.le_refl 1

/-! ### The depth that is left -/

/-- One step of a compilation, what is inside of a rule being left to `child`. -/
def compileNode (schema : Schema Carrier) (root : Index)
    (child : Rule → Logged CompileError (Condition (Carrier root))) :
    Rule → Logged CompileError (Condition (Carrier root))
  | .all rules => return .group true .all (← rules.mapM child)
  | .any rules => return .group false .any (← rules.mapM child)
  | .not rule => return .not (← child rule)
  | .compare comparison => schema.compileComparison root comparison

theorem compile_zero (schema : Schema Carrier) (root : Index) (limit : Nat) :
    schema.compile root limit 0 = fun _ => .ofExcept (.error (.tooDeep limit)) := by
  funext rule
  cases rule <;> rfl

theorem compile_succ_eq_compileNode (schema : Schema Carrier) (root : Index) (limit depth : Nat) :
    schema.compile root limit (depth + 1) =
      schema.compileNode root (schema.compile root limit depth) := by
  funext rule
  cases rule <;> rfl

/-- The depth that is left is never counted below zero. -/
theorem compile_of_countsDown {limit : Nat}
    {descent : Int → Rule → Logged CompileError (Condition (Carrier root))}
    (hdescent : CountsDown (fun _ => .ofExcept (.error (.tooDeep limit)))
      (schema.compileNode root) descent) (rule : Rule) :
    descent limit rule = schema.compile root limit limit rule :=
  congrFun (hdescent.eq_recursion (schema.compile_zero root limit)
    (schema.compile_succ_eq_compileNode root limit) limit) rule

end Schema

namespace Compiler

/-- **Limits are kept** by reading and by compiling, and at the same height. What was read is not
too deep to be compiled, no condition is higher than the limit, and neither reading nor compiling
counts what is left of the limit below zero. -/
theorem limits_are_kept (schema : Schema Carrier) (root : Index) :
    (∀ document, KeepsLimit (fun limit => Rule.ofJson document limit) Rule.height) ∧
      (∀ rule, KeepsLimit (fun limit => (schema.compile root limit limit rule).outcome)
        fun _ => rule.height) ∧
      (∀ (compiler : Compiler) document rule, compiler.read document = .ok rule → ∀ named,
        (compiler.compileJson schema root document).outcome ≠ .error (.tooDeep named) ∧
          (compiler.predicateOfJson schema root document).outcome ≠ .error (.tooDeep named)) ∧
      (∀ (compiler : Compiler) rule condition,
        (compiler.compile schema root rule).outcome = .ok condition →
          condition.height ≤ compiler.maxDepth) ∧
      ∀ limit : Nat,
        (∀ reader, CountsDown (fun _ => .error (.tooDeep limit)) Document.readNode reader →
          ∀ document, reader limit document = Rule.ofJson document limit) ∧
        ∀ descent, CountsDown (fun _ => .ofExcept (.error (.tooDeep limit)))
            (schema.compileNode root) descent →
          ∀ rule, descent limit rule = schema.compile root limit limit rule := by
  refine ⟨Document.keepsLimit_ofJson, schema.keepsLimit_compile root, ?_, ?_, fun limit => ⟨?_, ?_⟩⟩
  · intro compiler document rule hread named
    have hheight := Document.height_le_of_describes (Document.read_eq_ok_iff.mp hread)
    have hcompile := Schema.failure?_compile_ne_tooDeep schema root hheight named
    constructor
    · rw [outcome_compileJson, hread, ok_bind, outcome_compile, ne_eq, ← failure?_eq_some_iff]
      exact hcompile
    · rw [outcome_predicateOfJson, hread, ok_bind, outcome_predicate, ne_eq,
        ← failure?_eq_some_iff, failure?_map]
      exact hcompile
  · intro compiler rule condition hcompile
    rw [outcome_compile] at hcompile
    exact Nat.le_trans (Schema.height_compile_le hcompile)
      (Schema.compile_eq_ok_iff.mp ⟨condition, hcompile⟩).1
  · exact fun reader => Document.read_of_countsDown
  · exact fun descent => Schema.compile_of_countsDown

theorem limits_are_kept_notRoot :
    Rule.ofJson notRoot.toJson 64 = .ok notRoot ∧
      Rule.ofJson notRoot.toJson 1 = .error (.tooDeep 1) ∧
      (accounts.compile 0 64 64 deepBeforeUnordered).outcome =
        .error (.kindMismatch ⟨"Name"⟩ .greaterThan .string .int32) ∧
      (accounts.compile 0 1 1 notRoot).outcome = .error (.tooDeep 1) ∧
      (Compiler.compileJson ⟨2⟩ accounts 0 notRoot.toJson).outcome ≠ .error (.tooDeep 2) ∧
      (∃ condition, (Compiler.compile ⟨2⟩ accounts 0 notRoot).outcome = .ok condition ∧
        condition.height ≤ 2) ∧
      (∃ reader, CountsDown (fun _ => .error (.tooDeep 2)) Document.readNode reader ∧
        reader 2 notRoot.toJson = .ok notRoot) ∧
      ∃ descent, CountsDown (fun _ => .ofExcept (.error (.tooDeep 1)))
          (accounts.compileNode 0) descent ∧
        (descent 1 notRoot).outcome = .error (.tooDeep 1) := by
  obtain ⟨hreading, hcompiling, hread, hheight, hcounts⟩ := limits_are_kept accounts 0
  have hnotRoot : Rule.ofJson notRoot.toJson 2 = .ok notRoot := rfl
  have hmismatch : (accounts.compile 0 3 3 deepBeforeUnordered).outcome =
      .error (.kindMismatch ⟨"Name"⟩ .greaterThan .string .int32) := rfl
  obtain ⟨condition, hcondition⟩ : ∃ condition,
      (Compiler.compile ⟨2⟩ accounts 0 notRoot).outcome = .ok condition := ⟨_, rfl⟩
  refine ⟨?_, ?_, ?_, ?_, ?_, ?_, ?_, ?_⟩
  · exact (hreading notRoot.toJson).exact 2 notRoot hnotRoot 64
  · exact (hreading notRoot.toJson).exact 2 notRoot hnotRoot 1
  · rw [← hmismatch]
    refine (hcompiling deepBeforeUnordered).stable 3 (fun named => ?_) 64 (by decide)
    simp [hmismatch]
  · exact (hcompiling notRoot).exact 2 condition (outcome_compile _ _ _ _ ▸ hcondition) 1
  · exact (hread ⟨2⟩ notRoot.toJson notRoot hnotRoot 2).1
  · exact ⟨condition, hcondition, hheight ⟨2⟩ notRoot condition hcondition⟩
  · have hreader :=
      CountsDown.of_recursion rfl (Document.read_succ_eq_readNode 2) fun _ => .ok notRoot
    exact ⟨_, hreader, ((hcounts 2).1 _ hreader notRoot.toJson).trans hnotRoot⟩
  · have hdescent := CountsDown.of_recursion (accounts.compile_zero 0 1)
      (accounts.compile_succ_eq_compileNode 0 1) fun _ => .ofExcept (.ok (.const true))
    exact ⟨_, hdescent, congrArg Logged.outcome ((hcounts 1).2 _ hdescent notRoot)⟩

end Compiler

end RecordRules
