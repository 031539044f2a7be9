import RecordRules.Proofs.Condition.Trace

/-!
# Places in conditions

A comparison may occur in a condition many times over, so an occurrence is known by its place: the
operands on the way to it from the outside in. An occurrence is reached by an evaluation if every
group around it is still undecided when its turn comes. Main statement: a trace writes down the
occurrences that are reached, from left to right, and no other check has a say in it
(`Condition.trace_is_faithful`).
-/

namespace RecordRules

variable {α : Type}

/-- An occurrence of a comparison in a condition. -/
structure Leaf (α : Type) where
  place : List Nat
  comparison : Comparison
  check : α → Bool

namespace Leaf

/-- An occurrence in an operand as one in the group. -/
def within (index : Nat) (leaf : Leaf α) : Leaf α := { leaf with place := index :: leaf.place }

/-- What an evaluation makes of an occurrence that it reaches. -/
def outcome (record : α) (leaf : Leaf α) : Comparison × Bool := (leaf.comparison, leaf.check record)

def label (leaf : Leaf α) : String := leaf.comparison.label

end Leaf

namespace Condition

/-! ### Occurrences -/

def operands : Condition α → List (Condition α)
  | .all conditions => conditions
  | .any conditions => conditions
  | .not condition => [condition]
  | _ => []

def at? (condition : Condition α) : (place : List Nat) → Option (Condition α)
  | [] => some condition
  | index :: inner => condition.operands[index]?.bind fun operand => operand.at? inner

mutual

/-- The occurrences of comparisons from left to right. -/
def leaves : Condition α → List (Leaf α)
  | .const _ => []
  | .compare comparison check => [⟨[], comparison, check⟩]
  | .all conditions => leavesFrom 0 conditions
  | .any conditions => leavesFrom 0 conditions
  | .not condition => condition.leaves.map (.within 0)

def leavesFrom (index : Nat) : List (Condition α) → List (Leaf α)
  | [] => []
  | condition :: rest => condition.leaves.map (.within index) ++ leavesFrom (index + 1) rest

end

theorem mem_leavesFrom_iff {conditions : List (Condition α)} {index : Nat} {leaf : Leaf α} :
    leaf ∈ leavesFrom index conditions ↔
      ∃ (offset : Nat) (condition : Condition α), conditions[offset]? = some condition ∧
        leaf ∈ condition.leaves.map (.within (index + offset)) := by
  induction conditions generalizing index with
  | nil => simp [leavesFrom]
  | cons condition rest ih =>
      rw [leavesFrom, List.mem_append, ih]
      constructor
      · rintro (hfirst | ⟨offset, operand, hoperand, hleaf⟩)
        · exact ⟨0, condition, rfl, hfirst⟩
        · rw [Nat.add_right_comm] at hleaf
          exact ⟨offset + 1, operand, hoperand, hleaf⟩
      · rintro ⟨_ | offset, operand, hoperand, hleaf⟩
        · cases hoperand
          exact .inl hleaf
        · rw [← Nat.add_assoc, Nat.add_right_comm] at hleaf
          exact .inr ⟨offset, operand, hoperand, hleaf⟩

theorem mem_map_within_iff {leaves : List (Leaf α)} {index first : Nat} {inner : List Nat}
    {comparison : Comparison} {check : α → Bool} :
    ⟨first :: inner, comparison, check⟩ ∈ leaves.map (Leaf.within index) ↔
      index = first ∧ ⟨inner, comparison, check⟩ ∈ leaves := by
  rw [List.mem_map]
  constructor
  · rintro ⟨leaf, hleaf, hwithin⟩
    cases hwithin
    exact ⟨rfl, hleaf⟩
  · rintro ⟨rfl, hleaf⟩
    exact ⟨_, hleaf, rfl⟩

theorem mem_leaves_nil_iff {condition : Condition α} {comparison : Comparison}
    {check : α → Bool} :
    ⟨[], comparison, check⟩ ∈ condition.leaves ↔ condition = .compare comparison check := by
  cases condition <;> simp [leaves, mem_leavesFrom_iff, Leaf.within, @eq_comm Comparison,
    @eq_comm (α → Bool)]

theorem mem_leaves_cons_iff {condition : Condition α} {index : Nat} {inner : List Nat}
    {comparison : Comparison} {check : α → Bool} :
    ⟨index :: inner, comparison, check⟩ ∈ condition.leaves ↔
      ∃ operand, condition.operands[index]? = some operand ∧
        ⟨inner, comparison, check⟩ ∈ operand.leaves := by
  cases condition with
  | const value => simp [leaves, operands]
  | compare comparison check => simp [leaves, operands]
  | not condition =>
      rw [leaves, mem_map_within_iff]
      cases index <;> simp [operands]
  | all conditions =>
      rw [leaves, mem_leavesFrom_iff]
      simp only [mem_map_within_iff, operands]
      simp
  | any conditions =>
      rw [leaves, mem_leavesFrom_iff]
      simp only [mem_map_within_iff, operands]
      simp

/-- The occurrences are the places where a comparison stands. -/
theorem mem_leaves_iff {condition : Condition α} {leaf : Leaf α} :
    leaf ∈ condition.leaves ↔
      condition.at? leaf.place = some (.compare leaf.comparison leaf.check) := by
  obtain ⟨place, comparison, check⟩ := leaf
  induction place generalizing condition with
  | nil => rw [mem_leaves_nil_iff, at?, Option.some.injEq]
  | cons index inner ih => simp [mem_leaves_cons_iff, at?, ih, Option.bind_eq_some_iff]

theorem pairwise_leavesFrom {conditions : List (Condition α)}
    (hleaves : ∀ condition ∈ conditions,
      condition.leaves.Pairwise fun leaf other => leaf.place < other.place) (index : Nat) :
    (leavesFrom index conditions).Pairwise fun leaf other => leaf.place < other.place := by
  induction conditions generalizing index with
  | nil => exact .nil
  | cons condition rest ih =>
      obtain ⟨hcondition, hrest⟩ := List.forall_mem_cons.mp hleaves
      rw [leavesFrom, List.pairwise_append, List.pairwise_map]
      refine ⟨hcondition.imp fun hlt => ?_, ih hrest (index + 1), ?_⟩
      · exact List.cons_lt_cons_iff.mpr (.inr ⟨rfl, hlt⟩)
      · intro leaf hleaf other hother
        obtain ⟨inner, -, rfl⟩ := List.mem_map.mp hleaf
        obtain ⟨offset, operand, -, hother⟩ := mem_leavesFrom_iff.mp hother
        obtain ⟨otherInner, -, rfl⟩ := List.mem_map.mp hother
        exact List.cons_lt_cons_iff.mpr (.inl (by omega))

/-- The places of occurrences increase, so there is one occurrence at a place. -/
theorem pairwise_leaves (condition : Condition α) :
    condition.leaves.Pairwise fun leaf other => leaf.place < other.place := by
  induction condition with
  | const value => exact .nil
  | compare comparison check => exact List.pairwise_singleton _ _
  | all conditions ih => exact pairwise_leavesFrom ih 0
  | any conditions ih => exact pairwise_leavesFrom ih 0
  | not condition ih =>
      rw [leaves, List.pairwise_map]
      exact ih.imp fun hlt => List.cons_lt_cons_iff.mpr (.inr ⟨rfl, hlt⟩)

theorem comparison_leavesFrom {conditions : List (Condition α)}
    (hleaves : ∀ condition ∈ conditions,
      condition.leaves.map Leaf.comparison = condition.comparisons) (index : Nat) :
    (leavesFrom index conditions).map Leaf.comparison = comparisonsOf conditions := by
  induction conditions generalizing index with
  | nil => rfl
  | cons condition rest ih =>
      obtain ⟨hcondition, hrest⟩ := List.forall_mem_cons.mp hleaves
      rw [leavesFrom, List.map_append, List.map_map, comparisonsOf, ← hcondition, ih hrest]
      rfl

theorem comparison_leaves (condition : Condition α) :
    condition.leaves.map Leaf.comparison = condition.comparisons := by
  induction condition with
  | const value => rfl
  | compare comparison check => rfl
  | all conditions ih => exact comparison_leavesFrom ih 0
  | any conditions ih => exact comparison_leavesFrom ih 0
  | not condition ih =>
      rw [leaves, List.map_map, comparisons, ← ih]
      rfl

/-! ### Occurrences that are reached -/

/-- Nothing before an operand decides its group: in a conjunction all of it holds, in a disjunction
none of it does. -/
def LeavesOpen (record : α) (index : Nat) : Condition α → Prop
  | .all conditions => ∀ earlier ∈ conditions.take index, earlier.evaluate record = true
  | .any conditions => ∀ earlier ∈ conditions.take index, earlier.evaluate record = false
  | _ => True

/-- Every group around a place is open when its turn comes. -/
def IsReached (condition : Condition α) (record : α) (place : List Nat) : Prop :=
  ∀ outer index inner group, place = outer ++ index :: inner →
    condition.at? outer = some group → group.LeavesOpen record index

variable {record : α}

theorem isReached_nil (condition : Condition α) (record : α) : condition.IsReached record [] := by
  intro outer index inner group hplace
  simp at hplace

theorem isReached_cons_iff {condition : Condition α} {index : Nat} {inner : List Nat} :
    condition.IsReached record (index :: inner) ↔
      condition.LeavesOpen record index ∧
        ∀ operand ∈ condition.operands[index]?, operand.IsReached record inner := by
  constructor
  · intro hreached
    refine ⟨hreached [] index inner condition rfl rfl, ?_⟩
    intro operand hoperand outer next rest group hinner hgroup
    refine hreached (index :: outer) next rest group (congrArg (index :: ·) hinner) ?_
    rw [at?, hoperand]
    exact hgroup
  · rintro ⟨hopen, hoperands⟩ (_ | ⟨first, outer⟩) next rest group hplace hgroup
    · cases hplace
      cases hgroup
      exact hopen
    · cases hplace
      obtain ⟨operand, hoperand, hinner⟩ := Option.bind_eq_some_iff.mp hgroup
      exact hoperands operand hoperand outer next rest group rfl hinner

instance (condition : Condition α) (record : α) (index : Nat) :
    Decidable (condition.LeavesOpen record index) :=
  match condition with
  | .all conditions =>
    inferInstanceAs (Decidable (∀ earlier ∈ conditions.take index, earlier.evaluate record = true))
  | .any conditions =>
    inferInstanceAs (Decidable (∀ earlier ∈ conditions.take index, earlier.evaluate record = false))
  | .const _ => .isTrue trivial
  | .compare _ _ => .isTrue trivial
  | .not _ => .isTrue trivial

def decideReached (record : α) :
    (place : List Nat) → (condition : Condition α) → Decidable (condition.IsReached record place)
  | [], condition => .isTrue (isReached_nil condition record)
  | _ :: inner, _ =>
    have (operand : Condition α) : Decidable (operand.IsReached record inner) :=
      decideReached record inner operand
    decidable_of_iff _ isReached_cons_iff.symm

instance (condition : Condition α) (record : α) (place : List Nat) :
    Decidable (condition.IsReached record place) := decideReached record place condition

/-- The occurrences that an evaluation reaches, from left to right. -/
def reached (condition : Condition α) (record : α) : List (Leaf α) :=
  condition.leaves.filter fun leaf => condition.IsReached record leaf.place

/-- Those among them that hold. -/
def held (condition : Condition α) (record : α) : List (Leaf α) :=
  (condition.reached record).filter fun leaf => leaf.check record

theorem reached_compare (comparison : Comparison) (check : α → Bool) :
    (compare comparison check).reached record = [⟨[], comparison, check⟩] := by
  simp [reached, leaves, isReached_nil]

theorem reached_not (condition : Condition α) :
    (not condition).reached record = (condition.reached record).map (.within 0) := by
  rw [reached, leaves, List.filter_map]
  refine congrArg (List.map _) (List.filter_congr fun leaf _ => decide_eq_decide.mpr ?_)
  simp [Leaf.within, isReached_cons_iff, LeavesOpen, operands]

/-! ### Groups

Conjunctions and disjunctions differ in what leaves them undecided and in nothing else.
-/

/-- The group that operands which come out as `unit` leave undecided. -/
def junction : (unit : Bool) → List (Condition α) → Condition α
  | true => .all
  | false => .any

variable {unit : Bool} {conditions earlier rest : List (Condition α)} {condition : Condition α}

theorem evaluate_junction :
    (junction unit conditions).evaluate record =
      (conditions.all (fun condition => condition.evaluate record = unit) == unit) := by
  cases unit <;> simp [junction, evaluate, List.any_eq_not_all_not]

theorem made_junction :
    (junction unit conditions).made record = madeWhile record unit conditions := by
  cases unit <;> rfl

theorem reached_junction :
    (junction unit conditions).reached record =
      (leavesFrom 0 conditions).filter fun leaf =>
        (junction unit conditions).IsReached record leaf.place := by
  cases unit <;> rfl

theorem isReached_junction_iff {index : Nat} {inner : List Nat} :
    (junction unit conditions).IsReached record (index :: inner) ↔
      (∀ earlier ∈ conditions.take index, earlier.evaluate record = unit) ∧
        ∀ operand ∈ conditions[index]?, operand.IsReached record inner := by
  rw [isReached_cons_iff]
  cases unit <;> rfl

theorem filter_leavesFrom_cons (hearlier : ∀ operand ∈ earlier, operand.evaluate record = unit) :
    ((leavesFrom earlier.length (condition :: rest)).filter fun leaf =>
        (junction unit (earlier ++ condition :: rest)).IsReached record leaf.place) =
      (condition.reached record).map (.within earlier.length) ++
        if condition.evaluate record = unit then
          (leavesFrom (earlier ++ [condition]).length rest).filter fun leaf =>
            (junction unit ((earlier ++ [condition]) ++ rest)).IsReached record leaf.place
        else [] := by
  rw [leavesFrom, List.filter_append, List.filter_map]
  congr 1
  · refine congrArg (List.map _) (List.filter_congr fun leaf _ => decide_eq_decide.mpr ?_)
    simp only [Leaf.within]
    rw [isReached_junction_iff, List.take_left]
    simpa using fun _ => hearlier
  · rw [List.append_assoc, List.singleton_append, List.length_append, List.length_singleton]
    split
    · rfl
    · rename_i hdecides
      rw [List.filter_eq_nil_iff]
      intro leaf hleaf hreached
      -- Every occurrence further on has the deciding operand before it.
      obtain ⟨offset, operand, -, hleaf⟩ := mem_leavesFrom_iff.mp hleaf
      obtain ⟨inner, -, rfl⟩ := List.mem_map.mp hleaf
      obtain ⟨hopen, -⟩ := isReached_junction_iff.mp (of_decide_eq_true hreached)
      refine hdecides (hopen condition ?_)
      rw [Nat.add_assoc, List.take_length_add_append, Nat.add_comm 1, List.take_succ_cons]
      exact List.mem_append_right _ List.mem_cons_self

theorem madeWhile_eq (earlier : List (Condition α))
    (hearlier : ∀ operand ∈ earlier, operand.evaluate record = unit)
    (hrest : ∀ operand ∈ rest,
      operand.made record = (operand.reached record).map (Leaf.outcome record)) :
    madeWhile record unit rest =
      ((leavesFrom earlier.length rest).filter fun leaf =>
        (junction unit (earlier ++ rest)).IsReached record leaf.place).map
          (Leaf.outcome record) := by
  induction rest generalizing earlier with
  | nil => rfl
  | cons condition rest ih =>
      obtain ⟨hcondition, hrest⟩ := List.forall_mem_cons.mp hrest
      rw [madeWhile, hcondition, filter_leavesFrom_cons hearlier, List.map_append, List.map_map]
      refine congrArg₂ (· ++ ·) rfl ?_
      split
      · rename_i hunit
        refine ih _ ?_ hrest
        exact List.forall_mem_append.mpr ⟨hearlier, List.forall_mem_singleton.mpr hunit⟩
      · rfl

/-- The comparisons that are made are the occurrences that are reached. -/
theorem made_eq (condition : Condition α) (record : α) :
    condition.made record = (condition.reached record).map (Leaf.outcome record) := by
  have hjunction (unit : Bool) (conditions : List (Condition α))
      (ih : ∀ operand ∈ conditions,
        operand.made record = (operand.reached record).map (Leaf.outcome record)) :
      (junction unit conditions).made record =
        ((junction unit conditions).reached record).map (Leaf.outcome record) := by
    rw [made_junction, reached_junction]
    exact madeWhile_eq [] nofun ih
  induction condition with
  | const value => rfl
  | compare comparison check => rw [reached_compare]; rfl
  | all conditions ih => exact hjunction true conditions ih
  | any conditions ih => exact hjunction false conditions ih
  | not condition ih =>
      rw [made, reached_not, List.map_map, ih]
      rfl

/-! ### Other checks -/

mutual

/-- A condition with its checks replaced, each by what is put at its place. -/
def recheck (replace : List Nat → (α → Bool) → α → Bool) : Condition α → Condition α
  | .const value => .const value
  | .compare comparison check => .compare comparison (replace [] check)
  | .all conditions => .all (rechecksFrom replace 0 conditions)
  | .any conditions => .any (rechecksFrom replace 0 conditions)
  | .not condition => .not (condition.recheck fun place => replace (0 :: place))

def rechecksFrom (replace : List Nat → (α → Bool) → α → Bool) (index : Nat) :
    List (Condition α) → List (Condition α)
  | [] => []
  | condition :: rest =>
    condition.recheck (fun place => replace (index :: place)) ::
      rechecksFrom replace (index + 1) rest

end

variable {replace : List Nat → (α → Bool) → α → Bool}

theorem recheck_junction :
    (junction unit conditions).recheck replace =
      junction unit (rechecksFrom replace 0 conditions) := by
  cases unit <;> rfl

/-- Two conditions of which an evaluation makes the same. -/
structure RunAlike (record : α) (condition other : Condition α) : Prop where
  evaluate_eq : other.evaluate record = condition.evaluate record
  made_eq : other.made record = condition.made record

theorem RunAlike.not {other : Condition α} (halike : RunAlike record condition other) :
    RunAlike record (.not condition) (.not other) :=
  ⟨congrArg (!·) halike.evaluate_eq, halike.made_eq⟩

/-- The operands after one that decides a group do not matter. -/
theorem RunAlike.junction_cons {other : Condition α} {others : List (Condition α)}
    (hfirst : RunAlike record condition other)
    (hrest : condition.evaluate record = unit →
      RunAlike record (junction unit rest) (junction unit others)) :
    RunAlike record (junction unit (condition :: rest)) (junction unit (other :: others)) := by
  by_cases hunit : condition.evaluate record = unit
  · obtain ⟨hevaluate, hmade⟩ := hrest hunit
    rw [made_junction, made_junction] at hmade
    simp only [evaluate_junction] at hevaluate
    constructor
    · simpa [evaluate_junction, hfirst.evaluate_eq, hunit] using hevaluate
    · rw [made_junction, made_junction, madeWhile, madeWhile, hfirst.evaluate_eq, hfirst.made_eq,
        hmade]
  · constructor
    · simp [evaluate_junction, hfirst.evaluate_eq, hunit]
    · rw [made_junction, made_junction, madeWhile, madeWhile, hfirst.evaluate_eq, hfirst.made_eq,
        if_neg hunit, if_neg hunit]

/-- Checks at places that are not reached may be any. -/
def Keeps (record : α) (replace : List Nat → (α → Bool) → α → Bool) (leaves : List (Leaf α)) :
    Prop :=
  ∀ leaf ∈ leaves, replace leaf.place leaf.check record = leaf.check record

theorem rechecksFrom_alike (earlier : List (Condition α))
    (hearlier : ∀ operand ∈ earlier, operand.evaluate record = unit)
    (hrest : ∀ operand ∈ rest, ∀ {replace}, Keeps record replace (operand.reached record) →
      RunAlike record operand (operand.recheck replace))
    (hkeeps : Keeps record replace ((leavesFrom earlier.length rest).filter fun leaf =>
      (junction unit (earlier ++ rest)).IsReached record leaf.place)) :
    RunAlike record (junction unit rest)
      (junction unit (rechecksFrom replace earlier.length rest)) := by
  induction rest generalizing earlier with
  | nil => exact ⟨rfl, rfl⟩
  | cons condition rest ih =>
      obtain ⟨hcondition, hrest⟩ := List.forall_mem_cons.mp hrest
      rw [Keeps, filter_leavesFrom_cons hearlier, List.forall_mem_append, List.forall_mem_map]
        at hkeeps
      have hfirst : Keeps record (fun place => replace (earlier.length :: place))
          (condition.reached record) := hkeeps.1
      refine (hcondition hfirst).junction_cons fun hunit => ?_
      rw [if_pos hunit] at hkeeps
      have hopen : ∀ operand ∈ earlier ++ [condition], operand.evaluate record = unit :=
        List.forall_mem_append.mpr ⟨hearlier, List.forall_mem_singleton.mpr hunit⟩
      have hlength : (earlier ++ [condition]).length = earlier.length + 1 := List.length_append
      rw [← hlength]
      exact ih _ hopen hrest hkeeps.2

theorem recheck_alike (condition : Condition α)
    (hkeeps : Keeps record replace (condition.reached record)) :
    RunAlike record condition (condition.recheck replace) := by
  have hjunction (unit : Bool) (conditions : List (Condition α))
      (ih : ∀ operand ∈ conditions, ∀ {replace}, Keeps record replace (operand.reached record) →
        RunAlike record operand (operand.recheck replace)) {replace}
      (hkeeps : Keeps record replace ((junction unit conditions).reached record)) :
      RunAlike record (junction unit conditions) ((junction unit conditions).recheck replace) := by
    rw [reached_junction] at hkeeps
    rw [recheck_junction]
    exact rechecksFrom_alike [] nofun ih hkeeps
  induction condition generalizing replace with
  | const value => exact ⟨rfl, rfl⟩
  | compare comparison check =>
      rw [Keeps, reached_compare, List.forall_mem_singleton] at hkeeps
      exact ⟨hkeeps, congrArg (fun held => [(comparison, held)]) hkeeps⟩
  | all conditions ih =>
      exact hjunction true conditions (fun operand hoperand _ => ih operand hoperand) hkeeps
  | any conditions ih =>
      exact hjunction false conditions (fun operand hoperand _ => ih operand hoperand) hkeeps
  | not condition ih =>
      rw [Keeps, reached_not, List.forall_mem_map] at hkeeps
      have hinner : Keeps record (fun place => replace (0 :: place)) (condition.reached record) :=
        hkeeps
      exact (ih hinner).not

/-- **A trace is faithful and no longer than it has to be.** Whatever has been written down before,
what is added are the labels of the occurrences that are reached, in their order, and of those among
them whose check holds. The checks at all other places are of no account for the record. -/
theorem trace_is_faithful (condition : Condition α) (record : α) (before : Trace) :
    ((condition.trace record before).2.evaluated.toList =
          before.evaluated.toList ++ (condition.reached record).map Leaf.label ∧
        (condition.trace record before).2.satisfied.toList =
          before.satisfied.toList ++ (condition.held record).map Leaf.label) ∧
      condition.report record =
        ⟨condition.evaluate record, (condition.reached record).map Leaf.label,
          (condition.held record).map Leaf.label⟩ ∧
      ((∀ leaf, leaf ∈ condition.leaves ↔
          condition.at? leaf.place = some (.compare leaf.comparison leaf.check)) ∧
        (condition.leaves.Pairwise fun leaf other => leaf.place < other.place) ∧
        condition.leaves.map Leaf.comparison = condition.comparisons) ∧
      (((condition.reached record).map Leaf.label).Sublist
          (condition.comparisons.map Comparison.label) ∧
        ((condition.held record).map Leaf.label).Sublist
          ((condition.reached record).map Leaf.label) ∧
        ((condition.reached record).map Leaf.label).length ≤ condition.comparisons.length) ∧
      ∀ other : List Nat → α → Bool,
        (condition.recheck fun place check =>
          if condition.IsReached record place then check else other place).trace record before =
            condition.trace record before := by
  have hmade := made_eq condition record
  have hsublist : ((condition.reached record).map Leaf.label).Sublist
      (condition.comparisons.map Comparison.label) := by
    rw [← comparison_leaves, List.map_map]
    exact List.filter_sublist.map _
  refine ⟨⟨?_, ?_⟩, ?_, ⟨fun leaf => mem_leaves_iff, pairwise_leaves condition,
    comparison_leaves condition⟩, ⟨hsublist, List.filter_sublist.map _, ?_⟩, ?_⟩
  · rw [snd_trace, Trace.evaluated_addAll, hmade, List.map_map]
    rfl
  · rw [snd_trace, Trace.satisfied_addAll, hmade, List.filter_map, List.map_map]
    rfl
  · rw [report_eq, hmade, List.filter_map, List.map_map, List.map_map]
    rfl
  · simpa using hsublist.length_le
  · intro other
    have hkeeps : Keeps record
        (fun place check => if condition.IsReached record place then check else other place)
        (condition.reached record) := by
      intro leaf hleaf
      have hreached := of_decide_eq_true (List.mem_filter.mp hleaf).2
      exact congrFun (if_pos hreached) record
    have halike := recheck_alike condition hkeeps
    rw [trace_eq, trace_eq, halike.evaluate_eq, halike.made_eq]

end Condition

end RecordRules
