import RecordRules.Proofs.Compile.Correct
import RecordRules.Proofs.Compile.Faults
import RecordRules.Proofs.Condition.Places
import RecordRules.Proofs.Value.Gathering

/-!
# Checks that cannot go wrong

Comparing values of two kinds gives no order, and only a string starts with a text; a check answers
all the same and says no. None of this comes up when a compiled rule runs: literals are of one kind,
a path keeps the kind of the field at its end through every record on the way, and what an operator
needs of both is settled when its check is made. Main statement: `Compiler.leaves_are_well_typed`.
-/

namespace RecordRules

variable {Index : Type} {Carrier : Index → Type}

/-! ### Fields that keep to their kinds -/

namespace Accessor

variable {α β : Type}

/-- A value of another kind than the declared one is never read. -/
def KeepsKind (accessor : Accessor α) : Prop :=
  ∀ record value, accessor.read record = some value → value.kind = accessor.kind

theorem KeepsKind.through {accessor : Accessor β} (hkeeps : accessor.KeepsKind)
    (get : α → Option β) : (accessor.through get).KeepsKind := by
  intro whole value hread
  obtain ⟨part, -, hpart⟩ := Option.bind_eq_some_iff.mp hread
  exact hkeeps part value hpart

end Accessor

namespace Schema

variable {schema : Schema Carrier}

def KeepsKinds (schema : Schema Carrier) : Prop :=
  ∀ index, ∀ field ∈ (schema index).fields, ∀ kind read, field.slot = .value kind read →
    (Accessor.mk kind read).KeepsKind

theorem KeepsKinds.find? (hkeeps : schema.KeepsKinds) {index : Index} {name : String} {kind : Kind}
    {read : Carrier index → Option Value}
    (hfound : (schema index).find? name = some (.value kind read)) :
    (Accessor.mk kind read).KeepsKind := by
  obtain ⟨field, hfield, hslot⟩ := Option.map_eq_some_iff.mp hfound
  exact hkeeps index field (List.mem_of_find?_eq_some hfield) kind read hslot

theorem keepsKind_of_resolveFrom (hkeeps : schema.KeepsKinds) {path : Path}
    {segments : List String} {index : Index} {accessor : Accessor (Carrier index)}
    (hresolve : schema.resolveFrom path index segments = .ok accessor) : accessor.KeepsKind := by
  -- Each record on the way re-roots the accessor and leaves its kind as it is.
  induction segments generalizing index with
  | nil => simp at hresolve
  | cons segment rest ih =>
      obtain ⟨name, kind, read, -, hfound, rfl⟩ |
        ⟨name, next, others, target, get, inner, hsegments, -, hinner, rfl⟩ :=
        resolveFrom_ok_cases hresolve
      · exact hkeeps.find? hfound
      · obtain ⟨-, rfl⟩ := List.cons.inj hsegments
        exact (ih hinner).through get

end Schema

/-! ### Comparisons -/

/-- What the kinds and the number of literals have to be for an operator. -/
structure Comparison.WellTyped (comparison : Comparison) (field : Kind) : Prop where
  kinds : comparison.operator ≠ .startsWith → comparison.literals.kind = field ∧
    ∀ literal ∈ comparison.literals.values, literal.kind = field
  ordered : comparison.operator = .greaterThan → field = .int32 ∨ field = .int64 ∨ field = .decimal
  text : comparison.operator = .startsWith → field = .string
  present : comparison.operator ≠ .contains → comparison.literals.values ≠ []

/-- A value can be put to an operator: it is a text, or there is an order between it and each of the
literals. -/
def Operator.CanJudge (literals : Literals) (value : Value) : Operator → Prop
  | .startsWith => ∃ text, value = .string text
  | .contains | .equals | .greaterThan =>
    ∀ literal ∈ literals.values, ∃ order, value.compare literal = some order

namespace Value

theorem exists_compare_of_kind_eq {value literal : Value} (hkind : value.kind = literal.kind) :
    ∃ order, value.compare literal = some order := by
  cases value <;> cases literal <;> simp_all [compare, kind]

theorem exists_text_of_kind_eq {value : Value} (hkind : value.kind = .string) :
    ∃ text, value = .string text := by
  cases value with
  | string text => exact ⟨text, rfl⟩
  | int32 _ | int64 _ | decimal _ | bool _ => cases hkind

end Value

namespace Comparison

variable {comparison : Comparison} {field : Kind}

theorem wellTyped_of_accepts
    (haccepts : comparison.operator.accepts field comparison.literals.kind = true)
    (hpresent : (comparison.operator.usesFirst && comparison.literals.isEmpty) = false) :
    comparison.WellTyped field := by
  obtain ⟨path, operator, literals⟩ := comparison
  have hcompares := Operator.accepts_iff.mp haccepts
  have hmembers {literal : Value} : literal ∈ literals.values → literal.kind = literals.kind :=
    Literals.kind_of_mem
  constructor
  · intro hoperator
    cases hcompares with
    | startsWith => exact absurd rfl hoperator
    | contains | equals | greaterThan => exact ⟨rfl, fun literal => hmembers⟩
  · rintro rfl
    cases hcompares with
    | greaterThan hnumber => exact hnumber
  · rintro rfl
    cases hcompares with
    | startsWith => rfl
  · intro hoperator hempty
    have hnone : literals.isEmpty = true := by
      rw [← Literals.first?_eq_none_iff, Literals.first?, hempty, List.head?_nil]
    cases operator with
    | contains => exact hoperator rfl
    | equals | startsWith | greaterThan => simp [Operator.usesFirst, hnone] at hpresent

theorem WellTyped.canJudge (htyped : comparison.WellTyped field) {value : Value}
    (hkind : value.kind = field) : comparison.operator.CanJudge comparison.literals value := by
  obtain ⟨path, operator, literals⟩ := comparison
  have hordered (hoperator : operator ≠ .startsWith) :
      ∀ literal ∈ literals.values, ∃ order, value.compare literal = some order := by
    intro literal hliteral
    have hsame := (htyped.kinds hoperator).2 literal hliteral
    exact Value.exists_compare_of_kind_eq (hkind.trans hsame.symm)
  cases operator with
  | contains => exact hordered nofun
  | equals => exact hordered nofun
  | startsWith => exact Value.exists_text_of_kind_eq (hkind.trans (htyped.text rfl))
  | greaterThan => exact hordered nofun

end Comparison

/-! ### Occurrences in a compiled rule -/

namespace Condition

variable {α : Type}

theorem exists_leaf_of_mem_group {unit : Bool} {conditions : List (Condition α)} {leaf : Leaf α}
    (hleaf : leaf ∈ (group unit (junction unit) conditions).leaves) :
    ∃ condition ∈ conditions, ∃ place, { leaf with place } ∈ condition.leaves := by
  match conditions with
  | [] => cases hleaf
  | [condition] => exact ⟨condition, List.mem_singleton_self condition, leaf.place, hleaf⟩
  | first :: second :: rest =>
      have hjunction : leaf ∈ leavesFrom 0 (first :: second :: rest) := by
        cases unit <;> exact hleaf
      obtain ⟨offset, condition, hcondition, hwithin⟩ := mem_leavesFrom_iff.mp hjunction
      obtain ⟨inner, hinner, rfl⟩ := List.mem_map.mp hwithin
      exact ⟨condition, List.mem_of_getElem? hcondition, inner.place, hinner⟩

end Condition

namespace Schema

variable {schema : Schema Carrier} {root : Index}

/-- Every occurrence in a compiled rule is a comparison that was compiled for itself. -/
theorem compileComparison_of_compile {limit depth : Nat} {rule : Rule}
    {condition : Condition (Carrier root)}
    (hcompile : (schema.compile root limit depth rule).outcome = .ok condition) :
    ∀ leaf ∈ condition.leaves, (schema.compileComparison root leaf.comparison).outcome =
      .ok (.compare leaf.comparison leaf.check) := by
  have hgroup (unit : Bool) {rules : List Rule} {conditions : List (Condition (Carrier root))}
      (hoperands : List.Forall₂ (fun _ (condition : Condition (Carrier root)) =>
        ∀ leaf ∈ condition.leaves, (schema.compileComparison root leaf.comparison).outcome =
          .ok (.compare leaf.comparison leaf.check)) rules conditions) :
      ∀ leaf ∈ (Condition.group unit (Condition.junction unit) conditions).leaves,
        (schema.compileComparison root leaf.comparison).outcome =
          .ok (.compare leaf.comparison leaf.check) := by
    intro leaf hleaf
    obtain ⟨operand, hoperand, place, hinner⟩ := Condition.exists_leaf_of_mem_group hleaf
    have hcompiled := forall_mem_right_of_forall₂ hoperands (fun _ _ => id) operand hoperand
    exact hcompiled { leaf with place } hinner
  refine compile_induction (motive := fun _ _ condition => ∀ leaf ∈ condition.leaves,
    (schema.compileComparison root leaf.comparison).outcome =
      .ok (.compare leaf.comparison leaf.check)) (hgroup true) (hgroup false) ?not ?compare hcompile
  case not =>
    intro depth rule condition hinner
    rw [Condition.leaves, List.forall_mem_map]
    exact hinner
  case compare =>
    intro depth comparison condition hcompile
    obtain ⟨field, -, -, -, hcondition⟩ := compileComparison_eq_ok hcompile
    subst hcondition
    rw [Condition.leaves, List.forall_mem_singleton]
    exact hcompile

end Schema

namespace Compiler

/-- **Whatever runs is well typed.** Literals are of one kind, however they come together, and
nothing of another kind is ever added to them. In a compiled rule every comparison, at any depth, is
between a field and literals that its operator can be put to; and as long as each field reads values
of its own kind, every value that a check meets on a record can be judged. -/
theorem leaves_are_well_typed (schema : Schema Carrier) (root : Index) :
    (∀ gathered : Gathered, gathered.Built →
      (∃ literals : Literals, literals.gathered = gathered) ∧
        ∀ value ∈ gathered.values, value.kind = gathered.kind) ∧
      (∀ foreign kindName elements,
        Gathered.gather foreign kindName elements =
          Literals.gathered <$> Literals.ofJson kindName elements) ∧
      ∀ (compiler : Compiler) (rule : Rule) (condition : Condition (Carrier root)),
        (compiler.compile schema root rule).outcome = .ok condition →
          ∀ leaf ∈ condition.leaves, ∃ field,
            schema.resolve root leaf.comparison.path = .ok field ∧
              leaf.comparison.WellTyped field.kind ∧
              (leaf.check = fun record => (field.read record).any
                (leaf.comparison.operator.isSatisfied leaf.comparison.literals)) ∧
              (schema.KeepsKinds → ∀ record value, field.read record = some value →
                value.kind = field.kind ∧
                  leaf.comparison.operator.CanJudge leaf.comparison.literals value) := by
  refine ⟨?_, Gathered.gather_eq, ?_⟩
  · intro gathered hbuilt
    exact ⟨Gathered.built_iff.mp hbuilt, hbuilt.kind_eq⟩
  · intro compiler rule condition hcompile leaf hleaf
    rw [outcome_compile] at hcompile
    have hcomparison := Schema.compileComparison_of_compile hcompile leaf hleaf
    obtain ⟨field, hresolve, haccepts, hpresent, hcheck⟩ :=
      Schema.compileComparison_eq_ok hcomparison
    have htyped := Comparison.wellTyped_of_accepts haccepts hpresent
    refine ⟨field, hresolve, htyped, ?_, ?_⟩
    · injection hcheck
    · intro hkeeps record value hread
      have hkind := Schema.keepsKind_of_resolveFrom hkeeps hresolve record value hread
      exact ⟨hkind, htyped.canJudge hkind⟩

/-- A person is known by the names of the line of ancestors, the person's own name first. -/
def lineage : Schema fun _ : Unit => List String := fun _ =>
  ⟨"Person", [⟨"Name", .value .string fun names => names.head?.map .string⟩,
    ⟨"Parent", .nested () List.tail?⟩]⟩

/-- A number is looked for at the start of a name, and it is a text that is looked for. -/
def heirOfAda : Rule :=
  .all [.compare ⟨⟨"Parent.Name"⟩, .contains, .string ["Eve", "Ada"]⟩,
    .not (.compare ⟨⟨"Name"⟩, .startsWith, .int32 [15, 16]⟩)]

theorem keepsKinds_lineage : lineage.KeepsKinds := by
  intro index field hfield kind read hslot record value hread
  simp only [lineage, List.mem_cons, List.not_mem_nil, or_false] at hfield
  rcases hfield with rfl | rfl
  · cases hslot
    obtain ⟨name, -, rfl⟩ := Option.map_eq_some_iff.mp hread
    rfl
  · cases hslot

theorem leaves_are_well_typed_heirOfAda :
    (∃ literals : Literals, literals.gathered = ⟨.int32, [.int32 7]⟩) ∧
      ∃ condition, (Compiler.compile {} lineage () heirOfAda).outcome = .ok condition ∧
        condition.leaves.map (fun leaf => leaf.comparison.path.text) = ["Parent.Name", "Name"] ∧
        ∀ leaf ∈ condition.leaves, ∃ field value,
          lineage.resolve () leaf.comparison.path = .ok field ∧
            leaf.comparison.WellTyped field.kind ∧
            field.read ["Bob", "Ada"] = some value ∧
            leaf.comparison.operator.CanJudge leaf.comparison.literals value := by
  obtain ⟨hliterals, -, hleaves⟩ := leaves_are_well_typed lineage ()
  refine ⟨(hliterals _ (.single (.int32 7))).1, ?_⟩
  obtain ⟨condition, hcompile, hpaths⟩ : ∃ condition,
      (Compiler.compile {} lineage () heirOfAda).outcome = .ok condition ∧
        condition.leaves.map (fun leaf => leaf.comparison.path.text) = ["Parent.Name", "Name"] :=
    ⟨_, rfl, rfl⟩
  refine ⟨condition, hcompile, hpaths, fun leaf hleaf => ?_⟩
  obtain ⟨field, hresolve, htyped, -, hjudge⟩ := hleaves {} heirOfAda condition hcompile leaf hleaf
  have hwalks : ∀ text ∈ ["Parent.Name", "Name"],
      (lineage.walk? () (Path.segments ⟨text⟩) ["Bob", "Ada"]).isSome := by decide
  have hwalk := hwalks _ (hpaths ▸ List.mem_map_of_mem hleaf)
  rw [← Schema.read_of_resolve hresolve] at hwalk
  obtain ⟨value, hread⟩ := Option.isSome_iff_exists.mp hwalk
  exact ⟨field, value, hresolve, htyped, hread, (hjudge keepsKinds_lineage _ value hread).2⟩

end Compiler

end RecordRules
