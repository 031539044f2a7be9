import RecordRules.Proofs.Compile.Log
import RecordRules.Proofs.Compile.Run
import RecordRules.Proofs.Schema.Columns

/-!
# Compiling against a revised schema

Where a schema takes the place of another and every path that resolves goes on to do so, a rule that
compiles goes on to compile, to a condition of the same text and with the same comparisons, and
records that are alike get the same answer and the same report. Main statement:
`Schema.revisions_replace`.
-/

namespace RecordRules

/-! ### Conditions that stand for one another -/

/-- Two conditions that say the same of records that are alike. -/
structure Condition.Answers {α β : Type} (alike : α → β → Prop) (condition : Condition α)
    (other : Condition β) : Prop where
  text_eq : other.text = condition.text
  comparisons_eq : other.comparisons = condition.comparisons
  run_eq : ∀ record recordOther, alike record recordOther →
    other.run recordOther = condition.run record

namespace Condition.Answers

variable {α β : Type} {alike : α → β → Prop}

theorem not {condition : Condition α} {other : Condition β}
    (hanswers : Answers alike condition other) : Answers alike (.not condition) (.not other) := by
  constructor
  · rw [text, text, hanswers.text_eq]
  · exact hanswers.comparisons_eq
  · intro record recordOther hrecord
    exact congrArg Run.not (hanswers.run_eq record recordOther hrecord)

theorem compare (comparison : Comparison) {check : α → Bool} {checkOther : β → Bool}
    (hcheck : ∀ record recordOther, alike record recordOther →
      checkOther recordOther = check record) :
    Answers alike (.compare comparison check) (.compare comparison checkOther) := by
  constructor
  · rfl
  · rfl
  · intro record recordOther hrecord
    have hheld := hcheck record recordOther hrecord
    exact congrArg (fun held => (⟨held, [(comparison, held)]⟩ : Run)) hheld

variable {conditions : List (Condition α)} {others : List (Condition β)}

theorem text_junction (hanswers : List.Forall₂ (Answers alike) conditions others) (unit : Bool) :
    (junction unit others).text = (junction unit conditions).text := by
  have htexts : others.map text = conditions.map text :=
    map_eq_map_of_forall₂ (hanswers.flip.imp fun _ _ halike => halike.text_eq)
  cases unit <;> simp only [junction, text, texts_eq, htexts]

/-- Groups of conditions that stand for one another do so themselves, small as they may be. -/
theorem group (hanswers : List.Forall₂ (Answers alike) conditions others) (unit : Bool) :
    Answers alike (.group unit (junction unit) conditions)
      (.group unit (junction unit) others) := by
  have hcombine {γ : Type} (conditions : List (Condition γ)) :
      (junction unit conditions).comparisons = conditions.flatMap comparisons := by
    cases unit <;> exact comparisonsOf_eq conditions
  constructor
  · cases hanswers with
    | nil => rfl
    | cons hfirst hrest =>
        cases hrest with
        | nil => exact hfirst.text_eq
        | cons hsecond hrest => exact text_junction (.cons hfirst (.cons hsecond hrest)) unit
  · rw [comparisons_group unit _ hcombine, comparisons_group unit _ hcombine, List.flatMap_def,
      List.flatMap_def,
      map_eq_map_of_forall₂ (hanswers.flip.imp fun _ _ halike => halike.comparisons_eq)]
  · intro record recordOther hrecord
    rw [run_group, run_group, map_eq_map_of_forall₂
      (hanswers.flip.imp fun _ _ halike => halike.run_eq record recordOther hrecord)]

end Condition.Answers

variable {Index Other : Type} {Carrier : Index → Type} {Target : Other → Type}

/-! ### Compilations -/

namespace Schema

variable {schema : Schema Carrier} {root : Index}

theorem compileComparison_of_resolve {comparison : Comparison} {field : Accessor (Carrier root)}
    (hresolve : schema.resolve root comparison.path = .ok field)
    (haccepts : comparison.operator.accepts field.kind comparison.literals.kind = true)
    (hpresent : (comparison.operator.usesFirst && comparison.literals.isEmpty) = false) :
    (schema.compileComparison root comparison).outcome =
      .ok (.compare comparison fun record =>
        (field.read record).any (comparison.operator.isSatisfied comparison.literals)) := by
  rw [outcome_compileComparison, hresolve, ok_bind, Comparison.outcome_check, if_pos haccepts,
    hpresent]
  rfl

end Schema

namespace Likeness

variable {likeness : Likeness Carrier Target} {schema : Schema Carrier} {other : Schema Target}
  {root : Index}

theorem compileComparison_of_revises (hrevises : likeness.Revises schema other)
    {comparison : Comparison} {condition : Condition (Carrier root)}
    (hcompile : (schema.compileComparison root comparison).outcome = .ok condition) :
    ∃ conditionOther,
      (other.compileComparison (likeness.type root) comparison).outcome = .ok conditionOther ∧
        condition.Answers (likeness.Alike root) conditionOther := by
  obtain ⟨field, hresolve, haccepts, hpresent, rfl⟩ := Schema.compileComparison_eq_ok hcompile
  obtain ⟨fieldOther, hresolveOther, halike⟩ := resolve_of_revises hrevises hresolve
  rw [← halike.kind_eq] at haccepts
  refine ⟨_, Schema.compileComparison_of_resolve hresolveOther haccepts hpresent, ?_⟩
  apply Condition.Answers.compare
  intro record recordOther hrecord
  rw [halike.read_eq record recordOther hrecord]

/-- A rule that compiles goes on to compile, at the same limit and at every depth. -/
theorem compile_of_revises (hrevises : likeness.Revises schema other) {limit depth : Nat}
    {rule : Rule} {condition : Condition (Carrier root)}
    (hcompile : (schema.compile root limit depth rule).outcome = .ok condition) :
    ∃ conditionOther,
      (other.compile (likeness.type root) limit depth rule).outcome = .ok conditionOther ∧
        condition.Answers (likeness.Alike root) conditionOther := by
  refine Schema.compile_induction (motive := fun depth rule condition => ∃ conditionOther,
    (other.compile (likeness.type root) limit depth rule).outcome = .ok conditionOther ∧
      condition.Answers (likeness.Alike root) conditionOther) ?all ?any ?not ?compare hcompile
  case all =>
    intro depth rules conditions hoperands
    obtain ⟨others, hothers, hanswers⟩ := exists_mapM_eq_ok hoperands
    rw [Schema.outcome_compile_all, hothers]
    exact ⟨_, rfl, .group hanswers true⟩
  case any =>
    intro depth rules conditions hoperands
    obtain ⟨others, hothers, hanswers⟩ := exists_mapM_eq_ok hoperands
    rw [Schema.outcome_compile_any, hothers]
    exact ⟨_, rfl, .group hanswers false⟩
  case not =>
    intro depth rule condition hinner
    obtain ⟨inner, hcompiled, hanswers⟩ := hinner
    rw [Schema.outcome_compile_not, hcompiled]
    exact ⟨_, rfl, hanswers.not⟩
  case compare =>
    intro depth comparison condition hcomparison
    exact compileComparison_of_revises hrevises hcomparison

/-- What can be relied on where one schema takes the place of another. -/
structure Replaces (likeness : Likeness Carrier Target) (schema : Schema Carrier)
    (other : Schema Target) : Prop where
  resolves : ∀ root path field, schema.resolve root path = .ok field →
    ∃ fieldOther, other.resolve (likeness.type root) path = .ok fieldOther ∧
      fieldOther.kind = field.kind ∧
      ∀ record recordOther, likeness.Alike root record recordOther →
        fieldOther.read recordOther = field.read record
  compiles : ∀ (compiler : Compiler) root rule predicate,
    (compiler.predicate schema root rule).outcome = .ok predicate →
      ∃ predicateOther,
        (compiler.predicate other (likeness.type root) rule).outcome = .ok predicateOther ∧
          predicateOther.condition.text = predicate.condition.text ∧
          predicateOther.condition.comparisons = predicate.condition.comparisons ∧
          ∀ record recordOther, likeness.Alike root record recordOther →
            predicateOther.test recordOther = predicate.test record ∧
              predicateOther.report recordOther = predicate.report record

theorem replaces_of_revises (hrevises : likeness.Revises schema other) :
    likeness.Replaces schema other := by
  constructor
  · intro root path field hresolve
    obtain ⟨fieldOther, hother, hkind, hread⟩ := resolve_of_revises hrevises hresolve
    exact ⟨fieldOther, hother, hkind, hread⟩
  · intro compiler root rule predicate hcompile
    obtain ⟨condition, hcondition, rfl⟩ := Compiler.predicate_eq_ok_iff.mp hcompile
    obtain ⟨conditionOther, hother, htext, hcomparisons, hrun⟩ :=
      compile_of_revises hrevises hcondition
    refine ⟨.ofCondition conditionOther,
      Compiler.predicate_eq_ok_iff.mpr ⟨conditionOther, hother, rfl⟩, htext, hcomparisons, ?_⟩
    intro record recordOther hrecord
    have hsame := hrun record recordOther hrecord
    constructor
    · rw [Predicate.test_ofCondition, Predicate.test_ofCondition]
      exact congrArg Run.held hsame
    · calc (Predicate.ofCondition conditionOther).report recordOther
          = (conditionOther.run recordOther).report := conditionOther.report_eq_run recordOther
        _ = (condition.run record).report := congrArg Run.report hsame
        _ = (Predicate.ofCondition condition).report record :=
            (condition.report_eq_run record).symm

end Likeness

namespace Schema

/-- **Rules outlive revisions of the schema.** Record types can be given further fields at their
ends, of any names, and fields can be taken away that have a point in their names or the name of an
earlier field. A path that resolved goes on to read the same values, and a rule that compiled goes
on to compile, with the same text and comparisons and with the same answers and reports. -/
theorem revisions_replace :
    (∀ {Index Wider : Type} {Carrier : Index → Type} {Wide : Wider → Type}
      {schema : Schema Carrier} {wide : Schema Wide} (extension : schema.Extension wide),
      extension.likeness.Replaces schema wide) ∧
      ∀ {Index : Type} {Carrier Narrow : Index → Type} {schema : Schema Carrier}
        {narrow : Schema Narrow} (reduction : schema.Reduction narrow),
        reduction.likeness.Replaces schema narrow :=
  ⟨fun extension => Likeness.replaces_of_revises extension.revises,
    fun reduction => Likeness.replaces_of_revises reduction.revises⟩

/-- Accounts get a second name, which is a number, and an owner, which is a table of its own. -/
def grownAccounts : List MarkedTable :=
  [⟨"Account", [(⟨"Name", .value .string⟩, true), (⟨"Parent", .nested 0⟩, true),
      (⟨"Name", .value .int32⟩, false), (⟨"Owner", .nested 1⟩, false)]⟩,
    ⟨"Owner", [(⟨"Name", .value .string⟩, false)]⟩]

/-- Accounts have a name with a point in it, and a second name, between the names that count. -/
def crowdedAccounts : List MarkedTable :=
  [⟨"Account", [(⟨"Parent.Name", .value .bool⟩, false), (⟨"Name", .value .string⟩, true),
      (⟨"Name", .value .int32⟩, false), (⟨"Parent", .nested 0⟩, true)]⟩]

def grownExtension : (Table.schema (grownAccounts.map MarkedTable.kept)).Extension
    (Table.schema (grownAccounts.map MarkedTable.whole)) :=
  MarkedTable.extension grownAccounts <| by
    rw [grownAccounts, List.forall_mem_cons, List.forall_mem_singleton]
    exact ⟨⟨[⟨"Name", .value .string⟩, ⟨"Parent", .nested 0⟩],
        [⟨"Name", .value .int32⟩, ⟨"Owner", .nested 1⟩], rfl⟩,
      ⟨[], [⟨"Name", .value .string⟩], rfl⟩⟩

def crowdedReduction : (Table.schema (crowdedAccounts.map MarkedTable.whole)).Reduction
    (Table.schema (crowdedAccounts.map MarkedTable.kept)) :=
  MarkedTable.reduction crowdedAccounts <| by
    rw [crowdedAccounts, List.forall_mem_singleton]
    exact ⟨.inr (.inl (by decide)), .inl rfl, .inr (.inr (by decide)), .inl rfl, trivial⟩

/-- An account with a parent, both of them with the further cells of a grown account. -/
def grownLeaf : Row :=
  [.value (.string "leaf"), .row [.value (.string "15a"), .absent, .value (.int32 7)],
    .value (.int32 8), .row [.value (.string "Ada")]]

def crowdedLeaf : Row :=
  [.value (.bool true), .value (.string "leaf"), .value (.int32 8),
    .row [.absent, .value (.string "15a"), .value (.int32 7), .absent]]

theorem revisions_replace_accounts :
    (∃ predicate wide,
      (Compiler.predicate {} (Table.schema (grownAccounts.map MarkedTable.kept)) 0
        Compiler.orphanOfFifteen).outcome = .ok predicate ∧
      (Compiler.predicate {} (Table.schema (grownAccounts.map MarkedTable.whole)) 0
        Compiler.orphanOfFifteen).outcome = .ok wide ∧
      wide.condition.text = predicate.condition.text ∧
      wide.report grownLeaf = predicate.report (account "leaf" (.row (account "15a" .absent)))) ∧
    ∃ field narrow,
      (Table.schema (crowdedAccounts.map MarkedTable.whole)).resolve 0 ⟨"Parent.Name"⟩ =
        .ok field ∧
      (Table.schema (crowdedAccounts.map MarkedTable.kept)).resolve 0 ⟨"Parent.Name"⟩ =
        .ok narrow ∧
      narrow.kind = field.kind ∧
      narrow.read (account "leaf" (.row (account "15a" .absent))) = field.read crowdedLeaf := by
  obtain ⟨hextension, hreduction⟩ := revisions_replace
  constructor
  · obtain ⟨predicate, hcompile⟩ : ∃ predicate,
        (Compiler.predicate {} (Table.schema (grownAccounts.map MarkedTable.kept)) 0
          Compiler.orphanOfFifteen).outcome = .ok predicate := ⟨_, rfl⟩
    obtain ⟨wide, hwide, htext, -, hsame⟩ :=
      (hextension grownExtension).compiles {} 0 Compiler.orphanOfFifteen predicate hcompile
    exact ⟨predicate, wide, hcompile, hwide, htext, (hsame _ grownLeaf rfl).2⟩
  · obtain ⟨field, hfield⟩ : ∃ field,
        (Table.schema (crowdedAccounts.map MarkedTable.whole)).resolve 0 ⟨"Parent.Name"⟩ =
          .ok field := ⟨_, rfl⟩
    obtain ⟨narrow, hnarrow, hkind, hread⟩ :=
      (hreduction crowdedReduction).resolves 0 ⟨"Parent.Name"⟩ field hfield
    exact ⟨field, narrow, hfield, hnarrow, hkind, hread crowdedLeaf _ rfl⟩

end Schema

end RecordRules
