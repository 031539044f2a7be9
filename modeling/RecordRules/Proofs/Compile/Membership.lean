import RecordRules.Proofs.Compile.Leaf
import RecordRules.Proofs.Compile.Same

/-!
# Membership and equality

To be one of some literals is to equal the first of them, or the second, and so on. Both operators
ask for literals of the kind of the field, and each of them judges a value by itself, so the
comparison with all of the literals and the disjunction of the comparisons with one compile on the
same fields and pass the same records; without literals, both compile and pass none. Main
statement: `Compiler.contains_is_any_equals`.
-/

namespace RecordRules

namespace Rule

/-- The value at the end of a path is one of the literals. -/
def isAmong (path : Path) (literals : Literals) : Rule := .compare ⟨path, .contains, literals⟩

/-- The value at the end of a path is the first of the literals. -/
def isFirstOf (path : Path) (literals : Literals) : Rule := .compare ⟨path, .equals, literals⟩

/-- The value at the end of a path is that value. -/
def equals (path : Path) (value : Value) : Rule := isFirstOf path (.single value)

/-- The value at the end of a path is one of the literals, which are tried one after another. -/
def equalsAny (path : Path) (literals : Literals) : Rule :=
  .any (literals.values.map (equals path))

end Rule

namespace Literals

@[simp]
theorem first?_single (value : Value) : (single value).first? = some value := by
  rw [first?, values_single, List.head?_cons]

theorem mem_of_first? {literals : Literals} {first : Value}
    (hfirst : literals.first? = some first) : first ∈ literals.values := by
  obtain ⟨rest, hvalues⟩ := List.head?_eq_some_iff.mp hfirst
  rw [hvalues]
  exact List.mem_cons_self

end Literals

/-! ### The two operators on a value -/

namespace Operator

variable {literals : Literals} {value : Value}

theorem says_contains_iff :
    contains.Says literals value ↔
      ∃ literal ∈ literals.values, equals.Says (.single literal) value := by
  simp [Says]

theorem says_equals_iff {first : Value} (hfirst : literals.first? = some first) :
    equals.Says literals value ↔ equals.Says (.single first) value := by
  simp [Says, hfirst]

end Operator

variable {Index : Type} {Carrier : Index → Type} {schema : Schema Carrier} {root : Index}
  {path : Path} {literals : Literals}

namespace Schema

/-! ### The fields that both operators are for -/

/-- A path that leads to a field of a kind. -/
def HasKind (schema : Schema Carrier) (root : Index) (path : Path) (kind : Kind) : Prop :=
  ∃ field, schema.resolve root path = .ok field ∧ field.kind = kind

theorem compiles_isAmong_iff {depth : Nat} :
    schema.Compiles root depth (.isAmong path literals) ↔
      1 ≤ depth ∧ schema.HasKind root path literals.kind := by
  simp only [Rule.isAmong, compiles_compare_iff, Operator.compares_contains_iff, ne_eq,
    not_true_eq_false, false_implies, and_true]
  rfl

theorem compiles_isFirstOf_iff {depth : Nat} :
    schema.Compiles root depth (.isFirstOf path literals) ↔
      1 ≤ depth ∧ schema.HasKind root path literals.kind ∧ literals.values ≠ [] := by
  rw [Rule.isFirstOf, compiles_compare_iff]
  constructor
  · rintro ⟨hdepth, field, hresolve, hcompares, hpresent⟩
    have hkind := Operator.compares_equals_iff.mp hcompares
    exact ⟨hdepth, ⟨field, hresolve, hkind⟩, hpresent nofun⟩
  · rintro ⟨hdepth, ⟨field, hresolve, hkind⟩, hpresent⟩
    have hcompares := Operator.compares_equals_iff.mpr hkind
    exact ⟨hdepth, field, hresolve, hcompares, fun _ => hpresent⟩

theorem compiles_equals_iff {depth : Nat} {value : Value} :
    schema.Compiles root depth (.equals path value) ↔
      1 ≤ depth ∧ schema.HasKind root path value.kind := by
  rw [Rule.equals, compiles_isFirstOf_iff, Literals.kind_single, Literals.values_single]
  simp

theorem compiles_equals_of_mem_iff {depth : Nat} {value : Value} (hmem : value ∈ literals.values) :
    schema.Compiles root depth (.equals path value) ↔
      schema.Compiles root depth (.isAmong path literals) := by
  rw [compiles_equals_iff, compiles_isAmong_iff, Literals.kind_of_mem hmem]

theorem compiles_isAmong_iff_forall {depth : Nat} {first : Value}
    (hfirst : literals.first? = some first) :
    schema.Compiles root depth (.isAmong path literals) ↔
      ∀ value ∈ literals.values, schema.Compiles root depth (.equals path value) := by
  constructor
  · intro hamong value hmem
    exact (compiles_equals_of_mem_iff hmem).mpr hamong
  · intro hvalues
    have hmem := Literals.mem_of_first? hfirst
    exact (compiles_equals_of_mem_iff hmem).mp (hvalues first hmem)

theorem compiles_isFirstOf_iff_isAmong {depth : Nat} {first : Value}
    (hfirst : literals.first? = some first) :
    schema.Compiles root depth (.isFirstOf path literals) ↔
      schema.Compiles root depth (.isAmong path literals) := by
  have hpresent : literals.values ≠ [] := List.ne_nil_of_mem (Literals.mem_of_first? hfirst)
  rw [compiles_isFirstOf_iff, compiles_isAmong_iff, and_iff_left hpresent]

theorem compiles_equalsAny {depth : Nat}
    (hvalues : ∀ value ∈ literals.values, schema.Compiles root depth (.equals path value)) :
    schema.Compiles root (depth + 1) (.equalsAny path literals) := by
  have hgroup : Rule.equalsAny path literals =
      Rule.junction false (literals.values.map (Rule.equals path)) := rfl
  rw [hgroup, compiles_junction_iff, Rule.heights_le_iff, List.forall_mem_flatMap,
    List.forall_mem_map, List.forall_mem_map]
  constructor
  · intro value hmem
    exact (Compiles.iff.mp (hvalues value hmem)).1
  · intro value hmem
    exact (Compiles.iff.mp (hvalues value hmem)).2

/-! ### The records that pass -/

variable {among first any : Predicate (Carrier root)}

theorem test_isAmong_iff (hamong : schema.CompilesTo root (.isAmong path literals) among)
    (record : Carrier root) :
    among.test record = true ↔
      ∃ literal ∈ literals.values,
        (Rule.equals path literal).holdsIn schema root record = true := by
  have hequals (literal : Value) :
      (Rule.equals path literal).holdsIn schema root record = true ↔
        Comparison.TrueOf schema root record ⟨path, .equals, .single literal⟩ :=
    Comparison.holdsIn_iff
  simp only [hequals, hamong.test_compare_iff, Comparison.TrueOf, Operator.says_contains_iff]
  constructor
  · rintro ⟨value, hread, literal, hmem, hmeaning⟩
    exact ⟨literal, hmem, value, hread, hmeaning⟩
  · rintro ⟨literal, hmem, value, hread, hmeaning⟩
    exact ⟨value, hread, literal, hmem, hmeaning⟩

theorem test_isAmong_eq (hamong : schema.CompilesTo root (.isAmong path literals) among)
    (hany : schema.CompilesTo root (.equalsAny path literals) any) (record : Carrier root) :
    among.test record = any.test record := by
  rw [Bool.eq_iff_iff, test_isAmong_iff hamong, hany.test_any_iff]
  simp only [List.mem_map, exists_exists_and_eq_and]

theorem test_isAmong_of_empty (hempty : literals.values = [])
    (hamong : schema.CompilesTo root (.isAmong path literals) among) (record : Carrier root) :
    among.test record = false := by
  rw [← Bool.not_eq_true, test_isAmong_iff hamong, hempty]
  simp

theorem test_isFirstOf_eq {literal : Value} (hfirst : literals.first? = some literal)
    (hrule : schema.CompilesTo root (.isFirstOf path literals) first)
    (hequals : schema.CompilesTo root (.equals path literal) any) (record : Carrier root) :
    first.test record = any.test record := by
  rw [Bool.eq_iff_iff, hrule.test_compare_iff, hequals.test_compare_iff]
  exact exists_congr fun value => and_congr_right fun _ => Operator.says_equals_iff hfirst

theorem test_isAmong_of_isFirstOf {literal : Value} (hfirst : literals.first? = some literal)
    (hrule : schema.CompilesTo root (.isFirstOf path literals) first)
    (hamong : schema.CompilesTo root (.isAmong path literals) among) {record : Carrier root}
    (hpasses : first.test record = true) : among.test record = true := by
  rw [hrule.test_compare_iff] at hpasses
  obtain ⟨value, hread, hmeaning⟩ := hpasses
  rw [hamong.test_compare_iff]
  refine ⟨value, hread, Operator.says_contains_iff.mpr ?_⟩
  exact ⟨literal, Literals.mem_of_first? hfirst, (Operator.says_equals_iff hfirst).mp hmeaning⟩

end Schema

namespace Compiler

/-- **Membership is a disjunction of equalities.** A field can be compared with all of some literals
exactly if it can be compared with each of them, and then it is among them on the records on which
it equals one of them. Without literals both are compiled for a field of the kind in question, and
no record passes. Equality looks at the first of its literals, so it implies membership. -/
theorem contains_is_any_equals (schema : Schema Carrier) (root : Index) (path : Path)
    (literals : Literals) :
    (∀ literal, literals.first? = some literal →
      (∀ depth,
        (schema.Compiles root depth (.isAmong path literals) ↔
          ∀ value ∈ literals.values, schema.Compiles root depth (.equals path value)) ∧
        (schema.Compiles root depth (.isAmong path literals) →
          schema.Compiles root (depth + 1) (.equalsAny path literals)) ∧
        (schema.Compiles root depth (.isFirstOf path literals) ↔
          schema.Compiles root depth (.equals path literal)) ∧
        (schema.Compiles root depth (.isFirstOf path literals) ↔
          schema.Compiles root depth (.isAmong path literals))) ∧
      ∀ among any first equals, schema.CompilesTo root (.isAmong path literals) among →
        schema.CompilesTo root (.equalsAny path literals) any →
        schema.CompilesTo root (.isFirstOf path literals) first →
        schema.CompilesTo root (.equals path literal) equals → ∀ record,
          among.test record = any.test record ∧ first.test record = equals.test record ∧
            (first.test record = true → among.test record = true)) ∧
    (literals.values = [] → schema.HasKind root path literals.kind → ∀ depth, 1 ≤ depth →
      ∃ among any, (Compiler.predicate ⟨depth⟩ schema root (.isAmong path literals)).outcome =
          .ok among ∧
        (Compiler.predicate ⟨depth⟩ schema root (.equalsAny path literals)).outcome = .ok any ∧
        ∀ record, among.test record = false ∧ any.test record = false) := by
  refine ⟨fun literal hfirst => ⟨fun depth => ?_, ?_⟩, fun hempty hkind depth hdepth => ?_⟩
  · have hmem := Literals.mem_of_first? hfirst
    refine ⟨Schema.compiles_isAmong_iff_forall hfirst, fun hamong => ?_, ?_,
      Schema.compiles_isFirstOf_iff_isAmong hfirst⟩
    · apply Schema.compiles_equalsAny
      exact (Schema.compiles_isAmong_iff_forall hfirst).mp hamong
    · rw [Schema.compiles_isFirstOf_iff_isAmong hfirst, Schema.compiles_equals_of_mem_iff hmem]
  · intro among any first equals hamong hany hrule hequals record
    exact ⟨Schema.test_isAmong_eq hamong hany record, Schema.test_isFirstOf_eq hfirst hrule hequals
      record, Schema.test_isAmong_of_isFirstOf hfirst hrule hamong⟩
  · obtain ⟨among, hamong⟩ := Schema.compiles_isAmong_iff.mpr ⟨hdepth, hkind⟩
    obtain ⟨level, rfl⟩ := Nat.exists_eq_add_of_le' hdepth
    have hnone : ∀ value ∈ literals.values, schema.Compiles root level (.equals path value) := by
      rw [hempty]
      exact nofun
    obtain ⟨any, hany⟩ := Schema.compiles_equalsAny hnone
    refine ⟨among, any, hamong, hany, fun record => ?_⟩
    have hfails := Schema.test_isAmong_of_empty hempty ⟨_, hamong⟩ record
    exact ⟨hfails, (Schema.test_isAmong_eq ⟨_, hamong⟩ ⟨_, hany⟩ record).symm.trans hfails⟩

/-- Things for sale, some of them without a price. -/
def items : Schema Table.Rows := Table.schema [⟨"Item", [⟨"Price", .value .decimal⟩]⟩]

def price : Path := ⟨"Price"⟩

/-- `1.5` and `1.50` are one price, and a thing that has no price does not cost nothing. -/
theorem contains_is_any_equals_items :
    ∃ among any nothing,
      (Compiler.predicate ⟨1⟩ items 0
        (.isAmong price (.decimal [.tenths 20, .tenths 15, .tenths 20]))).outcome = .ok among ∧
      (Compiler.predicate ⟨2⟩ items 0
        (.equalsAny price (.decimal [.tenths 20, .tenths 15, .tenths 20]))).outcome = .ok any ∧
      (∀ record, among.test record = any.test record) ∧
      among.test [.value (.decimal (.hundredths 150))] = true ∧
      any.test [.absent] = false ∧
      (Compiler.predicate ⟨1⟩ items 0 (.isAmong price (.decimal []))).outcome = .ok nothing ∧
      nothing.test [.absent] = false := by
  obtain ⟨hliterals, -⟩ := contains_is_any_equals items 0 price
    (.decimal [.tenths 20, .tenths 15, .tenths 20])
  obtain ⟨-, hempty⟩ := contains_is_any_equals items 0 price (.decimal [])
  obtain ⟨hcompiles, htests⟩ := hliterals _ rfl
  obtain ⟨among, hamong, hpasses⟩ : ∃ among, (Compiler.predicate ⟨1⟩ items 0
      (.isAmong price (.decimal [.tenths 20, .tenths 15, .tenths 20]))).outcome = .ok among ∧
        among.test [.value (.decimal (.hundredths 150))] = true := ⟨_, rfl, rfl⟩
  obtain ⟨-, hdisjunction, -, hfirst⟩ := hcompiles 1
  obtain ⟨any, hany⟩ := hdisjunction ⟨among, hamong⟩
  obtain ⟨first, hfirst⟩ := hfirst.mpr ⟨among, hamong⟩
  obtain ⟨equals, hequals⟩ : items.Compiles 0 1 (.equals price (.decimal (.tenths 20))) := ⟨_, rfl⟩
  obtain ⟨nothing, _, hnothing, _, hfails⟩ := hempty rfl ⟨_, rfl, rfl⟩ 1 (by decide)
  have htest (record : Row) := htests among any first equals ⟨1, hamong⟩ ⟨2, hany⟩ ⟨1, hfirst⟩
    ⟨1, hequals⟩ record
  refine ⟨among, any, nothing, hamong, hany, fun record => (htest record).1, hpasses, ?_, hnothing,
    (hfails _).1⟩
  rw [← (htest [.absent]).1, Schema.CompilesTo.test_eq ⟨1, hamong⟩]
  decide

end Compiler

end RecordRules
