import RecordRules.Proofs.Compile.Membership
import RecordRules.Proofs.Value.Number

/-!
# Comparisons of one field

Comparisons are compiled one by one, and still those of one field are tied to each other: to be
above a number is to be above every smaller one and equal to none that is not smaller, and to begin
with a text is to begin with all beginnings of it. Main statement:
`Compiler.comparisons_keep_order`.
-/

namespace RecordRules

namespace Rule

/-- The value at the end of a path is above a bound. -/
def above (path : Path) (bound : Value) : Rule := .compare ⟨path, .greaterThan, .single bound⟩

/-- The text at the end of a path begins with a text. -/
def starts (path : Path) (start : String) : Rule :=
  .compare ⟨path, .startsWith, .single (.string start)⟩

end Rule

/-! ### What the operators say -/

namespace Operator

theorem says_equals_single_iff {literal value : Value} :
    equals.Says (.single literal) value ↔ value.Equals literal := by
  simp [Says]

theorem says_greaterThan_single_iff {bound value : Value} :
    greaterThan.Says (.single bound) value ↔ value.Exceeds bound := by
  simp [Says]

theorem says_startsWith_single_iff {start : String} {value : Value} :
    startsWith.Says (.single (.string start)) value ↔
      ∃ text, value = .string text ∧ start.toList <+: text.toList := by
  simp only [Says, Literals.first?_single, Option.some.injEq, exists_eq_left', Value.text]
  constructor
  · rintro ⟨rest, rfl⟩
    exact ⟨start ++ rest, rfl, by simp⟩
  · rintro ⟨text, rfl, rest, hrest⟩
    refine ⟨.ofList rest, congrArg Value.string ?_⟩
    rw [← String.toList_inj, ← hrest]
    simp

end Operator

namespace Schema

variable {Index : Type} {Carrier : Index → Type} {schema : Schema Carrier} {root : Index}
  {path : Path} {kind : Kind} {record : Carrier root}

/-! ### What the comparisons test -/

/-- A path reads a value. -/
def Reads (schema : Schema Carrier) (root : Index) (path : Path) (record : Carrier root)
    (value : Value) : Prop :=
  schema.walk? root path.segments record = some value

theorem Reads.unique {value other : Value} (hvalue : schema.Reads root path record value)
    (hother : schema.Reads root path record other) : value = other :=
  Option.some.inj (hvalue.symm.trans hother)

variable {predicate : Predicate (Carrier root)} {bound : Value} {start : String}

theorem test_equals_iff (hcompiles : schema.CompilesTo root (.equals path bound) predicate) :
    predicate.test record = true ↔
      ∃ value, schema.Reads root path record value ∧ value.Equals bound := by
  rw [hcompiles.test_compare_iff]
  exact exists_congr fun value => and_congr_right fun _ => Operator.says_equals_single_iff

theorem test_above_iff (hcompiles : schema.CompilesTo root (.above path bound) predicate) :
    predicate.test record = true ↔
      ∃ value, schema.Reads root path record value ∧ value.Exceeds bound := by
  rw [hcompiles.test_compare_iff]
  exact exists_congr fun value => and_congr_right fun _ => Operator.says_greaterThan_single_iff

theorem test_starts_iff (hcompiles : schema.CompilesTo root (.starts path start) predicate) :
    predicate.test record = true ↔
      ∃ text, schema.Reads root path record (.string text) ∧ start.toList <+: text.toList := by
  rw [hcompiles.test_compare_iff, Comparison.TrueOf]
  simp only [Operator.says_startsWith_single_iff]
  constructor
  · rintro ⟨_, hread, text, rfl, hbegins⟩
    exact ⟨text, hread, hbegins⟩
  · rintro ⟨text, hread, hbegins⟩
    exact ⟨_, hread, text, rfl, hbegins⟩

/-! ### Numbers -/

/-- How the comparisons of a field of numbers are tied to each other, for bounds of its kind. -/
structure OrdersNumbers (schema : Schema Carrier) (root : Index) (path : Path) (kind : Kind) :
    Prop where
  compiles (bound : Value) (hbound : bound.kind = kind) (depth : Nat) :
    schema.Compiles root (depth + 1) (.above path bound) ∧
      schema.Compiles root (depth + 1) (.equals path bound)
  /-- What is compared is the exact number. -/
  above_iff (bound : Value) (hbound : bound.kind = kind) (above : Predicate (Carrier root))
    (habove : schema.CompilesTo root (.above path bound) above) (record : Carrier root) :
    above.test record = true ↔
      ∃ value, schema.Reads root path record value ∧ value.kind = kind ∧
        bound.number < value.number
  equals_iff (bound : Value) (hbound : bound.kind = kind) (equals : Predicate (Carrier root))
    (hequals : schema.CompilesTo root (.equals path bound) equals) (record : Carrier root) :
    equals.test record = true ↔
      ∃ value, schema.Reads root path record value ∧ value.kind = kind ∧
        value.number = bound.number
  above_of_le (low high : Value) (hlow : low.kind = kind) (hhigh : high.kind = kind)
    (hle : low.number ≤ high.number) (aboveLow aboveHigh : Predicate (Carrier root))
    (haboveLow : schema.CompilesTo root (.above path low) aboveLow)
    (haboveHigh : schema.CompilesTo root (.above path high) aboveHigh) (record : Carrier root)
    (hpasses : aboveHigh.test record = true) : aboveLow.test record = true
  /-- What equals a number is above no number that is not smaller. -/
  not_above_of_equals (low high : Value) (hlow : low.kind = kind) (hhigh : high.kind = kind)
    (hle : low.number ≤ high.number) (equalsLow aboveHigh : Predicate (Carrier root))
    (hequalsLow : schema.CompilesTo root (.equals path low) equalsLow)
    (haboveHigh : schema.CompilesTo root (.above path high) aboveHigh) (record : Carrier root) :
    ¬(aboveHigh.test record = true ∧ equalsLow.test record = true)
  /-- A number that is neither above a bound nor equal to it lies below it, and is above just what
  is smaller than itself. -/
  below (bound value : Value) (hbound : bound.kind = kind) (hvalue : value.kind = kind)
    (record : Carrier root) (hread : schema.Reads root path record value)
    (above equals : Predicate (Carrier root))
    (habove : schema.CompilesTo root (.above path bound) above)
    (hequals : schema.CompilesTo root (.equals path bound) equals)
    (hnotAbove : above.test record = false) (hnotEqual : equals.test record = false)
    (other : Value) (hother : other.kind = kind) (aboveOther : Predicate (Carrier root))
    (haboveOther : schema.CompilesTo root (.above path other) aboveOther) :
    (other.number < value.number → aboveOther.test record = true) ∧
      (bound.number ≤ other.number → aboveOther.test record = false)

section Numbers

variable (hnumber : kind.IsNumber)
include hnumber

theorem compiles_above (hkind : schema.HasKind root path kind) (hbound : bound.kind = kind)
    (depth : Nat) : schema.Compiles root (depth + 1) (.above path bound) := by
  obtain ⟨field, hresolve, rfl⟩ := hkind
  rw [Rule.above, compiles_compare_iff, Literals.kind_single, Literals.values_single, hbound]
  exact ⟨Nat.le_add_left 1 depth, field, hresolve, .greaterThan hnumber, by simp⟩

theorem test_above_iff_number (hbound : bound.kind = kind)
    (habove : schema.CompilesTo root (.above path bound) predicate) :
    predicate.test record = true ↔
      ∃ value, schema.Reads root path record value ∧ value.kind = kind ∧
        bound.number < value.number := by
  subst hbound
  simp only [test_above_iff habove, Value.exceeds_iff_number hnumber]

theorem test_equals_iff_number (hbound : bound.kind = kind)
    (hequals : schema.CompilesTo root (.equals path bound) predicate) :
    predicate.test record = true ↔
      ∃ value, schema.Reads root path record value ∧ value.kind = kind ∧
        value.number = bound.number := by
  subst hbound
  simp only [test_equals_iff hequals, Value.equals_iff_number hnumber]

/-- Of two numbers, one is above the other or they are equal. -/
theorem number_lt_of_fails {value : Value} {above equals : Predicate (Carrier root)}
    (hbound : bound.kind = kind) (hvalue : value.kind = kind)
    (hread : schema.Reads root path record value)
    (habove : schema.CompilesTo root (.above path bound) above)
    (hequals : schema.CompilesTo root (.equals path bound) equals)
    (hnotAbove : above.test record = false) (hnotEqual : equals.test record = false) :
    value.number < bound.number := by
  apply lt_of_le_of_ne
  · rw [← not_lt]
    intro hlt
    have hpasses := (test_above_iff_number hnumber hbound habove).mpr ⟨value, hread, hvalue, hlt⟩
    rw [hnotAbove] at hpasses
    cases hpasses
  · intro hequal
    have hpasses :=
      (test_equals_iff_number hnumber hbound hequals).mpr ⟨value, hread, hvalue, hequal⟩
    rw [hnotEqual] at hpasses
    cases hpasses

theorem ordersNumbers (hkind : schema.HasKind root path kind) :
    schema.OrdersNumbers root path kind where
  compiles bound hbound depth := by
    refine ⟨compiles_above hnumber hkind hbound depth, compiles_equals_iff.mpr ?_⟩
    rw [hbound]
    exact ⟨Nat.le_add_left 1 depth, hkind⟩
  above_iff bound hbound above habove record := test_above_iff_number hnumber hbound habove
  equals_iff bound hbound equals hequals record := test_equals_iff_number hnumber hbound hequals
  above_of_le low high hlow hhigh hle aboveLow aboveHigh haboveLow haboveHigh record hpasses := by
    rw [test_above_iff_number hnumber hhigh haboveHigh] at hpasses
    obtain ⟨value, hread, hvalue, hlt⟩ := hpasses
    rw [test_above_iff_number hnumber hlow haboveLow]
    exact ⟨value, hread, hvalue, hle.trans_lt hlt⟩
  not_above_of_equals low high hlow hhigh hle equalsLow aboveHigh hequalsLow haboveHigh record := by
    rw [test_above_iff_number hnumber hhigh haboveHigh,
      test_equals_iff_number hnumber hlow hequalsLow]
    rintro ⟨⟨value, hread, -, hlt⟩, other, hother, -, hequal⟩
    rw [hread.unique hother, hequal] at hlt
    exact hlt.not_ge hle
  below bound value hbound hvalue record hread above equals habove hequals hnotAbove hnotEqual other
      hother aboveOther haboveOther := by
    have hlt := number_lt_of_fails hnumber hbound hvalue hread habove hequals hnotAbove hnotEqual
    constructor
    · intro hsmaller
      rw [test_above_iff_number hnumber hother haboveOther]
      exact ⟨value, hread, hvalue, hsmaller⟩
    · intro hle
      rw [← Bool.not_eq_true, test_above_iff_number hnumber hother haboveOther]
      rintro ⟨found, hfound, -, hexceeds⟩
      rw [hfound.unique hread] at hexceeds
      exact (hlt.trans_le hle).not_gt hexceeds

end Numbers

/-! ### Texts -/

/-- How the comparisons of a field of texts are tied to each other. -/
structure OrdersTexts (schema : Schema Carrier) (root : Index) (path : Path) : Prop where
  compiles (start : String) (depth : Nat) :
    schema.Compiles root (depth + 1) (.starts path start) ∧
      schema.Compiles root (depth + 1) (.equals path (.string start))
  /-- It makes no difference whether beginnings are taken from characters or from bytes. -/
  starts_iff (start : String) (starts : Predicate (Carrier root))
    (hstarts : schema.CompilesTo root (.starts path start) starts) (record : Carrier root) :
    (starts.test record = true ↔
      ∃ text, schema.Reads root path record (.string text) ∧ start.toList <+: text.toList) ∧
      (starts.test record = true ↔
        ∃ text, schema.Reads root path record (.string text) ∧
          ∃ rest, start.toByteArray ++ rest = text.toByteArray)
  starts_of_shorter (short long : String) (hbegins : short.toList <+: long.toList)
    (startsShort startsLong : Predicate (Carrier root))
    (hstartsShort : schema.CompilesTo root (.starts path short) startsShort)
    (hstartsLong : schema.CompilesTo root (.starts path long) startsLong) (record : Carrier root)
    (hpasses : startsLong.test record = true) : startsShort.test record = true
  starts_of_equals (short long : String) (hbegins : short.toList <+: long.toList)
    (startsShort equalsLong : Predicate (Carrier root))
    (hstartsShort : schema.CompilesTo root (.starts path short) startsShort)
    (hequalsLong : schema.CompilesTo root (.equals path (.string long)) equalsLong)
    (record : Carrier root) (hpasses : equalsLong.test record = true) :
    startsShort.test record = true
  shorter_or_longer (one other : String) (startsOne startsOther : Predicate (Carrier root))
    (hstartsOne : schema.CompilesTo root (.starts path one) startsOne)
    (hstartsOther : schema.CompilesTo root (.starts path other) startsOther)
    (record : Carrier root) (hone : startsOne.test record = true)
    (hother : startsOther.test record = true) :
    one.toList <+: other.toList ∨ other.toList <+: one.toList

theorem compiles_starts (hkind : schema.HasKind root path .string) (start : String) (depth : Nat) :
    schema.Compiles root (depth + 1) (.starts path start) := by
  obtain ⟨field, hresolve, hfield⟩ := hkind
  rw [Rule.starts, compiles_compare_iff, Literals.kind_single, Literals.values_single]
  exact ⟨Nat.le_add_left 1 depth, field, hresolve, Operator.compares_startsWith_iff.mpr hfield,
    by simp⟩

theorem ordersTexts (hkind : schema.HasKind root path .string) :
    schema.OrdersTexts root path where
  compiles start depth :=
    ⟨compiles_starts hkind start depth,
      compiles_equals_iff.mpr ⟨Nat.le_add_left 1 depth, hkind⟩⟩
  starts_iff start starts hstarts record := by
    simp only [Text.bytes_prefix_iff, and_self]
    exact test_starts_iff hstarts
  starts_of_shorter short long hbegins startsShort startsLong hstartsShort hstartsLong record
      hpasses := by
    rw [test_starts_iff hstartsLong] at hpasses
    obtain ⟨text, hread, hlong⟩ := hpasses
    rw [test_starts_iff hstartsShort]
    exact ⟨text, hread, hbegins.trans hlong⟩
  starts_of_equals short long hbegins startsShort equalsLong hstartsShort hequalsLong record
      hpasses := by
    rw [test_equals_iff hequalsLong] at hpasses
    obtain ⟨value, hread, hequal⟩ := hpasses
    cases value with
    | string text =>
        obtain rfl : text = long := hequal
        rw [test_starts_iff hstartsShort]
        exact ⟨text, hread, hbegins⟩
    | int32 _ | int64 _ | decimal _ | bool _ => cases hequal
  shorter_or_longer one other startsOne startsOther hstartsOne hstartsOther record hone hother := by
    rw [test_starts_iff hstartsOne] at hone
    rw [test_starts_iff hstartsOther] at hother
    obtain ⟨text, hread, honePrefix⟩ := hone
    obtain ⟨found, hfound, hotherPrefix⟩ := hother
    obtain rfl := Value.string.inj (hfound.unique hread)
    exact List.prefix_or_prefix_of_prefix honePrefix hotherPrefix

end Schema

namespace Compiler

variable {Index : Type} {Carrier : Index → Type}

/-- **The comparisons of a field keep the order of its values.** Bounds and values are compared as
exact numbers, so the bounds that a value is above are those below it; texts are compared from the
beginning, in characters as in bytes, so the beginnings that hold are beginnings of one another. -/
theorem comparisons_keep_order (schema : Schema Carrier) (root : Index) (path : Path) :
    (∀ kind : Kind, kind = .int32 ∨ kind = .int64 ∨ kind = .decimal →
      schema.HasKind root path kind → schema.OrdersNumbers root path kind) ∧
    (schema.HasKind root path .string → schema.OrdersTexts root path) ∧
    ∀ start text : String,
      (∃ rest, start.toByteArray ++ rest = text.toByteArray) ↔ start.toList <+: text.toList := by
  refine ⟨?_, ?_, ?_⟩
  · intro kind hnumber hkind
    exact Schema.ordersNumbers hnumber hkind
  · intro hkind
    exact Schema.ordersTexts hkind
  · intro start text
    exact Text.bytes_prefix_iff

/-- What costs `1.50` costs less than `2.0`, so it costs more than `1.4` and not more than `2.00`;
and what begins with a text of three bytes begins with the one byte of its first character. -/
theorem comparisons_keep_order_items :
    (∃ aboveLow aboveHigh,
      (Compiler.predicate ⟨1⟩ items 0 (.above price (.decimal (.tenths 14)))).outcome =
        .ok aboveLow ∧
      (Compiler.predicate ⟨1⟩ items 0 (.above price (.decimal (.hundredths 200)))).outcome =
        .ok aboveHigh ∧
      aboveLow.test [.value (.decimal (.hundredths 150))] = true ∧
      aboveHigh.test [.value (.decimal (.hundredths 150))] = false) ∧
    (∃ starts, (Compiler.predicate ⟨1⟩ accounts 0 (.starts ⟨"Name"⟩ "A")).outcome = .ok starts ∧
      starts.test (account "Aïda" .absent) = true) ∧
    ∃ rest, "Aï".toByteArray ++ rest = "Aïda".toByteArray := by
  obtain ⟨hnumbers, -, -⟩ := comparisons_keep_order items 0 price
  obtain ⟨-, htexts, hbytes⟩ := comparisons_keep_order accounts 0 ⟨"Name"⟩
  have hprices := hnumbers .decimal (.inr (.inr rfl)) ⟨_, rfl, rfl⟩
  have hnames := htexts ⟨_, rfl, rfl⟩
  refine ⟨?_, ?_, ?_⟩
  · obtain ⟨⟨aboveLow, haboveLow⟩, -⟩ := hprices.compiles (.decimal (.tenths 14)) rfl 0
    obtain ⟨⟨aboveHigh, haboveHigh⟩, -⟩ := hprices.compiles (.decimal (.hundredths 200)) rfl 0
    obtain ⟨above, habove, hnotAbove⟩ : ∃ above, (Compiler.predicate ⟨1⟩ items 0
        (.above price (.decimal (.tenths 20)))).outcome = .ok above ∧
          above.test [.value (.decimal (.hundredths 150))] = false := ⟨_, rfl, rfl⟩
    obtain ⟨equals, hequals, hnotEqual⟩ : ∃ equals, (Compiler.predicate ⟨1⟩ items 0
        (.equals price (.decimal (.tenths 20)))).outcome = .ok equals ∧
          equals.test [.value (.decimal (.hundredths 150))] = false := ⟨_, rfl, rfl⟩
    have hread : items.Reads 0 price [.value (.decimal (.hundredths 150))]
        (.decimal (.hundredths 150)) := rfl
    have hbelow := hprices.below (.decimal (.tenths 20)) _ rfl rfl _ hread above equals
      ⟨1, habove⟩ ⟨1, hequals⟩ hnotAbove hnotEqual
    refine ⟨aboveLow, aboveHigh, haboveLow, haboveHigh, ?_, ?_⟩
    · apply (hbelow _ rfl aboveLow ⟨1, haboveLow⟩).1
      norm_num [Value.number, Decimal.value, Decimal.signed, Decimal.tenths, Decimal.hundredths]
    · apply (hbelow _ rfl aboveHigh ⟨1, haboveHigh⟩).2
      norm_num [Value.number, Decimal.value, Decimal.signed, Decimal.tenths, Decimal.hundredths]
  · obtain ⟨⟨starts, hstarts⟩, -⟩ := hnames.compiles "A" 0
    obtain ⟨longer, hlonger, hpasses⟩ : ∃ longer, (Compiler.predicate ⟨1⟩ accounts 0
        (.starts ⟨"Name"⟩ "Aï")).outcome = .ok longer ∧
          longer.test (account "Aïda" .absent) = true := ⟨_, rfl, rfl⟩
    have hbegins : "A".toList <+: "Aï".toList := by decide
    exact ⟨starts, hstarts, hnames.starts_of_shorter "A" "Aï" hbegins starts longer ⟨1, hstarts⟩
      ⟨1, hlonger⟩ _ hpasses⟩
  · exact (hbytes "Aï" "Aïda").mpr (by decide)

end Compiler

end RecordRules
