import RecordRules.Decimal.Value
import RecordRules.Proofs.Induction
import RecordRules.Proofs.Value.Coercion

/-!
# Literals element by element

Whether an element becomes a literal, and which one, is a matter of the element and the kind alone.
Its place in the array shows in one thing only: the first element that does not fit is the one that
is reported, with its place. Main statement: `Literals.reads_elementwise`.
-/

namespace RecordRules

/-! ### Integers -/

namespace Numeral

variable {numeral : Numeral}

/-- There is neither a point nor an exponent. -/
def IsWhole (numeral : Numeral) : Prop := numeral.fraction = [] ∧ numeral.exponent = none

theorem value_of_isWhole (hwhole : numeral.IsWhole) :
    numeral.value = ((if numeral.negative then -numeral.whole else numeral.whole : Int) : ℚ) := by
  obtain ⟨hfraction, hexponent⟩ := hwhole
  rw [value, hfraction, hexponent]
  cases numeral.negative <;> simp [Digits.value]

theorem toInt?_eq_some_iff {number : Int} :
    numeral.toInt? = some number ↔ numeral.IsWhole ∧ numeral.value = number := by
  have hforms : (numeral.fraction.isEmpty && numeral.exponent.isNone) = true ↔ numeral.IsWhole := by
    simp [IsWhole]
  rw [toInt?]
  split
  · rename_i hwritten
    have hwhole := hforms.mp hwritten
    rw [value_of_isWhole hwhole, Int.cast_inj, Option.some.injEq]
    exact ⟨fun hnumber => ⟨hwhole, hnumber⟩, And.right⟩
  · rename_i hwritten
    exact iff_of_false (Option.some_ne_none number).symm fun hwhole =>
      hwritten (hforms.mpr hwhole.1)

/-- An integer that is written as one and lies from `-limit` up to `limit - 1`. -/
def IsIntegerWithin (numeral : Numeral) (limit : Int) : Prop :=
  numeral.IsWhole ∧ -limit ≤ numeral.value ∧ numeral.value ≤ limit - 1

/-- Machine integers of a width stand for the integers of a range. -/
theorem exists_toInt?_eq_iff {α : Type} {limit : Int} {ofInt : Int → α} {toInt : α → Int}
    (hrange : ∀ item, -limit ≤ toInt item ∧ toInt item < limit)
    (htoInt : ∀ number, -limit ≤ number → number < limit → toInt (ofInt number) = number) :
    (∃ item, numeral.toInt? = some (toInt item)) ↔ numeral.IsIntegerWithin limit := by
  constructor
  · rintro ⟨item, hitem⟩
    obtain ⟨hwhole, hvalue⟩ := toInt?_eq_some_iff.mp hitem
    obtain ⟨hlower, hupper⟩ := hrange item
    rw [IsIntegerWithin, hvalue]
    exact ⟨hwhole, by exact_mod_cast hlower, by exact_mod_cast Int.le_sub_one_of_lt hupper⟩
  · rintro ⟨hwhole, hlower, hupper⟩
    have hvalue := value_of_isWhole hwhole
    generalize (if numeral.negative then -numeral.whole else numeral.whole : Int) = number at hvalue
    rw [hvalue] at hlower hupper
    have hbelow : number < limit := Int.lt_of_le_sub_one (by exact_mod_cast hupper)
    refine ⟨ofInt number, ?_⟩
    rw [htoInt number (by exact_mod_cast hlower) hbelow]
    exact toInt?_eq_some_iff.mpr ⟨hwhole, hvalue⟩

end Numeral

/-! ### Forms of elements -/

namespace Kind

/-- The form that an element must have to be of a kind. -/
def Fits : Kind → Json → Prop
  | .int32, element =>
    ∃ numeral : Numeral, element = .number numeral ∧ numeral.IsIntegerWithin (2 ^ 31)
  | .int64, element =>
    ∃ numeral : Numeral, element = .number numeral ∧ numeral.IsIntegerWithin (2 ^ 63)
  | .string, element => ∃ text, element = .string text
  | .decimal, element => ∃ numeral item, element = .number numeral ∧
      Decimal.ofNumeral? numeral = some item
  | .bool, element => ∃ value, element = .bool value

/-- The value of an element that has the form of the kind. -/
def IsValueOf : (kind : Kind) → Json → kind.Carrier → Prop
  | .int32, element, item =>
    ∃ numeral : Numeral, element = .number numeral ∧ numeral.value = item.toInt
  | .int64, element, item =>
    ∃ numeral : Numeral, element = .number numeral ∧ numeral.value = item.toInt
  | .string, element, item => element = .string item
  | .decimal, element, item => ∃ numeral, element = .number numeral ∧
      Decimal.ofNumeral? numeral = some item
  | .bool, element, item => element = .bool item

variable {kind : Kind} {element : Json}

theorem exists_denotes_iff : (∃ item, kind.Denotes element item) ↔ kind.Fits element := by
  cases kind with
  | int32 =>
      simp only [Denotes, Fits, exists_comm (α := Int32), exists_and_left]
      exact exists_congr fun numeral => and_congr_right fun _ =>
        Numeral.exists_toInt?_eq_iff (fun item => ⟨item.le_toInt, item.toInt_lt⟩)
          fun _ => Int32.toInt_ofInt_of_le
  | int64 =>
      simp only [Denotes, Fits, exists_comm (α := Int64), exists_and_left]
      exact exists_congr fun numeral => and_congr_right fun _ =>
        Numeral.exists_toInt?_eq_iff (fun item => ⟨item.le_toInt, item.toInt_lt⟩)
          fun _ => Int64.toInt_ofInt_of_le
  | string => rfl
  | decimal => exact exists_comm
  | bool => rfl

theorem Denotes.isValueOf {item : kind.Carrier} (hdenotes : kind.Denotes element item) :
    kind.IsValueOf element item := by
  cases kind with
  | int32 | int64 =>
      obtain ⟨numeral, helement, hnumber⟩ := hdenotes
      exact ⟨numeral, helement, (Numeral.toInt?_eq_some_iff.mp hnumber).2⟩
  | string | decimal | bool => exact hdenotes

theorem read?_eq_none_iff : kind.read? element = none ↔ ¬kind.Fits element := by
  simp only [Option.eq_none_iff_forall_ne_some, ne_eq, read?_eq_some_iff, ← exists_denotes_iff,
    not_exists]

end Kind

/-! ### Arrays -/

namespace Literals

/-- The first element that does not fit, with its place. -/
theorem readFrom_eq_error_iff {kind : Kind} {first : Nat} {elements : List Json}
    {error : CompileError} :
    readFrom kind first elements = .error error ↔
      ∃ index element, elements[index]? = some element ∧ ¬kind.Fits element ∧
        (∀ earlier ∈ elements.take index, kind.Fits earlier) ∧
          error = .unreadableLiteral (first + index) kind element.text := by
  induction elements generalizing first with
  | nil => simp [readFrom]
  | cons head rest ih =>
      rw [readFrom]
      cases hread : kind.read? head with
      | none =>
          have hhead := Kind.read?_eq_none_iff.mp hread
          simp only [Except.error.injEq]
          constructor
          · rintro rfl
            exact ⟨0, head, rfl, hhead, List.forall_mem_nil _, rfl⟩
          · rintro ⟨index, element, helement, -, hearlier, rfl⟩
            cases index with
            | zero =>
                obtain rfl := Option.some.inj helement
                rfl
            | succ index => exact absurd (hearlier head List.mem_cons_self) hhead
      | some item =>
          have hhead : kind.Fits head :=
            Kind.exists_denotes_iff.mp ⟨item, Kind.read?_eq_some_iff.mp hread⟩
          refine map_eq_error_iff.trans (ih.trans ?_)
          constructor
          · rintro ⟨index, element, helement, hunfit, hearlier, rfl⟩
            refine ⟨index + 1, element, helement, hunfit, ?_, ?_⟩
            · exact List.forall_mem_cons.mpr ⟨hhead, hearlier⟩
            · rw [Nat.add_right_comm, Nat.add_assoc]
          · rintro ⟨index, element, helement, hunfit, hearlier, rfl⟩
            cases index with
            | zero =>
                obtain rfl := Option.some.inj helement
                exact absurd hhead hunfit
            | succ index =>
                refine ⟨index, element, helement, hunfit, ?_, ?_⟩
                · exact (List.forall_mem_cons.mp hearlier).2
                · rw [Nat.add_right_comm, Nat.add_assoc]

theorem ofJson_of_sameName {kindName : String} {kind : Kind} {elements : List Json}
    (hname : Text.SameName kind.name kindName) :
    ofJson kindName elements = (⟨kind, ·⟩) <$> readFrom kind 0 elements := by
  rw [ofJson, Kind.ofName?_eq_some_iff.mpr hname]
  rfl

theorem ofJson_eq_unsupported_iff {kindName name : String} {elements : List Json} :
    ofJson kindName elements = .error (.unsupportedKind name) ↔
      name = kindName ∧ ∀ kind : Kind, ¬Text.SameName kind.name kindName := by
  rw [← Kind.ofName?_eq_none_iff]
  cases hfound : Kind.ofName? kindName with
  | none =>
      rw [ofJson, hfound]
      simp [eq_comm]
  | some kind =>
      refine iff_of_false ?_ fun hnone => Option.some_ne_none kind hnone.2
      rw [ofJson_of_sameName (Kind.ofName?_eq_some_iff.mp hfound), map_eq_error_iff,
        readFrom_eq_error_iff]
      rintro ⟨index, element, -, -, -, herror⟩
      cases herror

/-- **Literals are read element by element.** The one way to go wrong under a name of no kind is
the name. Under the name of a kind there are literals exactly if every element has the form of the
kind, and then they are the values of the elements, place by place; otherwise the first element
that has another form is the error, whatever comes after it. -/
theorem reads_elementwise (kindName : String) (elements : List Json) :
    (∀ name, ofJson kindName elements = .error (.unsupportedKind name) ↔
      name = kindName ∧ ∀ kind : Kind, ¬Text.SameName kind.name kindName) ∧
    ∀ kind : Kind, Text.SameName kind.name kindName →
      ((∃ literals, ofJson kindName elements = .ok literals) ↔
        ∀ element ∈ elements, kind.Fits element) ∧
      (∀ literals, ofJson kindName elements = .ok literals →
        ∃ items, literals = ⟨kind, items⟩ ∧ items.length = elements.length ∧
          ∀ (index : Nat) element item, elements[index]? = some element →
            items[index]? = some item → kind.IsValueOf element item) ∧
      ∀ error, ofJson kindName elements = .error error ↔
        ∃ index element, elements[index]? = some element ∧ ¬kind.Fits element ∧
          (∀ earlier ∈ elements.take index, kind.Fits earlier) ∧
            error = .unreadableLiteral index kind element.text := by
  refine ⟨fun name => ofJson_eq_unsupported_iff, fun kind hname => ?_⟩
  have hok (literals : Literals) : ofJson kindName elements = .ok literals ↔
      ∃ items, List.Forall₂ kind.Denotes elements items ∧ literals = ⟨kind, items⟩ := by
    rw [ofJson_of_sameName hname, map_eq_ok_iff]
    exact exists_congr fun items => and_congr readFrom_eq_ok_iff eq_comm
  refine ⟨?_, ?_, fun error => ?_⟩
  · simp only [hok, exists_comm (α := Literals), exists_and_left, exists_eq, and_true]
    rw [exists_forall₂_iff]
    exact forall₂_congr fun element _ => Kind.exists_denotes_iff
  · intro literals hread
    obtain ⟨items, hitems, rfl⟩ := (hok literals).mp hread
    obtain ⟨hlength, hplaces⟩ := List.forall₂_iff_get.mp hitems
    refine ⟨items, rfl, hlength.symm, fun index element item helement hitem => ?_⟩
    obtain ⟨hindex, rfl⟩ := List.getElem?_eq_some_iff.mp helement
    obtain ⟨hbound, rfl⟩ := List.getElem?_eq_some_iff.mp hitem
    exact (hplaces index hindex hbound).isValueOf
  · rw [ofJson_of_sameName hname, map_eq_error_iff, readFrom_eq_error_iff]
    simp only [Nat.zero_add]

/-- The least number of 32 bits. -/
def lowest : Numeral := .ofInt (-2147483648)

def belowLowest : Numeral := .ofInt (-2147483649)

def wholeTenths : Numeral := ⟨false, 1, [⟨0, by decide⟩], none⟩

theorem reads_elementwise_limits :
    (∀ name, ofJson "Int32" [.number lowest] ≠ .error (.unsupportedKind name)) ∧
    (∃ items, ofJson "INT32" [.number lowest, .number lowest] = .ok (.int32 items) ∧
      items.length = 2) ∧
    ofJson "int32" [.number lowest, .number belowLowest, .number wholeTenths, .null] =
      .error (.unreadableLiteral 1 .int32 "-2147483649") := by
  have hlowest : Kind.int32.Fits (.number lowest) :=
    Kind.exists_denotes_iff.mp ⟨-2147483648, lowest, rfl, by decide⟩
  refine ⟨?_, ?_, ?_⟩
  · intro name hread
    exact ((reads_elementwise "Int32" [.number lowest]).1 name |>.mp hread).2 .int32 (by decide)
  · obtain ⟨hok, hitems, -⟩ :=
      (reads_elementwise "INT32" [.number lowest, .number lowest]).2 .int32 (by decide)
    obtain ⟨literals, hread⟩ := hok.mpr (by simpa using hlowest)
    obtain ⟨items, rfl, hlength, -⟩ := hitems literals hread
    exact ⟨items, hread, hlength⟩
  · obtain ⟨-, -, herror⟩ := (reads_elementwise "int32"
      [.number lowest, .number belowLowest, .number wholeTenths, .null]).2 .int32 (by decide)
    refine (herror _).mpr ⟨1, .number belowLowest, rfl, ?_, by simpa using hlowest, rfl⟩
    exact Kind.read?_eq_none_iff.mp rfl

end Literals

end RecordRules
