import RecordRules.Proofs.Decimal.Exact
import RecordRules.Proofs.Decimal.Written
import RecordRules.Proofs.Induction

/-!
# Decimals that are complete

A number that a decimal can hold may still be refused, or replaced by another number: the digits are
taken before the exponent moves the point, so there has to be room for them as they stand, and the
point is moved by 28 places at most. Nothing else stands in the way. Main statement: numbers are
read as decimal literals of their own values exactly if they meet these conditions
(`Literals.reads_decimals_exactly_iff`).
-/

namespace RecordRules

namespace Decimal

/-! ### Digits as they stand -/

/-- The whole part of a number that can be held fits a mantissa. -/
theorem lt_mantissaLimit_of_canHold {number : ℚ} {whole : Nat} (hwhole : whole ≤ |number|)
    (hhold : CanHold number) : whole < mantissaLimit := by
  obtain ⟨mantissa, scale, hmantissa, -, hnumber⟩ := canHold_iff.mp hhold
  have hle : (whole : ℚ) ≤ mantissa := by
    calc (whole : ℚ) ≤ |number| := hwhole
      _ = mantissa / 10 ^ scale := hnumber
      _ ≤ mantissa := div_le_self (by positivity) (one_le_pow₀ (by norm_num))
  have hwholeLe : whole ≤ mantissa := by exact_mod_cast hle
  omega

/-- No digit of a number that can be held rounds the mantissa up, and only rounding can fail. -/
theorem exists_takeFraction {mantissa scale : Nat} {digits : Digits}
    (hmantissa : mantissa < mantissaLimit) (hscale : scale ≤ 28)
    (hhold : CanHold ((mantissa + digits.places) / 10 ^ scale)) :
    ∃ taken, takeFraction mantissa scale digits = some taken ∧
      taken.1 < mantissaLimit ∧ taken.2 ≤ 28 := by
  induction digits generalizing mantissa scale with
  | nil => exact ⟨(mantissa, scale), rfl, hmantissa, hscale⟩
  | cons digit rest ih =>
      rw [takeFraction]
      by_cases hroom : scale < 28 ∧ 10 * mantissa + digit.val < mantissaLimit
      · rw [if_pos hroom]
        rw [take_digit_eq] at hhold
        exact ih hroom.2 hroom.1 hhold
      · -- Without room the next digit decides about rounding, and it has to be zero.
        have hdigit := digit_eq_zero_of_canHold hroom hhold
        rw [if_neg hroom, if_pos (by omega)]
        exact ⟨(mantissa, scale), rfl, hmantissa, hscale⟩

theorem exists_ofPlain? {whole : Nat} {fraction : Digits} (negative : Bool)
    (hhold : CanHold (whole + fraction.places)) :
    ∃ base, ofPlain? negative whole fraction = some base := by
  have hplaces := Digits.places_nonneg fraction
  have hwhole : whole < mantissaLimit := by
    refine lt_mantissaLimit_of_canHold ?_ hhold
    rw [abs_of_nonneg (by positivity)]
    exact le_add_of_nonneg_right hplaces
  have hstart : CanHold ((whole + fraction.places) / 10 ^ 0) := by
    rwa [pow_zero, div_one]
  obtain ⟨⟨mantissa, scale⟩, htaken, hmantissa, hscale⟩ :=
    exists_takeFraction hwhole (Nat.zero_le 28) hstart
  rw [ofPlain?, if_pos hwhole, htaken]
  exact ⟨_, make?_eq_some hmantissa hscale⟩

/-! ### Moving the point -/

variable {decimal : Decimal} {power : Nat}

theorem dropDigits_lt {mantissa : Nat} (hmantissa : mantissa < mantissaLimit) (count : Nat) :
    dropDigits mantissa count < mantissaLimit := by
  cases count with
  | zero => exact hmantissa
  | succ count =>
      have hkept : mantissa / Nat.pow 10 (count + 1) ≤ mantissa / 10 := by
        rw [Nat.pow_eq, Nat.pow_succ', ← Nat.div_div_eq_div_mul]
        exact Nat.div_le_self _ _
      have hlimit : 1 < mantissaLimit := by decide
      rw [dropDigits]
      split
      · omega
      · omega

/-- Lowering rounds what does not fit, so that only the power can be too large. -/
theorem exists_lower?_iff : (∃ lowered, decimal.lower? power = some lowered) ↔ power ≤ 28 := by
  rw [lower?]
  constructor
  · rintro ⟨lowered, hlower⟩
    split at hlower
    · cases hlower
    · omega
  · intro hpower
    rw [if_neg (by omega)]
    split
    · rename_i hscale
      exact ⟨_, make?_eq_some decimal.mantissa_lt hscale⟩
    · exact ⟨_, make?_eq_some (dropDigits_lt decimal.mantissa_lt _) (Nat.le_refl 28)⟩

/-- Raising does not round, so the result has to fit as well. -/
theorem exists_raise?_iff :
    (∃ raised, decimal.raise? power = some raised) ↔
      power ≤ 28 ∧ CanHold (decimal.value * 10 ^ power) := by
  have hscale := decimal.scale_le
  constructor
  · rintro ⟨raised, hraise⟩
    refine ⟨?_, raised, value_of_raise? hraise⟩
    rw [raise?] at hraise
    split at hraise
    · omega
    · split at hraise
      · cases hraise
      · omega
  · rintro ⟨hpower, hhold⟩
    rw [raise?]
    split
    · exact ⟨_, make?_eq_some decimal.mantissa_lt (by omega)⟩
    · have hsplit : power = decimal.scale + (power - decimal.scale) := by omega
      have hmantissa : decimal.mantissa * 10 ^ (power - decimal.scale) < mantissaLimit := by
        refine lt_mantissaLimit_of_canHold (le_of_eq ?_) hhold
        rw [abs_mul, abs_value, abs_of_nonneg (by positivity), hsplit, pow_add]
        push_cast
        field_simp
        simp
      rw [if_neg (by omega)]
      exact ⟨_, make?_eq_some hmantissa (Nat.zero_le 28)⟩

/-! ### Numerals -/

/-- A number is read with its own value exactly if there is room for it with its exponent and
without, and the exponent is at most 28 either way. -/
theorem exists_exact_iff {numeral : Numeral} :
    (∃ decimal, ofNumeral? numeral = some decimal ∧ decimal.value = numeral.value) ↔
      CanHold numeral.plain.value ∧ CanHold numeral.value ∧
        ∀ exponent ∈ numeral.exponent, exponent.digits.value ≤ 28 := by
  constructor
  · rintro ⟨decimal, hread, hexact⟩
    obtain ⟨hplain, hheld⟩ := (value_eq_iff_canHold hread).mp hexact
    refine ⟨hplain, hheld, ?_⟩
    intro exponent hwritten
    obtain ⟨base, -, hexponent⟩ := Option.bind_eq_some_iff.mp hread
    rw [Option.mem_def.mp hwritten] at hexponent
    dsimp only at hexponent
    split at hexponent
    · exact exists_lower?_iff.mp ⟨decimal, hexponent⟩
    · exact (exists_raise?_iff.mp ⟨decimal, hexponent⟩).1
  · rintro ⟨hplain, hheld, hpower⟩
    obtain ⟨base, hbase⟩ := exists_ofPlain? numeral.negative (canHold_plain_iff.mp hplain)
    have hvalue := value_of_ofPlain?_numeral hbase hplain
    -- Whatever is read has the right value by now, so only failures are left to be ruled out.
    suffices hread : ∃ decimal, ofNumeral? numeral = some decimal by
      obtain ⟨decimal, hread⟩ := hread
      exact ⟨decimal, hread, (value_eq_iff_canHold hread).mpr ⟨hplain, hheld⟩⟩
    rw [ofNumeral?, hbase, Option.bind_eq_bind, Option.bind_some]
    cases hwritten : numeral.exponent with
    | none => exact ⟨base, rfl⟩
    | some exponent =>
        have hle := hpower exponent hwritten
        dsimp only
        split
        · exact exists_lower?_iff.mpr hle
        · rename_i hpositive
          refine exists_raise?_iff.mpr ⟨hle, ?_⟩
          rwa [value_numeral, hwritten, Option.map_some, Option.getD_some, Exponent.shift,
            if_neg hpositive, zpow_natCast, ← hvalue] at hheld

end Decimal

/-! ### Literals -/

namespace Literals

/-- The element is a number, and the decimal that is read from it has its value. -/
def ReadsExactly (element : Json) (decimal : Decimal) : Prop :=
  ∃ numeral, element = .number numeral ∧
    Decimal.ofNumeral? numeral = some decimal ∧ decimal.value = numeral.value

theorem exists_readsExactly_iff {element : Json} :
    (∃ decimal, ReadsExactly element decimal) ↔ ∃ numeral : Numeral,
      element = .number numeral ∧ Decimal.CanHold numeral.plain.value ∧
        Decimal.CanHold numeral.value ∧
          ∀ exponent ∈ numeral.exponent, exponent.digits.value ≤ 28 := by
  simp only [← Decimal.exists_exact_iff, ReadsExactly]
  constructor
  · rintro ⟨decimal, numeral, helement, hread⟩
    exact ⟨numeral, helement, decimal, hread⟩
  · rintro ⟨numeral, helement, decimal, hread⟩
    exact ⟨decimal, numeral, helement, hread⟩

theorem forall₂_readsExactly_iff {elements : List Json} {decimals : List Decimal} :
    List.Forall₂ ReadsExactly elements decimals ↔
      List.Forall₂ Kind.decimal.Denotes elements decimals ∧
        List.Forall₂ (fun (element : Json) (decimal : Decimal) => ∃ numeral : Numeral,
          element = .number numeral ∧ decimal.value = numeral.value) elements decimals := by
  constructor
  · intro hreads
    constructor
    · apply hreads.imp
      rintro element decimal ⟨numeral, helement, hread, -⟩
      exact ⟨numeral, helement, hread⟩
    · apply hreads.imp
      rintro element decimal ⟨numeral, helement, -, hvalue⟩
      exact ⟨numeral, helement, hvalue⟩
  · rintro ⟨hdenoted, hexact⟩
    refine hdenoted.mp ?_ hexact
    rintro element decimal ⟨numeral, helement, hread⟩ ⟨other, hother, hvalue⟩
    obtain rfl : numeral = other := Json.number.inj (helement.symm.trans hother)
    exact ⟨numeral, helement, hread, hvalue⟩

/-- **Numbers that decimals can hold are read as they are, with few exceptions.** Elements under the
name of the decimals are read as literals of their own values exactly if all of them are numbers
with room for their digits, with the exponent and without it, and no exponent is above 28 or
below -28. -/
theorem reads_decimals_exactly_iff {kindName : String} {elements : List Json} :
    (∃ decimals, ofJson kindName elements = .ok (.decimal decimals) ∧
        List.Forall₂ (fun (element : Json) (decimal : Decimal) => ∃ numeral : Numeral,
          element = .number numeral ∧ decimal.value = numeral.value) elements decimals) ↔
      Text.SameName Kind.decimal.name kindName ∧ ∀ element ∈ elements, ∃ numeral : Numeral,
        element = .number numeral ∧ Decimal.CanHold numeral.plain.value ∧
          Decimal.CanHold numeral.value ∧
            ∀ exponent ∈ numeral.exponent, exponent.digits.value ≤ 28 := by
  simp only [← exists_readsExactly_iff, ← exists_forall₂_iff, forall₂_readsExactly_iff]
  constructor
  · rintro ⟨decimals, hread, hexact⟩
    obtain ⟨hname, hdenoted⟩ := ofJson_eq_ok_iff.mp hread
    exact ⟨hname, decimals, hdenoted, hexact⟩
  · rintro ⟨hname, decimals, hdenoted, hexact⟩
    exact ⟨decimals, ofJson_eq_ok_iff.mpr ⟨hname, hdenoted⟩, hexact⟩

/-- The value of the smallest decimal above zero. -/
def smallest : Numeral := ⟨false, 1, [], some ⟨true, ⟨2, by decide⟩, [⟨8, by decide⟩]⟩⟩

theorem value_smallest : smallest.value = 1 / 10 ^ 28 := by
  norm_num [smallest, Numeral.value, Exponent.shift, Exponent.digits, Digits.value]

theorem canHold_smallest : Decimal.CanHold (1 / 10 ^ 28) := by
  refine ⟨⟨false, 1, 28, by decide, by decide⟩, ?_⟩
  norm_num [Decimal.value, Decimal.signed]

theorem reads_decimals_exactly_iff_smallest :
    ∃ decimals, ofJson "decimal" [.number smallest] = .ok (.decimal decimals) ∧
      List.Forall₂ (fun (element : Json) (decimal : Decimal) => ∃ numeral : Numeral,
        element = .number numeral ∧ decimal.value = numeral.value) [.number smallest] decimals := by
  have hone : Decimal.CanHold 1 := ⟨⟨false, 1, 0, by decide, by decide⟩, by
    norm_num [Decimal.value, Decimal.signed]⟩
  have hplain : smallest.plain.value = 1 := by
    norm_num [smallest, Numeral.plain, Numeral.value, Digits.value]
  refine reads_decimals_exactly_iff.mpr ⟨by decide, List.forall_mem_singleton.mpr ?_⟩
  refine ⟨smallest, rfl, hplain ▸ hone, value_smallest ▸ canHold_smallest, ?_⟩
  rintro _ ⟨⟩
  decide

/-- The same value, with one more place in the exponent than is allowed. -/
def tenTenths : Numeral := ⟨false, 10, [], some ⟨true, ⟨2, by decide⟩, [⟨9, by decide⟩]⟩⟩

theorem value_tenTenths : tenTenths.value = 1 / 10 ^ 28 := by
  norm_num [tenTenths, Numeral.value, Exponent.shift, Exponent.digits, Digits.value]

/-- Of two numbers that decimals can hold, one is refused and the other one is read as zero. -/
theorem held_but_not_read :
    (Decimal.CanHold tenTenths.value ∧
        ofJson "Decimal" [.number tenTenths] =
          .error (.unreadableLiteral 0 .decimal "10e-29")) ∧
      Decimal.CanHold tinyShifted.value ∧
        ofJson "Decimal" [.number tinyShifted] =
          .ok (.decimal [⟨false, 0, 23, by decide, by decide⟩]) ∧
        Decimal.value ⟨false, 0, 23, by decide, by decide⟩ ≠ tinyShifted.value := by
  refine ⟨⟨value_tenTenths ▸ canHold_smallest, rfl⟩, ?_, rfl, ?_⟩
  · refine ⟨⟨false, 1, 24, by decide, by decide⟩, ?_⟩
    norm_num [value_tinyShifted, Decimal.value, Decimal.signed]
  · norm_num [value_tinyShifted, Decimal.value, Decimal.signed]

end Literals

end RecordRules
