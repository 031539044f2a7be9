import RecordRules.Decimal.Value
import RecordRules.Proofs.Numeral.Spelling
import RecordRules.Proofs.Value.Coercion

/-!
# Decimals that are exact

A numeral can have more digits than a decimal has room for, and then the decimal that comes of it is
another number. Which numerals are affected does not depend on how the digits are rounded: a digit
that finds no room is a zero, with nothing but zeros after it, if the number can be held at all.
Main statement: a number that is read as a literal keeps its value exactly if there is a decimal of
that value, and also one of the value that the digits have without the exponent
(`Literals.decimals_are_exact_iff`).
-/

namespace RecordRules

/-! ### Digits after the point -/

namespace Digits

/-- What digits after the point add to the whole part before it. -/
def places (digits : Digits) : ℚ := digits.value / 10 ^ digits.length

theorem places_cons (digit : Digit) (rest : Digits) :
    places (digit :: rest) = (digit.val + places rest) / 10 := by
  have hvalue : value (digit :: rest) = digit.val * 10 ^ rest.length + value rest := by
    rw [value, List.foldl_cons, foldl_eq, Nat.mul_zero, Nat.zero_add]
  rw [places, places, hvalue, List.length_cons]
  push_cast
  field_simp
  ring

theorem places_nonneg (digits : Digits) : 0 ≤ digits.places := by
  rw [places]
  positivity

theorem places_lt_one (digits : Digits) : digits.places < 1 := by
  induction digits with
  | nil => norm_num [places, value]
  | cons digit rest ih =>
      have hdigit : (digit.val : ℚ) ≤ 9 := by exact_mod_cast Nat.le_of_lt_succ digit.isLt
      rw [places_cons]
      linarith

/-- Digits after the point of a whole number are zeros. -/
theorem places_eq_zero_of_whole {digits : Digits} {whole number : Nat}
    (hnumber : (whole : ℚ) + digits.places = number) : digits.places = 0 := by
  have hnonneg := places_nonneg digits
  have hlt := places_lt_one digits
  have hupper : number < whole + 1 := by
    exact_mod_cast (by linarith : (number : ℚ) < whole + 1)
  have hlower : whole ≤ number := by
    exact_mod_cast (by linarith : (whole : ℚ) ≤ number)
  have hsame : number = whole := by omega
  rw [hsame] at hnumber
  linarith

end Digits

/-! ### Numbers that decimals can hold -/

namespace Decimal

def CanHold (number : ℚ) : Prop := ∃ decimal : Decimal, decimal.value = number

theorem value_eq (decimal : Decimal) :
    decimal.value = (if decimal.negative then -1 else 1) *
      ((decimal.mantissa : ℚ) / 10 ^ decimal.scale) := by
  rw [value, signed]
  split
  · push_cast
    ring
  · push_cast
    ring

theorem abs_value (decimal : Decimal) :
    |decimal.value| = (decimal.mantissa : ℚ) / 10 ^ decimal.scale := by
  have hmagnitude : (0 : ℚ) ≤ decimal.mantissa / 10 ^ decimal.scale := by positivity
  rw [value_eq, abs_mul, abs_of_nonneg hmagnitude]
  split <;> norm_num

theorem canHold_iff {number : ℚ} :
    CanHold number ↔ ∃ mantissa scale : Nat, mantissa < mantissaLimit ∧ scale ≤ 28 ∧
      |number| = mantissa / 10 ^ scale := by
  constructor
  · rintro ⟨decimal, rfl⟩
    exact ⟨decimal.mantissa, decimal.scale, decimal.mantissa_lt, decimal.scale_le,
      decimal.abs_value⟩
  · rintro ⟨mantissa, scale, hmantissa, hscale, hnumber⟩
    refine ⟨⟨decide (number < 0), mantissa, scale, hmantissa, hscale⟩, ?_⟩
    rw [value_eq]
    dsimp only
    rw [← hnumber]
    rcases lt_or_ge number 0 with hnegative | hpositive
    · simp [hnegative, abs_of_neg hnegative]
    · simp [not_lt.mpr hpositive, abs_of_nonneg hpositive]

theorem canHold_neg_iff {number : ℚ} : CanHold (-number) ↔ CanHold number := by
  rw [canHold_iff, canHold_iff, abs_neg]

/-! ### Taking digits -/

/-- Where a digit finds no room, nothing but zeros is left of a number that can be held. -/
theorem places_eq_zero_of_canHold {mantissa scale : Nat} {digit : Digit} {rest : Digits}
    (hstop : ¬(scale < 28 ∧ 10 * mantissa + digit.val < mantissaLimit))
    (hhold : CanHold ((mantissa + Digits.places (digit :: rest)) / 10 ^ scale)) :
    Digits.places (digit :: rest) = 0 := by
  obtain ⟨held, heldScale, hheld, hscale, hnumber⟩ := canHold_iff.mp hhold
  have hplaces := Digits.places_nonneg (digit :: rest)
  rw [abs_of_nonneg (by positivity), div_eq_div_iff (by positivity) (by positivity)] at hnumber
  rcases le_or_gt heldScale scale with hle | hgt
  · -- The number has no more places than have been taken, so what is left is a whole number.
    obtain ⟨further, rfl⟩ := Nat.exists_eq_add_of_le hle
    have hwhole : (mantissa : ℚ) + Digits.places (digit :: rest) =
        ((held * 10 ^ further : Nat) : ℚ) := by
      rw [pow_add] at hnumber
      push_cast
      field_simp at hnumber ⊢
      linarith
    exact Digits.places_eq_zero_of_whole hwhole
  · -- The next digit would have been taken as well, had there been room in the mantissa.
    obtain ⟨further, rfl⟩ := Nat.exists_eq_add_of_lt hgt
    have hroom : mantissaLimit ≤ 10 * mantissa + digit.val := by omega
    have hrest := Digits.places_nonneg rest
    have hscaled : (10 * mantissa + digit.val + Digits.places rest) * 10 ^ further =
        (held : ℚ) := by
      rw [Digits.places_cons, pow_add, pow_add] at hnumber
      field_simp at hnumber
      linarith
    have hlower : (10 * mantissa + digit.val : ℚ) ≤ held := by
      calc (10 * mantissa + digit.val : ℚ)
          ≤ 10 * mantissa + digit.val + Digits.places rest := le_add_of_nonneg_right hrest
        _ ≤ (10 * mantissa + digit.val + Digits.places rest) * 10 ^ further :=
            le_mul_of_one_le_right (by positivity) (one_le_pow₀ (by norm_num))
        _ = held := hscaled
    have hheldLower : 10 * mantissa + digit.val ≤ held := by exact_mod_cast hlower
    omega

/-- A digit that finds no room is a zero if the number can be held. -/
theorem digit_eq_zero_of_canHold {mantissa scale : Nat} {digit : Digit} {rest : Digits}
    (hstop : ¬(scale < 28 ∧ 10 * mantissa + digit.val < mantissaLimit))
    (hhold : CanHold ((mantissa + Digits.places (digit :: rest)) / 10 ^ scale)) :
    digit.val = 0 := by
  have hzero := places_eq_zero_of_canHold hstop hhold
  have hrest := Digits.places_nonneg rest
  rw [Digits.places_cons] at hzero
  have hbound : (digit.val : ℚ) ≤ 0 := by linarith
  exact Nat.le_zero.mp (by exact_mod_cast hbound)

/-- Taking a digit moves it over the point, and the number stays the same. -/
theorem take_digit_eq (mantissa scale : Nat) (digit : Digit) (rest : Digits) :
    (mantissa + Digits.places (digit :: rest)) / 10 ^ scale =
      (((10 * mantissa + digit.val : Nat) : ℚ) + Digits.places rest) / 10 ^ (scale + 1) := by
  rw [Digits.places_cons, pow_succ]
  push_cast
  field_simp
  ring

/-- The digits of a number that can be held are taken without a loss. -/
theorem takeFraction_of_canHold {mantissa scale : Nat} {digits : Digits} {taken : Nat × Nat}
    (htaken : takeFraction mantissa scale digits = some taken)
    (hhold : CanHold ((mantissa + digits.places) / 10 ^ scale)) :
    (taken.1 : ℚ) / 10 ^ taken.2 = (mantissa + digits.places) / 10 ^ scale := by
  -- The number that is to be held is the same after each digit.
  induction digits generalizing mantissa scale with
  | nil =>
      rw [takeFraction] at htaken
      rw [← Option.some.inj htaken]
      simp [Digits.places, Digits.value]
  | cons digit rest ih =>
      by_cases hroom : scale < 28 ∧ 10 * mantissa + digit.val < mantissaLimit
      · rw [takeFraction, if_pos hroom] at htaken
        rw [take_digit_eq] at hhold ⊢
        exact ih htaken hhold
      · have hzero := places_eq_zero_of_canHold hroom hhold
        have hdigit := digit_eq_zero_of_canHold hroom hhold
        rw [takeFraction, if_neg hroom, if_pos (by omega)] at htaken
        rw [← Option.some.inj htaken, hzero, add_zero]

/-! ### Numbers without an exponent -/

theorem make?_eq_some_iff {negative : Bool} {mantissa scale : Nat} {decimal : Decimal} :
    make? negative mantissa scale = some decimal ↔
      decimal.negative = negative ∧ decimal.mantissa = mantissa ∧ decimal.scale = scale := by
  obtain ⟨sign, digits, places, hdigits, hplaces⟩ := decimal
  rw [make?]
  constructor
  · intro hmake
    split at hmake
    · cases hmake
      exact ⟨rfl, rfl, rfl⟩
    · cases hmake
  · rintro ⟨rfl, rfl, rfl⟩
    exact dif_pos ⟨hdigits, hplaces⟩

theorem value_of_ofPlain? {negative : Bool} {whole : Nat} {fraction : Digits} {decimal : Decimal}
    (hplain : ofPlain? negative whole fraction = some decimal)
    (hhold : CanHold (whole + fraction.places)) :
    decimal.value = (if negative then -1 else 1) * (whole + fraction.places) := by
  rw [ofPlain?] at hplain
  split at hplain
  · obtain ⟨⟨mantissa, scale⟩, htaken, hmake⟩ := Option.bind_eq_some_iff.mp hplain
    obtain ⟨hnegative, rfl, rfl⟩ := make?_eq_some_iff.mp hmake
    have hexact := takeFraction_of_canHold htaken (by simpa using hhold)
    rw [pow_zero, div_one] at hexact
    rw [value_eq, hnegative, ← hexact]
    by_cases hzero : decimal.mantissa = 0
    · simp [hzero]
    · simp [hzero]
  · cases hplain

/-! ### Exponents -/

theorem value_eq_of_scale_eq {decimal other : Decimal} {power : Nat}
    (hnegative : other.negative = decimal.negative) (hmantissa : other.mantissa = decimal.mantissa)
    (hscale : other.scale + power = decimal.scale) :
    other.value = decimal.value * 10 ^ power := by
  rw [value_eq, value_eq, hnegative, hmantissa, ← hscale, pow_add]
  field_simp

theorem value_of_raise? {decimal raised : Decimal} {power : Nat}
    (hraise : decimal.raise? power = some raised) : raised.value = decimal.value * 10 ^ power := by
  rw [raise?] at hraise
  split at hraise
  · obtain ⟨hnegative, hmantissa, hscale⟩ := make?_eq_some_iff.mp hraise
    exact value_eq_of_scale_eq hnegative hmantissa (by omega)
  · split at hraise
    · cases hraise
    · obtain ⟨hnegative, hmantissa, hscale⟩ := make?_eq_some_iff.mp hraise
      have hpower : power = decimal.scale + (power - decimal.scale) := by omega
      rw [value_eq, value_eq, hnegative, hmantissa, hscale, hpower, pow_add]
      push_cast
      field_simp
      simp

theorem pow_dvd_of_canHold {decimal : Decimal} {power : Nat}
    (hhold : CanHold (decimal.value / 10 ^ power)) :
    10 ^ (decimal.scale + power - 28) ∣ decimal.mantissa := by
  obtain ⟨held, heldScale, -, hscale, hnumber⟩ := canHold_iff.mp hhold
  have hmantissa : decimal.mantissa * 10 ^ heldScale = held * 10 ^ (decimal.scale + power) := by
    rw [abs_div, abs_value, abs_of_nonneg (by positivity), div_div, ← pow_add,
      div_eq_div_iff (by positivity) (by positivity)] at hnumber
    exact_mod_cast hnumber
  rcases Nat.lt_or_ge 28 (decimal.scale + power) with hplaces | hplaces
  · have hshift : decimal.scale + power = decimal.scale + power - heldScale + heldScale := by
      omega
    rw [hshift, pow_add, ← mul_assoc] at hmantissa
    have hfactor := Nat.eq_of_mul_eq_mul_right (by positivity) hmantissa
    have hle : decimal.scale + power - 28 ≤ decimal.scale + power - heldScale := by omega
    exact hfactor ▸ Dvd.dvd.mul_left (pow_dvd_pow 10 hle) held
  · rw [Nat.sub_eq_zero_of_le hplaces, pow_zero]
    exact one_dvd _

theorem dropDigits_of_dvd {mantissa count : Nat} (hdvd : 10 ^ count ∣ mantissa) :
    dropDigits mantissa count = mantissa / 10 ^ count := by
  cases count with
  | zero => rw [dropDigits, pow_zero, Nat.div_one]
  | succ count =>
      have hdigit : mantissa / 10 ^ count % 10 = 0 := by
        obtain ⟨kept, rfl⟩ := hdvd
        rw [pow_succ, mul_assoc, Nat.mul_div_cancel_left _ (by positivity), Nat.mul_mod_right]
      rw [dropDigits]
      simp only [Nat.pow_eq]
      rw [hdigit, if_pos (by omega)]

theorem power_le_scale_of_lower? {decimal lowered : Decimal} {power : Nat}
    (hlower : decimal.lower? power = some lowered) : power ≤ lowered.scale := by
  rw [lower?] at hlower
  split at hlower
  · cases hlower
  · split at hlower
    · obtain ⟨-, -, hscale⟩ := make?_eq_some_iff.mp hlower
      omega
    · obtain ⟨-, -, hscale⟩ := make?_eq_some_iff.mp hlower
      omega

/-- Lowering is exact if the result can be held. -/
theorem value_of_lower? {decimal lowered : Decimal} {power : Nat}
    (hlower : decimal.lower? power = some lowered)
    (hhold : CanHold (decimal.value / 10 ^ power)) :
    lowered.value = decimal.value / 10 ^ power := by
  rw [lower?] at hlower
  split at hlower
  · cases hlower
  · rw [eq_div_iff (by positivity)]
    split at hlower
    · obtain ⟨hnegative, hmantissa, hscale⟩ := make?_eq_some_iff.mp hlower
      exact (value_eq_of_scale_eq hnegative.symm hmantissa.symm hscale.symm).symm
    · have hplaces : decimal.scale + power = decimal.scale + power - 28 + 28 := by omega
      have hdvd := pow_dvd_of_canHold hhold
      obtain ⟨hnegative, hmantissa, hscale⟩ := make?_eq_some_iff.mp hlower
      rw [dropDigits_of_dvd hdvd] at hmantissa
      have hkept : (decimal.mantissa : ℚ) =
          lowered.mantissa * 10 ^ (decimal.scale + power - 28) := by
        rw [hmantissa]
        exact_mod_cast (Nat.div_mul_cancel hdvd).symm
      rw [value_eq, value_eq, hnegative, hscale, hkept, mul_assoc]
      congr 1
      rw [div_mul_eq_mul_div, div_eq_div_iff (by positivity) (by positivity), mul_assoc, mul_assoc,
        ← pow_add, ← pow_add, ← hplaces, Nat.add_comm]

theorem canHold_mul_pow {decimal : Decimal} {power : Nat} (hpower : power ≤ decimal.scale) :
    CanHold (decimal.value * 10 ^ power) := by
  have hscale : decimal.scale - power ≤ 28 := (Nat.sub_le _ _).trans decimal.scale_le
  refine ⟨⟨decimal.negative, decimal.mantissa, decimal.scale - power, decimal.mantissa_lt, hscale⟩,
    ?_⟩
  exact value_eq_of_scale_eq rfl rfl (Nat.sub_add_cancel hpower)

end Decimal

/-! ### Numerals -/

def Numeral.plain (numeral : Numeral) : Numeral := { numeral with exponent := none }

namespace Decimal

theorem value_plain (numeral : Numeral) :
    numeral.plain.value = (if numeral.negative then -1 else 1) *
      (numeral.whole + numeral.fraction.places) := by
  rw [Numeral.value, Numeral.plain, Digits.places]
  cases numeral.negative <;> simp

theorem value_numeral (numeral : Numeral) :
    numeral.value = numeral.plain.value * 10 ^ ((numeral.exponent.map Exponent.shift).getD 0) := by
  rw [Numeral.value, Numeral.value, Numeral.plain]
  simp

variable {numeral : Numeral} {base decimal : Decimal}

theorem canHold_plain_iff :
    CanHold numeral.plain.value ↔ CanHold (numeral.whole + numeral.fraction.places) := by
  rw [value_plain]
  split
  · rw [neg_one_mul, canHold_neg_iff]
  · rw [one_mul]

theorem value_of_ofPlain?_numeral
    (hbase : ofPlain? numeral.negative numeral.whole numeral.fraction = some base)
    (hhold : CanHold numeral.plain.value) : base.value = numeral.plain.value := by
  rw [canHold_plain_iff] at hhold
  rw [value_plain]
  exact value_of_ofPlain? hbase hhold

section Exponent

variable {power : Nat} {number : ℚ} (hbase : CanHold number → base.value = number)
include hbase

theorem lower?_exact_iff (hlower : base.lower? power = some decimal) :
    decimal.value = number / 10 ^ power ↔ CanHold number ∧ CanHold (number / 10 ^ power) := by
  constructor
  · intro hexact
    have hnumber : decimal.value * 10 ^ power = number := by
      rw [hexact]
      field_simp
    exact ⟨hnumber ▸ canHold_mul_pow (power_le_scale_of_lower? hlower), decimal, hexact⟩
  · rintro ⟨hnumber, hheld⟩
    rw [← hbase hnumber] at hheld ⊢
    exact value_of_lower? hlower hheld

theorem raise?_exact_iff (hraise : base.raise? power = some decimal) :
    decimal.value = number * 10 ^ power ↔ CanHold number ∧ CanHold (number * 10 ^ power) := by
  constructor
  · intro hexact
    have hshifted : base.value * 10 ^ power = number * 10 ^ power :=
      (value_of_raise? hraise).symm.trans hexact
    exact ⟨⟨base, mul_right_cancel₀ (by positivity) hshifted⟩, decimal, hexact⟩
  · rintro ⟨hnumber, -⟩
    rw [value_of_raise? hraise, hbase hnumber]

end Exponent

/-- The exponent comes last, so there has to be room for the number before it and after it. -/
theorem value_eq_iff_canHold (hread : ofNumeral? numeral = some decimal) :
    decimal.value = numeral.value ↔ CanHold numeral.plain.value ∧ CanHold numeral.value := by
  obtain ⟨base, hbase, hexponent⟩ := Option.bind_eq_some_iff.mp hread
  have hplain : CanHold numeral.plain.value → base.value = numeral.plain.value :=
    value_of_ofPlain?_numeral hbase
  rw [value_numeral]
  cases hwritten : numeral.exponent with
  | none =>
      simp only [hwritten] at hexponent
      cases hexponent
      rw [Option.map_none, Option.getD_none, zpow_zero, mul_one, and_self]
      exact ⟨fun hexact => ⟨decimal, hexact⟩, hplain⟩
  | some exponent =>
      simp only [hwritten] at hexponent
      rw [Option.map_some, Option.getD_some, Exponent.shift]
      split at hexponent
      · rename_i hnegative
        rw [if_pos hnegative, zpow_neg, zpow_natCast, ← div_eq_mul_inv]
        exact lower?_exact_iff hplain hexponent
      · rename_i hpositive
        rw [if_neg hpositive, zpow_natCast]
        exact raise?_exact_iff hplain hexponent

end Decimal

/-! ### Literals -/

namespace Literals

/-- **Decimals are exact if there is room for them.** Numbers that are read as decimal literals are
read one for one, and such a literal has the value of its number exactly if there is a decimal of
that value and a decimal of the value without the exponent. Every other number is replaced by one of
another value. -/
theorem decimals_are_exact_iff {kindName : String} {elements : List Json} {decimals : List Decimal}
    (hread : ofJson kindName elements = .ok (.decimal decimals)) :
    List.Forall₂ (fun (element : Json) (decimal : Decimal) => ∃ numeral : Numeral,
      element = .number numeral ∧
        (decimal.value = numeral.value ↔
          Decimal.CanHold numeral.plain.value ∧ Decimal.CanHold numeral.value))
      elements decimals := by
  obtain ⟨-, hdecimals⟩ := ofJson_eq_ok_iff.mp hread
  apply hdecimals.imp
  rintro element decimal ⟨numeral, helement, hnumeral⟩
  exact ⟨numeral, helement, Decimal.value_eq_iff_canHold hnumeral⟩

/-- A one in the place after the last one that a decimal has. -/
def tiny : Numeral := ⟨false, 0, Digits.lastOf 29 1, none⟩

/-- The same digits, with the point moved to where there is room for them. -/
def tinyShifted : Numeral := { tiny with exponent := some ⟨false, ⟨5, by decide⟩, []⟩ }

theorem value_tiny : tiny.value = 1 / 10 ^ 29 := by
  have hdigits : tiny.fraction.value = 1 := by decide
  have hlength : tiny.fraction.length = 29 := rfl
  rw [Numeral.value, hdigits, hlength]
  norm_num [tiny]

theorem value_tinyShifted : tinyShifted.value = 1 / 10 ^ 24 := by
  have hplain : tinyShifted.plain = tiny := rfl
  rw [Decimal.value_numeral, hplain, value_tiny]
  norm_num [tinyShifted, Exponent.shift, Exponent.digits, Digits.value]

theorem decimals_are_exact_iff_tinyShifted :
    ofJson "Decimal" [.number tinyShifted] =
        .ok (.decimal [⟨false, 0, 23, by decide, by decide⟩]) ∧
      Decimal.CanHold tinyShifted.value ∧ ¬Decimal.CanHold tinyShifted.plain.value := by
  have hread : ofJson "Decimal" [.number tinyShifted] =
      .ok (.decimal [⟨false, 0, 23, by decide, by decide⟩]) := rfl
  have hheld : Decimal.CanHold tinyShifted.value := by
    refine ⟨⟨false, 1, 24, by decide, by decide⟩, ?_⟩
    norm_num [value_tinyShifted, Decimal.value, Decimal.signed]
  refine ⟨hread, hheld, fun hplain => ?_⟩
  obtain - | ⟨⟨numeral, helement, hexact⟩, -⟩ := decimals_are_exact_iff hread
  cases helement
  have hvalue := hexact.mpr ⟨hplain, hheld⟩
  norm_num [value_tinyShifted, Decimal.value, Decimal.signed] at hvalue

/-- A number with 29 places is read as zero. -/
theorem tiny_is_rounded :
    ofJson "Decimal" [.number tiny] = .ok (.decimal [⟨false, 0, 28, by decide, by decide⟩]) ∧
      Decimal.value ⟨false, 0, 28, by decide, by decide⟩ ≠ tiny.value := by
  refine ⟨rfl, ?_⟩
  norm_num [value_tiny, Decimal.value, Decimal.signed]

end Literals

end RecordRules
