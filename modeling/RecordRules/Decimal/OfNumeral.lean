import RecordRules.Decimal.Basic

/-!
# Decimals from numerals

The digits of a numeral are taken over as they are, trailing zeros included. What does not fit is
rounded away after the point and refused before it. An exponent moves the point; where it cannot,
digits are dropped or zeros appended.
-/

namespace RecordRules.Decimal

/-- Digits are taken while they fit, and the first one that is left out decides the rounding. A
mantissa that rounding makes too long gives up its last digit, which the point must allow. -/
def takeFraction (mantissa scale : Nat) : Digits → Option (Nat × Nat)
  | [] => some (mantissa, scale)
  | digit :: rest =>
    if scale < 28 ∧ 10 * mantissa + digit.val < mantissaLimit then
      takeFraction (10 * mantissa + digit.val) (scale + 1) rest
    else if digit.val < 5 then some (mantissa, scale)
    else if mantissa + 1 < mantissaLimit then some (mantissa + 1, scale)
    else if scale = 0 then none
    else some ((mantissa + 1 + 4) / 10, scale - 1)

/-- A zero has no sign. -/
def ofPlain? (negative : Bool) (whole : Nat) (fraction : Digits) : Option Decimal :=
  if whole < mantissaLimit then do
    let (mantissa, scale) ← takeFraction whole 0 fraction
    make? (negative && mantissa != 0) mantissa scale
  else none

/-- Drops digits from the end, the first of which decides the rounding. -/
def dropDigits (mantissa : Nat) : (count : Nat) → Nat
  | 0 => mantissa
  | count + 1 =>
    let kept := mantissa / Nat.pow 10 (count + 1)
    if mantissa / Nat.pow 10 count % 10 < 5 then kept else kept + 1

/-- Divides by a power of ten. The sign stays even if all the digits are dropped. -/
def lower? (decimal : Decimal) (power : Nat) : Option Decimal :=
  if 28 < power then none
  else if decimal.scale + power ≤ 28 then
    make? decimal.negative decimal.mantissa (decimal.scale + power)
  else
    make? decimal.negative (dropDigits decimal.mantissa (decimal.scale + power - 28)) 28

/-- Multiplies by a power of ten. -/
def raise? (decimal : Decimal) (power : Nat) : Option Decimal :=
  if power ≤ decimal.scale then make? decimal.negative decimal.mantissa (decimal.scale - power)
  else if 28 < power then none
  else make? decimal.negative (decimal.mantissa * Nat.pow 10 (power - decimal.scale)) 0

def ofNumeral? (numeral : Numeral) : Option Decimal := do
  let base ← ofPlain? numeral.negative numeral.whole numeral.fraction
  match numeral.exponent with
  | none => return base
  | some exponent =>
    if exponent.negative then base.lower? exponent.digits.value
    else base.raise? exponent.digits.value

end RecordRules.Decimal
