import Mathlib
import RecordRules.Decimal.OfNumeral

/-!
# Exact values

The rational numbers that numerals and decimals stand for.
-/

namespace RecordRules

/-- The digits after the point count tenths, hundredths and so on, and the exponent moves the
point. -/
def Numeral.value (numeral : Numeral) : ℚ :=
  let fraction : ℚ := numeral.fraction.value / 10 ^ numeral.fraction.length
  let magnitude : ℚ := numeral.whole + fraction
  (if numeral.negative then -magnitude else magnitude) *
    10 ^ ((numeral.exponent.map Exponent.shift).getD 0)

def Decimal.value (decimal : Decimal) : ℚ := decimal.signed / 10 ^ decimal.scale

end RecordRules
