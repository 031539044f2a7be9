import RecordRules.Numeral.Basic

/-!
# Decimals

A sign, a mantissa of 96 bits and the number of digits after the point, at most 28. Several
decimals have one value (`1.5` and `1.50`, zero with and without a sign); comparison goes by the
value, the text by the digits.
-/

namespace RecordRules

/-- The first number that needs more than 96 bits. -/
abbrev mantissaLimit : Nat := 79228162514264337593543950336

structure Decimal where
  negative : Bool
  mantissa : Nat
  scale : Nat
  mantissa_lt : mantissa < mantissaLimit
  scale_le : scale ≤ 28
  deriving DecidableEq

namespace Decimal

def make? (negative : Bool) (mantissa scale : Nat) : Option Decimal :=
  if fits : mantissa < mantissaLimit ∧ scale ≤ 28 then
    some ⟨negative, mantissa, scale, fits.1, fits.2⟩
  else
    none

def signed (decimal : Decimal) : Int :=
  if decimal.negative then -decimal.mantissa else decimal.mantissa

/-- The order of the values, which brings both to one scale. -/
def compare (left right : Decimal) : Ordering :=
  Ord.compare (left.signed * Nat.pow 10 right.scale) (right.signed * Nat.pow 10 left.scale)

/-- A decimal is written with exactly `scale` digits after the point. -/
def toNumeral (decimal : Decimal) : Numeral where
  negative := decimal.negative
  whole := decimal.mantissa / Nat.pow 10 decimal.scale
  fraction := Digits.lastOf decimal.scale decimal.mantissa
  exponent := none

def text (decimal : Decimal) : String := decimal.toNumeral.text

end Decimal

end RecordRules
