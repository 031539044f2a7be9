/-!
# Numerals

The written form of a JSON number, every digit of which is kept: `1.50` and `1.5` are two numerals
of one value. A whole part has no superfluous zero in front, so it is held as a number; the digits
of the fraction and of the exponent are held as they stand.
-/

namespace RecordRules

abbrev Digit := Fin 10

def Digit.char (digit : Digit) : Char := Nat.digitChar digit

def Digit.ofChar? (char : Char) : Option Digit :=
  if bounds : 48 ≤ char.toNat ∧ char.toNat < 58 then
    some ⟨char.toNat - 48, by omega⟩
  else
    none

abbrev Digits := List Digit

namespace Digits

def text (digits : Digits) : String := String.ofList (digits.map Digit.char)

def value (digits : Digits) : Nat := digits.foldl (fun value digit => 10 * value + digit.val) 0

/-- The last `width` digits of a number. -/
def lastOf : (width : Nat) → (number : Nat) → Digits
  | 0, _ => []
  | width + 1, number => lastOf width (number / 10) ++ [Fin.ofNat 10 number]

@[simp]
theorem length_lastOf (width number : Nat) : (lastOf width number).length = width := by
  induction width generalizing number with
  | zero => rfl
  | succ width ih => simp [lastOf, ih]

end Digits

/-- A power of ten, written with at least one digit. -/
structure Exponent where
  negative : Bool
  lead : Digit
  rest : Digits
  deriving DecidableEq

namespace Exponent

def digits (exponent : Exponent) : Digits := exponent.lead :: exponent.rest

/-- The sign is always written. -/
def text (exponent : Exponent) : String :=
  "e" ++ (if exponent.negative then "-" else "+") ++ exponent.digits.text

/-- The number of places by which the point moves to the right. -/
def shift (exponent : Exponent) : Int :=
  if exponent.negative then -exponent.digits.value else exponent.digits.value

end Exponent

/-- No digits in the fraction means that no point is written. -/
structure Numeral where
  negative : Bool
  whole : Nat
  fraction : Digits
  exponent : Option Exponent
  deriving DecidableEq

namespace Numeral

def signText (negative : Bool) : String := if negative then "-" else ""

def fractionText (fraction : Digits) : String :=
  if fraction.isEmpty then "" else "." ++ fraction.text

def text (numeral : Numeral) : String :=
  signText numeral.negative ++ toString numeral.whole ++ fractionText numeral.fraction ++
    (numeral.exponent.map Exponent.text).getD ""

def ofInt (number : Int) : Numeral := ⟨number < 0, number.natAbs, [], none⟩

/-- An integer is written without a point and without an exponent. -/
def toInt? (numeral : Numeral) : Option Int :=
  if numeral.fraction.isEmpty && numeral.exponent.isNone then
    some (if numeral.negative then -numeral.whole else numeral.whole)
  else
    none

@[simp]
theorem toInt?_ofInt (number : Int) : (ofInt number).toInt? = some number := by
  simp only [ofInt, toInt?, List.isEmpty_nil, Option.isNone_none, Bool.and_self, if_true,
    decide_eq_true_eq, Option.some.injEq]
  split <;> omega

end Numeral

end RecordRules
