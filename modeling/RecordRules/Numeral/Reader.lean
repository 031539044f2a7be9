import RecordRules.Numeral.Basic

/-!
# Reading numerals

A numeral is read one character at a time. A part that has been read either is a whole numeral
already or still needs a digit, and a character that cannot continue it is left to whatever
follows the numeral.
-/

namespace RecordRules

/-- What has been read of a numeral. The digits of an unfinished row are held last one first. -/
inductive NumeralPart where
  | sign
  | whole (negative : Bool) (number : Nat)
  | point (negative : Bool) (number : Nat)
  | fraction (negative : Bool) (number : Nat) (read : Digits)
  | exponentMark (base : Numeral)
  | exponentSign (base : Numeral) (negative : Bool)
  | exponent (base : Numeral) (negative : Bool) (lead : Digit) (read : Digits)

namespace NumeralPart

def start? (char : Char) : Option NumeralPart :=
  if char = '-' then some .sign else (Digit.ofChar? char).map fun digit => .whole false digit.val

def isExponentMark (char : Char) : Bool := char = 'e' || char = 'E'

/-- A whole part that begins with zero is zero alone. -/
def step? (part : NumeralPart) (char : Char) : Option NumeralPart :=
  match part, Digit.ofChar? char with
  | .sign, some digit => some (.whole true digit.val)
  | .whole negative number, some digit =>
    if number = 0 then none else some (.whole negative (10 * number + digit.val))
  | .whole negative number, none =>
    if char = '.' then some (.point negative number)
    else if isExponentMark char then some (.exponentMark ⟨negative, number, [], none⟩)
    else none
  | .point negative number, some digit => some (.fraction negative number [digit])
  | .fraction negative number read, some digit => some (.fraction negative number (digit :: read))
  | .fraction negative number read, none =>
    if isExponentMark char then some (.exponentMark ⟨negative, number, read.reverse, none⟩)
    else none
  | .exponentMark base, some digit => some (.exponent base false digit [])
  | .exponentMark base, none =>
    if char = '+' then some (.exponentSign base false)
    else if char = '-' then some (.exponentSign base true)
    else none
  | .exponentSign base negative, some digit => some (.exponent base negative digit [])
  | .exponent base negative lead read, some digit =>
    some (.exponent base negative lead (digit :: read))
  | _, none => none

example : step? (.whole false 0) '7' = none := by cbv

def numeral? : NumeralPart → Option Numeral
  | .whole negative number => some ⟨negative, number, [], none⟩
  | .fraction negative number read => some ⟨negative, number, read.reverse, none⟩
  | .exponent base negative lead read =>
    some { base with exponent := some ⟨negative, lead, read.reverse⟩ }
  | _ => none

end NumeralPart

/-- Reads a text that is one numeral and nothing else. -/
def Numeral.ofText? (text : String) : Option Numeral :=
  match text.toList with
  | [] => none
  | first :: rest => do
    let start ← NumeralPart.start? first
    let part ← rest.foldlM NumeralPart.step? start
    part.numeral?

end RecordRules
