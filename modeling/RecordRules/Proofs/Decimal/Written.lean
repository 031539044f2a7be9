import RecordRules.Decimal.OfNumeral

/-!
# Written decimals

A decimal is written with all of its digits, and all of them are taken over when it is read: the
mantissa fits from the first digit to the last, and there are at most 28 digits after the point.
Main statement: a decimal comes back from its numeral, except that zero loses its sign
(`Decimal.ofNumeral?_toNumeral`).
-/

namespace RecordRules.Decimal

/-- Zero without its sign, and every other decimal as it is. -/
def unsignZero (decimal : Decimal) : Decimal :=
  { decimal with negative := decimal.negative && decimal.mantissa != 0 }

/-- The digits after the point lead from the whole part to the mantissa, whatever follows them. -/
theorem takeFraction_lastOf {mantissa scale width : Nat} (hmantissa : mantissa < mantissaLimit)
    (hscale : scale + width ≤ 28) (rest : Digits) :
    takeFraction (mantissa / Nat.pow 10 width) scale (Digits.lastOf width mantissa ++ rest) =
      takeFraction mantissa (scale + width) rest := by
  induction width generalizing mantissa rest with
  | zero =>
      rw [Digits.lastOf, List.nil_append, Nat.pow_eq, Nat.pow_zero, Nat.div_one]
      rfl
  | succ width ih =>
      have hwhole : mantissa / Nat.pow 10 (width + 1) = mantissa / 10 / Nat.pow 10 width := by
        rw [Nat.div_div_eq_div_mul, Nat.pow_eq, Nat.pow_eq, Nat.pow_succ']
      have hdigit : 10 * (mantissa / 10) + (Fin.ofNat 10 mantissa).val = mantissa :=
        Nat.div_add_mod mantissa 10
      have hfits : scale + width < 28 ∧
          10 * (mantissa / 10) + (Fin.ofNat 10 mantissa).val < mantissaLimit := by
        rw [hdigit]
        exact ⟨hscale, hmantissa⟩
      rw [Digits.lastOf, List.append_assoc, hwhole, ih (by omega) (by omega),
        List.singleton_append, takeFraction, if_pos hfits, hdigit, Nat.add_assoc]

theorem make?_eq_some {negative : Bool} {mantissa scale : Nat}
    (hmantissa : mantissa < mantissaLimit) (hscale : scale ≤ 28) :
    make? negative mantissa scale = some ⟨negative, mantissa, scale, hmantissa, hscale⟩ :=
  dif_pos ⟨hmantissa, hscale⟩

/-- **A decimal comes back as it is written**, with its scale; zero comes back without a sign. -/
theorem ofNumeral?_toNumeral (decimal : Decimal) :
    ofNumeral? decimal.toNumeral = some decimal.unsignZero := by
  obtain ⟨negative, mantissa, scale, hmantissa, hscale⟩ := decimal
  have hwhole : mantissa / Nat.pow 10 scale < mantissaLimit :=
    Nat.lt_of_le_of_lt (Nat.div_le_self _ _) hmantissa
  have hfraction : takeFraction (mantissa / Nat.pow 10 scale) 0 (Digits.lastOf scale mantissa) =
      some (mantissa, scale) := by
    have hplaces : 0 + scale ≤ 28 := by omega
    have htaken := takeFraction_lastOf hmantissa hplaces []
    rwa [List.append_nil, Nat.zero_add] at htaken
  have hplain : ofPlain? negative (mantissa / Nat.pow 10 scale) (Digits.lastOf scale mantissa) =
      make? (negative && mantissa != 0) mantissa scale := by
    rw [ofPlain?, if_pos hwhole, hfraction]
    rfl
  rw [ofNumeral?, toNumeral, hplain, make?_eq_some hmantissa hscale]
  rfl

/-- The smallest decimal keeps all of its 28 places. -/
example : ofNumeral? (toNumeral ⟨true, 1, 28, by decide, by decide⟩) =
    some ⟨true, 1, 28, by decide, by decide⟩ := by decide

end RecordRules.Decimal
