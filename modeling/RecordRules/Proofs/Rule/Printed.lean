import RecordRules.Proofs.Rule.Shown

/-!
# Outlines as they are printed

The text of an outline ends in the text of its last comparison or in a constant, and the
parentheses behind that tell in how many groups and negations it stands. Main statement: outlines
that are normal can be told apart if their comparisons can (`Outline.toldApart`).
-/

namespace RecordRules.Outline

open Text

/-! ### Outlines of one form -/

variable {related : Comparison → Comparison → Prop}

/-- Outlines of one form, with related comparisons. -/
inductive Alike (related : Comparison → Comparison → Prop) : Outline → Outline → Prop where
  | const (value : Bool) : Alike related (.const value) (.const value)
  | group (unit : Bool) {operands others : List Outline}
      (hoperands : List.Forall₂ (Alike related) operands others) :
      Alike related (.group unit operands) (.group unit others)
  | not {operand other : Outline} (hoperand : Alike related operand other) :
      Alike related (.not operand) (.not other)
  | compare {comparison other : Comparison} (hrelated : related comparison other) :
      Alike related (.compare comparison) (.compare other)

/-- Outlines of one form hold together if their comparisons do. -/
theorem Alike.holds_eq {truth : Comparison → Bool} {outline other : Outline}
    (halike : Alike (fun comparison other => truth comparison = truth other) outline other) :
    outline.holds truth = other.holds truth := by
  induction outline generalizing other with
  | const value =>
      cases halike
      rfl
  | group unit operands ih =>
      cases halike with
      | group _ hoperands =>
          have hpairs := forall₂_imp_of_mem hoperands fun operand hmem _ => ih operand hmem
          cases unit with
          | true =>
              rw [holds, holds, allHold_eq, allHold_eq]
              exact all_eq_all_of_forall₂ hpairs
          | false =>
              rw [holds, holds, anyHolds_eq, anyHolds_eq]
              exact any_eq_any_of_forall₂ hpairs
  | not operand ih =>
      cases halike with
      | not hoperand => exact congrArg (!·) (ih hoperand)
  | compare comparison =>
      cases halike with
      | compare hrelated => exact hrelated

/-! ### Texts -/

def chars (outline : Outline) : List Char := outline.text.toList

theorem chars_const (value : Bool) :
    (const value).chars = (if value then "TRUE" else "FALSE").toList := rfl

theorem chars_compare (comparison : Comparison) : (compare comparison).chars = comparison.chars :=
  rfl

/-- A normal outline that is written as a row of operands in parentheses. Negations are rows of one
operand, with any separator. -/
inductive IsRow : Outline → List Char → Bool → List Outline → Prop where
  | group {unit : Bool} {operands : List Outline} (hlength : 2 ≤ operands.length)
      (hoperands : ∀ operand ∈ operands, operand.IsNormal) :
      IsRow (.group unit operands) "(".toList unit operands
  | not (unit : Bool) {operand : Outline} (hoperand : operand.IsNormal) :
      IsRow (.not operand) "(NOT ".toList unit [operand]

variable {outline other : Outline} {opening last : List Char} {unit otherUnit : Bool}
  {operands others : List Outline} {before after word : List Char}

namespace IsRow

theorem ne_nil (hrow : IsRow outline opening unit operands) : operands ≠ [] := by
  cases hrow with
  | group hlength hoperands => exact List.ne_nil_of_length_pos (by omega)
  | not unit hoperand => exact List.cons_ne_nil _ _

theorem isNormal (hrow : IsRow outline opening unit operands) : outline.IsNormal := by
  cases hrow with
  | group hlength hoperands => exact .group hlength hoperands
  | not unit hoperand => exact .not hoperand

theorem isNormal_of_mem (hrow : IsRow outline opening unit operands) :
    ∀ operand ∈ operands, operand.IsNormal := by
  cases hrow with
  | group hlength hoperands => exact hoperands
  | not unit hoperand => exact List.forall_mem_singleton.mpr hoperand

theorem mem_openings (hrow : IsRow outline opening unit operands) : opening ∈ openings := by
  cases hrow with
  | group hlength hoperands => exact List.mem_cons_self
  | not unit hoperand => exact List.mem_cons_of_mem _ List.mem_cons_self

theorem comparisons_subset (hrow : IsRow outline opening unit operands) {operand : Outline}
    (hmem : operand ∈ operands) : operand.comparisons ⊆ outline.comparisons := by
  cases hrow with
  | group hlength hoperands =>
      rw [comparisons, comparisonsOf_eq]
      exact fun _ hcomparison => List.mem_flatMap_of_mem hmem hcomparison
  | not unit hoperand =>
      rw [List.mem_singleton.mp hmem]
      exact List.Subset.refl _

theorem chars_eq (hrow : IsRow outline opening unit operands) :
    outline.chars = row opening (separator unit) (operands.map chars) ++ [')'] := by
  have hpresent := hrow.ne_nil
  cases hrow with
  | group hlength hoperands =>
      have hnone : ¬(operands.map text).isEmpty = true := by simpa using hpresent
      have hchars : operands.map chars = (operands.map text).map String.toList := by
        rw [List.map_map]
        rfl
      rw [chars, text, texts_eq, Rule.groupText, if_neg hnone, hchars]
      simp [row, separator, String.toList_intercalate]
  | not unit hoperand => simp [chars, text, row]

/-- A connective is written wherever there are two operands. -/
theorem alike (hrow : IsRow outline opening unit operands)
    (hother : IsRow other opening otherUnit others)
    (hoperands : List.Forall₂ (Alike related) operands others)
    (hunits : 2 ≤ operands.length → unit = otherUnit) : Alike related outline other := by
  cases hrow with
  | group hlength _ =>
      obtain rfl := hunits hlength
      cases hother with
      | group _ _ => exact .group unit hoperands
  | not unit _ =>
      cases hother with
      | not _ _ =>
          obtain - | ⟨hoperand, -⟩ := hoperands
          exact .not hoperand

end IsRow

theorem IsNormal.shape (hnormal : outline.IsNormal) :
    (∃ value, outline = .const value) ∨ (∃ comparison, outline = .compare comparison) ∨
      ∃ opening unit operands, IsRow outline opening unit operands := by
  cases hnormal with
  | const value => exact .inl ⟨value, rfl⟩
  | compare comparison => exact .inr (.inl ⟨comparison, rfl⟩)
  | group hlength hoperands => exact .inr (.inr ⟨_, _, _, .group hlength hoperands⟩)
  | not hoperand => exact .inr (.inr ⟨_, true, _, .not true hoperand⟩)

/-! ### Endings -/

/-- What the text of an outline may end in: constants end in themselves, comparisons in a bracket
and a parenthesis, and all others in the end of an operand and a parenthesis. -/
def endings : Outline → List (List Char)
  | .const value => [(const value).chars]
  | .compare _ => ["])".toList]
  | .group _ _ | .not _ => ["))".toList, "E)".toList]

theorem mem_endings (hword : word ∈ outline.endings) :
    word ∈ ["TRUE".toList, "FALSE".toList, "))".toList, "E)".toList, "])".toList] := by
  cases outline with
  | const value => cases value <;> simp_all [endings, chars_const]
  | _ => simp_all [endings] <;> tauto

theorem IsRow.endings_eq (hrow : IsRow outline opening unit operands) :
    outline.endings = ["))".toList, "E)".toList] := by
  cases hrow <;> rfl

theorem exists_last (hnormal : outline.IsNormal) :
    ∃ start, outline.chars = start ++ [')'] ∨ outline.chars = start ++ ['E'] := by
  rcases hnormal.shape with ⟨value, rfl⟩ | ⟨comparison, rfl⟩ | ⟨opening, unit, operands, hrow⟩
  · cases value with
    | true => exact ⟨"TRU".toList, .inr rfl⟩
    | false => exact ⟨"FALS".toList, .inr rfl⟩
  · refine ⟨'(' :: comparison.path.text.toList ++
      (comparison.literals.shown comparison.operator ++ [']']), .inl ?_⟩
    rw [chars_compare, Comparison.chars_eq]
    simp
  · exact ⟨_, .inl hrow.chars_eq⟩

theorem exists_ending (hnormal : outline.IsNormal) :
    ∃ word ∈ outline.endings, word <:+ outline.chars := by
  rcases hnormal.shape with ⟨value, rfl⟩ | ⟨comparison, rfl⟩ | ⟨opening, unit, operands, hrow⟩
  · exact ⟨_, List.mem_singleton_self _, List.suffix_rfl⟩
  · rw [chars_compare, Comparison.chars_eq, ← List.append_assoc]
    exact ⟨_, List.mem_singleton_self _, List.suffix_append _ _⟩
  · -- The parenthesis is behind the last operand.
    obtain ⟨rest, operand, rfl⟩ := (List.eq_nil_or_concat' operands).resolve_left hrow.ne_nil
    rw [hrow.endings_eq, hrow.chars_eq, row_map_concat]
    obtain ⟨start, hlast | hlast⟩ := exists_last (hrow.isNormal_of_mem operand List.mem_concat_self)
    · refine ⟨"))".toList, by simp, front opening (separator unit) (rest.map chars) ++ start, ?_⟩
      simp [hlast]
    · refine ⟨"E)".toList, by simp, front opening (separator unit) (rest.map chars) ++ start, ?_⟩
      simp [hlast]

/-- Texts that end one text end in one word. -/
theorem exists_common_ending (hnormal : outline.IsNormal) (hother : other.IsNormal)
    (hequal : before ++ outline.chars = after ++ other.chars) :
    ∃ word ∈ outline.endings, word ∈ other.endings := by
  obtain ⟨word, hword, front, hfront⟩ := exists_ending hnormal
  obtain ⟨last, hlast, start, hstart⟩ := exists_ending hother
  have hfree : SuffixFree
      ["TRUE".toList, "FALSE".toList, "))".toList, "E)".toList, "])".toList] := by decide
  rw [← hfront, ← hstart, ← List.append_assoc, ← List.append_assoc] at hequal
  obtain ⟨-, rfl⟩ := hfree.append_inj (mem_endings hword) (mem_endings hlast) hequal
  exact ⟨word, hword, hlast⟩

/-- No two forms have an ending in common. -/
theorem eq_const_of_ending {value : Bool} (hword : word ∈ (const value).endings)
    (hother : word ∈ other.endings) : other = .const value := by
  rw [endings, List.mem_singleton] at hword
  subst hword
  cases other with
  | const last => cases value <;> cases last <;> simp_all [endings, chars_const]
  | _ => cases value <;> simp_all [endings, chars_const]

theorem eq_compare_of_ending {comparison : Comparison} (hword : word ∈ (compare comparison).endings)
    (hother : word ∈ other.endings) : ∃ last, other = .compare last := by
  rw [endings, List.mem_singleton] at hword
  subst hword
  cases other with
  | const last => cases last <;> simp_all [endings, chars_const]
  | compare last => exact ⟨last, rfl⟩
  | _ => simp_all [endings]

theorem IsRow.of_ending (hrow : IsRow outline opening unit operands) (hother : other.IsNormal)
    (hword : word ∈ outline.endings) (hlast : word ∈ other.endings) :
    ∃ last otherUnit others, IsRow other last otherUnit others := by
  rcases hother.shape with ⟨value, rfl⟩ | ⟨comparison, rfl⟩ | hrow
  · cases eq_const_of_ending hlast hword
    cases hrow
  · obtain ⟨comparison, rfl⟩ := eq_compare_of_ending hlast hword
    cases hrow
  · exact hrow

/-! ### Reading -/

/-- Rows in parentheses, whose operands can be told apart. -/
theorem IsRow.eq_and_alike (hrow : IsRow outline opening unit operands)
    (hother : IsRow other last otherUnit others)
    (hapart : ∀ operand ∈ operands, ∀ other ∈ others,
      ToldApart words chars (Alike related) operand other)
    (hequal : before ++ outline.chars = after ++ other.chars) :
    before = after ∧ Alike related outline other := by
  have hseparator (unit : Bool) : separator unit ∈ [separator true, separator false] := by
    cases unit <;> simp
  rw [hrow.chars_eq, hother.chars_eq, ← List.append_assoc, ← List.append_assoc] at hequal
  obtain ⟨hsame, rfl, hpairs, hseparators⟩ := row_inj suffixFree_words hrow.mem_openings
    hother.mem_openings (hseparator unit) (hseparator otherUnit) hrow.ne_nil hother.ne_nil hapart
    (List.append_cancel_right hequal)
  refine ⟨hsame, hrow.alike hother hpairs fun hlength => ?_⟩
  have hunits := hseparators hlength
  revert hunits
  cases unit <;> cases otherUnit <;> decide

def ComparisonsToldApart (related : Comparison → Comparison → Prop) (outline other : Outline) :
    Prop :=
  ∀ comparison ∈ outline.comparisons, ∀ otherComparison ∈ other.comparisons,
    ToldApart words Comparison.chars related comparison otherComparison

/-- A text that ends like a row in parentheses is such a row, of operands that are normal too. -/
theorem IsRow.toldApart (hrow : IsRow outline opening unit operands) (hother : other.IsNormal)
    (ih : ∀ operand ∈ operands, ∀ other : Outline, other.IsNormal →
      ComparisonsToldApart related operand other →
        ToldApart words chars (Alike related) operand other)
    (hcomparisons : ComparisonsToldApart related outline other) :
    ToldApart words chars (Alike related) outline other := by
  intro before after _ _ hequal
  obtain ⟨word, hword, hlast⟩ := exists_common_ending hrow.isNormal hother hequal
  obtain ⟨last, otherUnit, others, hotherRow⟩ := hrow.of_ending hother hword hlast
  refine hrow.eq_and_alike hotherRow (fun operand hmem other hmemOther => ?_) hequal
  apply ih operand hmem other (hotherRow.isNormal_of_mem other hmemOther)
  intro comparison hcomparison otherComparison hotherComparison
  exact hcomparisons comparison (hrow.comparisons_subset hmem hcomparison) otherComparison
    (hotherRow.comparisons_subset hmemOther hotherComparison)

/-- Outlines are read from the end. The text of a normal outline ends another text in one way
only, if this is so of its comparisons: groups keep their operands and their connective. -/
theorem toldApart (hnormal : outline.IsNormal) (hother : other.IsNormal)
    (hcomparisons : ComparisonsToldApart related outline other) :
    ToldApart words chars (Alike related) outline other := by
  -- On the first outline: its ending tells what the second one is, and their operands are shorter.
  induction hnormal generalizing other with
  | const value =>
      intro before after _ _ hequal
      obtain ⟨word, hword, hlast⟩ := exists_common_ending (.const value) hother hequal
      obtain rfl := eq_const_of_ending hword hlast
      exact ⟨List.append_cancel_right hequal, .const value⟩
  | compare comparison =>
      intro before after hbefore hafter hequal
      obtain ⟨word, hword, hlast⟩ := exists_common_ending (.compare comparison) hother hequal
      obtain ⟨last, rfl⟩ := eq_compare_of_ending hword hlast
      obtain ⟨hsame, hrelated⟩ := hcomparisons comparison (List.mem_singleton_self _) last
        (List.mem_singleton_self _) before after hbefore hafter hequal
      exact ⟨hsame, .compare hrelated⟩
  | group hlength hoperands ih =>
      exact (IsRow.group hlength hoperands).toldApart hother
        (fun operand hmem _ => ih operand hmem) hcomparisons
  | not hoperand ih =>
      exact (IsRow.not true hoperand).toldApart hother
        (List.forall_mem_singleton.mpr fun _ => ih) hcomparisons

end RecordRules.Outline
