import RecordRules.Proofs.Rule.Outline
import RecordRules.Proofs.Text.Ending
import RecordRules.Proofs.Value.Shown

/-!
# Comparisons as they are shown

A comparison is shown as its path, its operator and its literals in brackets, and it is read from
the end: the literals one by one, then the operator, then the path. Nothing is escaped, so a
string that holds a quotation mark where another literal could begin, or a path that holds a
parenthesis where another condition could begin, is not told from several of them. Main statement:
`Comparison.toldApart`.
-/

namespace RecordRules

/-! ### Literals -/

/-- What stands between a path and the literals. -/
def Operator.opening (operator : Operator) : List Char :=
  ' ' :: operator.name.toList ++ [' ', '[']

theorem Operator.getLast?_opening (operator : Operator) : operator.opening.getLast? = some '[' := by
  cases operator <;> decide

theorem Operator.opening_inj {operator other : Operator}
    (hopening : operator.opening = other.opening) : operator = other := by
  revert hopening
  cases operator <;> cases other <;> decide

namespace Literals

open Text

def openings : List (List Char) := Operator.all.map Operator.opening

theorem opening_mem_openings (operator : Operator) : operator.opening ∈ openings := by
  cases operator <;> simp [openings, Operator.all]

/-- What stands between two literals. The quotes of strings are on both sides of it. -/
def separator : List Char := [',', ' ']

/-- What stands between two literals that are strings, with the quote that closes the first. -/
def quotedSeparator : List Char := ['"', ',', ' ']

/-- Strings without a quotation mark where another literal could begin. -/
def QuotedOnce (literals : Literals) : Prop :=
  ∀ text, .string text ∈ literals.values →
    MarkedOnce (openings ++ [quotedSeparator]) '"' text.toList

theorem quotedOnce_iff {literals : Literals} :
    literals.QuotedOnce ↔ ∀ value ∈ literals.values, value.kind = .string →
      MarkedOnce (openings ++ [quotedSeparator]) '"' value.text.toList := by
  constructor
  · intro honce value hvalue hkind
    cases value with
    | string text => exact honce text hvalue
    | _ => cases hkind
  · intro honce text htext
    exact honce (.string text) htext rfl

instance (literals : Literals) : Decidable literals.QuotedOnce :=
  decidable_of_iff _ quotedOnce_iff.symm

/-- An operator with its literals, except for the bracket at the end. -/
def shown (operator : Operator) (literals : Literals) : List Char :=
  row operator.opening separator (literals.values.map fun value => value.display.toList)

variable {literals others : Literals} {operator other : Operator} {before after : List Char}

theorem shown_of_empty (hnone : literals.values = []) (operator : Operator) :
    shown operator literals = operator.opening := by
  simp [shown, hnone, row]

theorem getLast?_shown (hvalues : literals.values ≠ []) (operator : Operator) :
    ∃ value ∈ literals.values,
      (shown operator literals).getLast? = value.display.toList.getLast? := by
  obtain ⟨values, last, hlast⟩ := (List.eq_nil_or_concat' literals.values).resolve_left hvalues
  have hdisplay : last.display.toList ≠ [] := by simpa using last.display_ne_empty
  refine ⟨last, hlast ▸ List.mem_concat_self, ?_⟩
  rw [shown, hlast, row_map_concat, List.getLast?_append_of_ne_nil _ hdisplay]

/-! The last character shows whether there are literals, and whether they are strings. -/

theorem getLast?_shown_eq_bracket_iff :
    (shown operator literals).getLast? = some '[' ↔ literals.values = [] := by
  constructor
  · intro hlast
    by_contra hvalues
    obtain ⟨value, -, hvalue⟩ := getLast?_shown hvalues operator
    exact value.getLast?_display_ne_bracket (hvalue ▸ hlast)
  · intro hnone
    rw [shown_of_empty hnone, operator.getLast?_opening]

theorem getLast?_shown_eq_quote_iff (hvalues : literals.values ≠ []) :
    (shown operator literals).getLast? = some '"' ↔ literals.kind = .string := by
  obtain ⟨value, hmem, hvalue⟩ := getLast?_shown hvalues operator
  rw [hvalue, Value.getLast?_display_eq_quote_iff, kind_of_mem hmem]

theorem shown_ne_nil (operator : Operator) (literals : Literals) :
    shown operator literals ≠ [] := by
  simp [shown, row, Operator.opening]

/-- Literals that are no strings have no blanks and no brackets. -/
theorem shown_inj_of_plain (hkind : literals.kind ≠ .string) (hother : others.kind ≠ .string)
    (hvalues : literals.values ≠ []) (hothers : others.values ≠ [])
    (hequal : before ++ shown operator literals = after ++ shown other others) :
    before = after ∧ operator = other ∧
      literals.values.map Value.display = others.values.map Value.display := by
  have hplain {value : Value} (hkind : value.kind ≠ .string) :
      Plain (openings ++ [separator]) value.display.toList := by
    have hends : ∀ word ∈ openings ++ [separator],
        word.getLast? = some ' ' ∨ word.getLast? = some '[' := by decide
    intro word hword
    rcases hends word hword with hlast | hlast
    · exact ⟨' ', Value.notMem_display hkind (.inl rfl), hlast⟩
    · exact ⟨'[', Value.notMem_display hkind (.inr (.inl rfl)), hlast⟩
  have hapart : ∀ value ∈ literals.values, ∀ other ∈ others.values,
      ToldApart (openings ++ [separator]) (fun value => value.display.toList)
        (fun value other => value.display = other.display) value other := by
    intro value hvalue other hmem before after hbefore hafter hequal
    have hvalue : value.kind ≠ .string := kind_of_mem hvalue ▸ hkind
    have hmem : other.kind ≠ .string := kind_of_mem hmem ▸ hother
    have hsame := plain_inj hbefore hafter (hplain hvalue) (hplain hmem) hequal
    exact ⟨hsame.1, String.toList_inj.mp hsame.2⟩
  have hfree : SuffixFree (openings ++ [separator]) := by decide
  obtain ⟨hbefore, hopenings, hpairs, -⟩ := row_inj hfree (opening_mem_openings operator)
    (opening_mem_openings other) (List.mem_singleton_self _) (List.mem_singleton_self _) hvalues
    hothers hapart hequal
  exact ⟨hbefore, Operator.opening_inj hopenings, map_eq_map_of_forall₂ hpairs⟩

/-- The strings of a list are read with the quotes before them. -/
theorem shown_of_string (hkind : literals.kind = .string) (hvalues : literals.values ≠ [])
    (operator : Operator) :
    shown operator literals =
      row operator.opening quotedSeparator
        (literals.values.map fun value => '"' :: value.text.toList) ++ ['"'] := by
  have hquoted : literals.values.map (fun value => value.display.toList) =
      (literals.values.map fun value => value.text.toList).map
        fun text => '"' :: text ++ ['"'] := by
    rw [List.map_map]
    apply List.map_congr_left
    intro value hvalue
    exact Value.display_of_string ((kind_of_mem hvalue).trans hkind)
  rw [shown, hquoted, row_quoted (by simpa using hvalues), List.map_map]
  rfl

theorem shown_inj_of_string (hkind : literals.kind = .string) (hother : others.kind = .string)
    (hvalues : literals.values ≠ []) (hothers : others.values ≠ [])
    (honce : literals.QuotedOnce) (hotherOnce : others.QuotedOnce)
    (hequal : before ++ shown operator literals = after ++ shown other others) :
    before = after ∧ operator = other ∧
      literals.values.map Value.display = others.values.map Value.display := by
  have hmark : ∀ word ∈ openings ++ [quotedSeparator], '"' ∉ word.tail := by decide
  have hapart : ∀ value ∈ literals.values, ∀ other ∈ others.values,
      ToldApart (openings ++ [quotedSeparator]) (fun value => '"' :: value.text.toList)
        (fun value other => value.display = other.display) value other := by
    intro value hvalue other hmem before after hbefore hafter hequal
    have hstring : value.kind = .string := (kind_of_mem hvalue).trans hkind
    have hotherString : other.kind = .string := (kind_of_mem hmem).trans hother
    have hsame := marked_inj hmark hbefore hafter
      (quotedOnce_iff.mp honce value hvalue hstring)
      (quotedOnce_iff.mp hotherOnce other hmem hotherString) hequal
    refine ⟨hsame.1, String.toList_inj.mp ?_⟩
    rw [Value.display_of_string hstring, Value.display_of_string hotherString, hsame.2]
  have hfree : SuffixFree (openings ++ [quotedSeparator]) := by decide
  rw [shown_of_string hkind hvalues, shown_of_string hother hothers, ← List.append_assoc,
    ← List.append_assoc] at hequal
  obtain ⟨hbefore, hopenings, hpairs, -⟩ := row_inj hfree (opening_mem_openings operator)
    (opening_mem_openings other) (List.mem_singleton_self _) (List.mem_singleton_self _) hvalues
    hothers hapart (List.append_cancel_right hequal)
  exact ⟨hbefore, Operator.opening_inj hopenings, map_eq_map_of_forall₂ hpairs⟩

/-- Literals are read from the end of a text, with the operator in front of them. -/
theorem shown_inj (honce : literals.QuotedOnce) (hotherOnce : others.QuotedOnce)
    (hequal : before ++ shown operator literals = after ++ shown other others) :
    before = after ∧ operator = other ∧
      literals.values.map Value.display = others.values.map Value.display := by
  -- The last character tells which literals are to be read, and they are so on both sides.
  have hlast := getLast?_eq_of_append_eq (shown_ne_nil operator literals)
    (shown_ne_nil other others) hequal
  have hempty : literals.values = [] ↔ others.values = [] := by
    rw [← getLast?_shown_eq_bracket_iff, hlast, getLast?_shown_eq_bracket_iff]
  by_cases hvalues : literals.values = []
  · have hothers := hempty.mp hvalues
    have hfree : SuffixFree openings := by decide
    rw [shown_of_empty hvalues, shown_of_empty hothers] at hequal
    obtain ⟨hbefore, hopenings⟩ := hfree.append_inj (opening_mem_openings operator)
      (opening_mem_openings other) hequal
    exact ⟨hbefore, Operator.opening_inj hopenings, by rw [hvalues, hothers]⟩
  · have hothers : others.values ≠ [] := mt hempty.mpr hvalues
    have hstring : literals.kind = .string ↔ others.kind = .string := by
      rw [← getLast?_shown_eq_quote_iff hvalues, hlast, getLast?_shown_eq_quote_iff hothers]
    by_cases hkind : literals.kind = .string
    · exact shown_inj_of_string hkind (hstring.mp hkind) hvalues hothers honce hotherOnce hequal
    · exact shown_inj_of_plain hkind (mt hstring.mpr hkind) hvalues hothers hequal

end Literals

/-! ### Comparisons -/

namespace Outline

open Text

/-- What begins a group and what begins a negation. -/
def openings : List (List Char) := ["(".toList, "(NOT ".toList]

def separator (unit : Bool) : List Char := (" " ++ word unit ++ " ").toList

/-- What stands in front of an operand. -/
def words : List (List Char) := openings ++ [separator true, separator false]

theorem suffixFree_words : SuffixFree words := by decide

end Outline

namespace Comparison

open Text

/-- A comparison with a parenthesis or a quotation mark in its path and its strings only where no
other condition and no other literal could begin. -/
structure ReadsOnce (comparison : Comparison) : Prop where
  path : MarkedOnce Outline.words '(' comparison.path.text.toList
  literals : comparison.literals.QuotedOnce

instance (comparison : Comparison) : Decidable comparison.ReadsOnce :=
  decidable_of_iff (MarkedOnce Outline.words '(' comparison.path.text.toList ∧
      comparison.literals.QuotedOnce)
    ⟨fun honce => ⟨honce.1, honce.2⟩, fun honce => ⟨honce.path, honce.literals⟩⟩

/-- What two comparisons with one label have in common. The kinds of literals are not shown. -/
def ShownAlike (comparison other : Comparison) : Prop :=
  comparison.path = other.path ∧ comparison.operator = other.operator ∧
    comparison.literals.values.map Value.display = other.literals.values.map Value.display

/-- The text of a comparison that stands by itself. -/
def chars (comparison : Comparison) : List Char := ("(" ++ comparison.label ++ ")").toList

theorem chars_eq (comparison : Comparison) :
    comparison.chars = '(' :: comparison.path.text.toList ++
      (comparison.literals.shown comparison.operator ++ [']', ')']) := by
  simp [chars, label, Literals.display, Literals.shown, Literals.separator, Operator.opening, row,
    String.toList_intercalate, Function.comp_def]

theorem toldApart {comparison other : Comparison} (honce : comparison.ReadsOnce)
    (hother : other.ReadsOnce) : ToldApart Outline.words chars ShownAlike comparison other := by
  intro before after hbefore hafter hequal
  rw [chars_eq, chars_eq, ← List.append_assoc, ← List.append_assoc, ← List.append_assoc,
    ← List.append_assoc] at hequal
  obtain ⟨hpaths, hoperator, hliterals⟩ := Literals.shown_inj honce.literals hother.literals
    (List.append_cancel_right hequal)
  -- What is left of the comparison is its path, behind the parenthesis that marks it.
  have hmark : ∀ word ∈ Outline.words, '(' ∉ word.tail := by decide
  obtain ⟨hsame, hpath⟩ := marked_inj hmark hbefore hafter honce.path hother.path hpaths
  exact ⟨hsame, congrArg Path.mk (String.toList_inj.mp hpath), hoperator, hliterals⟩

end Comparison

end RecordRules
