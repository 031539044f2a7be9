import RecordRules.Text.CodeRange
import RecordRules.Text.Marks
import RecordRules.Text.Unassigned

/-!
# Characters that are not shown as they are

A debug text escapes every character that would not be seen by itself: controls, marks, blank
letters and code points without a character.
-/

namespace RecordRules.Text

/-- Control and format characters, the separators other than the space, and private use. -/
def controls : List (Nat × Nat) :=
  [
    (0x0000, 0x001f), (0x007f, 0x00a0), (0x00ad, 0x00ad), (0x0600, 0x0605), (0x061c, 0x061c),
    (0x06dd, 0x06dd), (0x070f, 0x070f), (0x0890, 0x0891), (0x08e2, 0x08e2), (0x1680, 0x1680),
    (0x180e, 0x180e), (0x2000, 0x200f), (0x2028, 0x202f), (0x205f, 0x2064), (0x2066, 0x206f),
    (0x3000, 0x3000), (0xe000, 0xf8ff), (0xfeff, 0xfeff), (0xfff9, 0xfffb), (0x110bd, 0x110bd),
    (0x110cd, 0x110cd), (0x13430, 0x1343f), (0x1bca0, 0x1bca3), (0x1d173, 0x1d17a),
    (0xe0001, 0xe0001), (0xe0020, 0xe007f), (0xf0000, 0xffffd), (0x100000, 0x10fffd)
  ]

/-- The letters that hold an empty place in a Hangul syllable. -/
def fillers : List (Nat × Nat) :=
  [
    (0x115f, 0x1160), (0x3164, 0x3164), (0xffa0, 0xffa0)
  ]

def isHidden (char : Char) : Bool :=
  [controls, marks, fillers, unassigned].any (inRanges char.toNat)

theorem increasingFrom_controls : increasingFrom 0 controls = true := by decide

theorem increasingFrom_marks : increasingFrom 0 marks = true := by decide +kernel

theorem increasingFrom_fillers : increasingFrom 0 fillers = true := by decide

theorem increasingFrom_unassigned : increasingFrom 0 unassigned = true := by decide +kernel

/-- The hidden characters are those of the four tables, whatever the order of the search. -/
theorem isHidden_iff {char : Char} :
    isHidden char = true ↔
      ∃ range ∈ controls ++ marks ++ fillers ++ unassigned,
        range.1 ≤ char.toNat ∧ char.toNat ≤ range.2 := by
  simp only [isHidden, List.any_cons, List.any_nil, Bool.or_false, Bool.or_eq_true,
    inRanges_iff increasingFrom_controls, inRanges_iff increasingFrom_marks,
    inRanges_iff increasingFrom_fillers, inRanges_iff increasingFrom_unassigned,
    List.mem_append, or_and_right, exists_or, or_assoc]

end RecordRules.Text
