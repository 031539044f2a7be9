/-!
# Ranges of code points

A set of characters is a list of ranges, each given by its first and its last code point, in
increasing order. The order lets a search stop early, and `inRanges_iff` says that nothing is lost
by that.
-/

namespace RecordRules.Text

/-- No range is empty, none meets the one before it, and none begins before `start`. -/
def increasingFrom (start : Nat) : List (Nat × Nat) → Bool
  | [] => true
  | (first, last) :: ranges =>
    start ≤ first && first ≤ last && increasingFrom (last + 1) ranges

/-- The search stops at the first range that begins after the code point. -/
def inRanges (code : Nat) : List (Nat × Nat) → Bool
  | [] => false
  | (first, last) :: ranges => first ≤ code && (code ≤ last || inRanges code ranges)

theorem le_first_of_increasingFrom {start : Nat} {ranges : List (Nat × Nat)}
    (hincreasing : increasingFrom start ranges = true) :
    ∀ range ∈ ranges, start ≤ range.1 := by
  induction ranges generalizing start with
  | nil => simp
  | cons range ranges ih =>
    simp only [increasingFrom, Bool.and_eq_true, decide_eq_true_eq] at hincreasing
    obtain ⟨⟨hstart, hlast⟩, hrest⟩ := hincreasing
    intro other hother
    rcases List.mem_cons.1 hother with rfl | hother
    · exact hstart
    · have := ih hrest other hother
      omega

theorem inRanges_iff {start code : Nat} {ranges : List (Nat × Nat)}
    (hincreasing : increasingFrom start ranges = true) :
    inRanges code ranges = true ↔ ∃ range ∈ ranges, range.1 ≤ code ∧ code ≤ range.2 := by
  induction ranges generalizing start with
  | nil => simp [inRanges]
  | cons range ranges ih =>
    simp only [increasingFrom, Bool.and_eq_true, decide_eq_true_eq] at hincreasing
    obtain ⟨⟨_, hlast⟩, hrest⟩ := hincreasing
    simp only [inRanges, Bool.and_eq_true, Bool.or_eq_true, decide_eq_true_eq, ih hrest,
      List.mem_cons, exists_eq_or_imp]
    constructor
    · rintro ⟨hfirst, hin | hin⟩
      · exact .inl ⟨hfirst, hin⟩
      · exact .inr hin
    · rintro (⟨hfirst, hin⟩ | ⟨other, hother, hfirst, hin⟩)
      · exact ⟨hfirst, .inl hin⟩
      · have := le_first_of_increasingFrom hrest other hother
        exact ⟨by omega, .inr ⟨other, hother, hfirst, hin⟩⟩

end RecordRules.Text
