/-!
# Paths

A path names a field by the fields that lead to it, with points between them. Two points in a row
stand around an empty name, so every text is a path.
-/

namespace RecordRules

structure Path where
  text : String
  deriving DecidableEq

namespace Path

def splitAtPoints : List Char → List (List Char)
  | [] => [[]]
  | char :: rest =>
    if char = '.' then [] :: splitAtPoints rest
    else
      match splitAtPoints rest with
      | [] => [[char]]
      | segment :: others => (char :: segment) :: others

def segments (path : Path) : List String := (splitAtPoints path.text.toList).map String.ofList

def ofSegments (segments : List String) : Path := ⟨String.intercalate "." segments⟩

theorem splitAtPoints_ne_nil (chars : List Char) : splitAtPoints chars ≠ [] := by
  cases chars with
  | nil => simp [splitAtPoints]
  | cons char rest =>
    simp only [splitAtPoints]
    split
    · simp
    · split <;> simp

theorem segments_ne_nil (path : Path) : path.segments ≠ [] := by
  simp [segments, splitAtPoints_ne_nil]

end Path

end RecordRules
