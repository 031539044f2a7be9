import RecordRules.Proofs.Except
import RecordRules.Error

/-!
# Limits of depth

A computation on a tree that is given a limit for its depth, and fails where the tree is too deep.
If raising the limit changes nothing but that failure, and the height of a result is what it takes
to obtain it, then the limit is kept exactly (`KeepsLimit.of_agreesUnless`). Counting down what is
left of the limit never passes zero (`CountsDown.eq_recursion`).
-/

namespace RecordRules

variable {α : Type}

/-- A computation that a limit for the depth decides only where the tree is deeper: no other outcome
depends on the limit, and a result of some height takes a limit of that height, no more and no
less. -/
structure KeepsLimit (run : (limit : Nat) → Except CompileError α) (height : α → Nat) : Prop where
  stable : ∀ limit, (∀ named, run limit ≠ .error (.tooDeep named)) →
    ∀ larger, limit ≤ larger → run larger = run limit
  exact : ∀ enough result, run enough = .ok result → ∀ limit,
    run limit = if height result ≤ limit then .ok result else .error (.tooDeep limit)

theorem KeepsLimit.of_agreesUnless {run : (limit : Nat) → Except CompileError α} {height : α → Nat}
    (hagrees : ∀ limit larger, limit ≤ larger →
      AgreesUnless (· = .tooDeep limit) (run limit) (run larger))
    (hheight : ∀ limit result, run limit = .ok result → height result ≤ limit)
    (hlimit : ∀ enough limit result, run enough = .ok result → height result ≤ limit →
      ∃ other, run limit = .ok other) : KeepsLimit run height := by
  refine ⟨?_, ?_⟩
  · intro limit hshallow larger hle
    obtain ⟨error, rfl, herror⟩ | hequal := hagrees limit larger hle
    · exact absurd herror (hshallow limit)
    · exact hequal
  · intro enough result henough limit
    have hok (hrun : run limit = .ok result) :
        run limit = if height result ≤ limit then .ok result else .error (.tooDeep limit) := by
      rw [hrun, if_pos (hheight limit result hrun)]
    rcases Nat.le_total enough limit with hle | hle
    · obtain ⟨error, -, herror⟩ | hequal := hagrees enough limit hle
      · rw [henough] at herror
        cases herror
      · exact hok (hequal.trans henough)
    · obtain ⟨error, rfl, herror⟩ | hequal := hagrees limit enough hle
      · -- A limit that is reached by the result would not be reported.
        have hdeep : ¬height result ≤ limit := by
          intro hfits
          obtain ⟨other, hother⟩ := hlimit enough limit result henough hfits
          rw [hother] at herror
          cases herror
        rw [if_neg hdeep, herror]
      · exact hok (hequal.symm.trans henough)

/-! ### Counting down -/

/-- A computation that counts an integer down, one by one, and stops at zero. What it would do below
zero is left open. -/
def CountsDown {β : Type} (stop : α → β) (step : (α → β) → α → β) (run : Int → α → β) : Prop :=
  ∀ left, 0 ≤ left → ∀ item,
    run left item = if left = 0 then stop item else step (run (left - 1)) item

namespace CountsDown

variable {β : Type} {stop : α → β} {step : (α → β) → α → β} {recursion : Nat → α → β}

/-- A recursion on what is left counts down, whatever stands below zero. -/
theorem of_recursion (hzero : recursion 0 = stop)
    (hsucc : ∀ left, recursion (left + 1) = step (recursion left)) (below : α → β) :
    CountsDown stop step fun left => if left < 0 then below else recursion left.toNat := by
  intro left hnonneg item
  obtain ⟨left, rfl⟩ := Int.eq_ofNat_of_zero_le hnonneg
  cases left with
  | zero => exact congrFun hzero item
  | succ left =>
      have hleft : ((left + 1 : Nat) : Int) - 1 = left := by omega
      dsimp only
      rw [hleft, if_neg (by omega), if_neg (by omega), if_neg (by omega)]
      exact congrFun (hsucc left) item

/-- Zero is never passed: what counts down is the recursion on what is left. -/
theorem eq_recursion {run : Int → α → β} (hrun : CountsDown stop step run)
    (hzero : recursion 0 = stop) (hsucc : ∀ left, recursion (left + 1) = step (recursion left))
    (left : Nat) : run left = recursion left := by
  funext item
  induction left generalizing item with
  | zero => exact (hrun 0 (Int.le_refl 0) item).trans (congrFun hzero item).symm
  | succ left ih =>
      have hleft : ((left + 1 : Nat) : Int) - 1 = left := by omega
      rw [hrun _ (Int.natCast_nonneg _), if_neg (by omega), hleft, hsucc]
      exact congrArg (step · item) (funext ih)

end CountsDown

end RecordRules
