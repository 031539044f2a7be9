import RecordRules.Proofs.Induction
import RecordRules.Proofs.Rule.Depth
import RecordRules.Rule.Meaning
import Mathlib.Logic.Relation

/-!
# Rearranging rules

The operands of a group and the literals of a comparison with any of them may change places and may
be repeated, anywhere in a rule and any number of times. What a rule says depends on which operands
and literals there are and on nothing else. Main statements: `Rearranged.height_eq`,
`Rearranged.forall_comparisons_iff` and `Rearranged.holdsIn_eq`.
-/

namespace RecordRules

/-! ### Lists with the same items -/

/-- The same items, in any order and any number. -/
def SameItems {α : Type} (items others : List α) : Prop := ∀ item, item ∈ items ↔ item ∈ others

namespace SameItems

variable {α : Type} {items others : List α}

theorem of_perm (hperm : items.Perm others) : SameItems items others := fun _ => hperm.mem_iff

theorem insert {before rest : List α} {item : α} (hmem : item ∈ before ++ rest) :
    SameItems (before ++ rest) (before ++ item :: rest) := by
  intro other
  rw [List.mem_append, List.mem_append, List.mem_cons, or_left_comm, ← List.mem_append]
  exact ⟨.inr, fun hother => hother.elim (fun heq => heq ▸ hmem) id⟩

theorem map {β : Type} (hsame : SameItems items others) (convert : α → β) :
    SameItems (items.map convert) (others.map convert) := by
  intro item
  rw [List.mem_map, List.mem_map]
  exact exists_congr fun source => and_congr_left' (hsame source)

theorem forall_iff (hsame : SameItems items others) (holds : α → Prop) :
    (∀ item ∈ items, holds item) ↔ ∀ item ∈ others, holds item :=
  forall_congr' fun item => imp_congr_left (hsame item)

theorem all_eq (hsame : SameItems items others) (holds : α → Bool) :
    items.all holds = others.all holds := by
  rw [Bool.eq_iff_iff, List.all_eq_true, List.all_eq_true]
  exact hsame.forall_iff fun item => holds item = true

theorem any_eq (hsame : SameItems items others) (holds : α → Bool) :
    items.any holds = others.any holds := by
  rw [Bool.eq_iff_iff, List.any_eq_true, List.any_eq_true]
  exact exists_congr fun item => and_congr_left' (hsame item)

end SameItems

/-! ### Comparisons -/

namespace Comparison

/-- A comparison with any of some literals takes them in any order and any number. -/
inductive Rearranged : Comparison → Comparison → Prop where
  | contains (path : Path) {kind : Kind} {items others : List kind.Carrier}
      (hsame : SameItems items others) :
      Rearranged ⟨path, .contains, ⟨kind, items⟩⟩ ⟨path, .contains, ⟨kind, others⟩⟩

variable {Index : Type} {Carrier : Index → Type} {comparison other : Comparison}

theorem Rearranged.holdsIn_eq (hrearranged : comparison.Rearranged other)
    (schema : Schema Carrier) (root : Index) (record : Carrier root) :
    other.holdsIn schema root record = comparison.holdsIn schema root record := by
  obtain @⟨path, kind, items, others, hsame⟩ := hrearranged
  have hsatisfied : Operator.contains.isSatisfied ⟨kind, others⟩ =
      Operator.contains.isSatisfied ⟨kind, items⟩ := by
    funext value
    exact ((hsame.map kind.toValue).any_eq value.isMatch).symm
  rw [holdsIn, holdsIn, hsatisfied]

end Comparison

/-! ### Rules -/

namespace Rule

/-- One group or one comparison rearranged, somewhere in a rule. -/
inductive Rearrangement : Rule → Rule → Prop where
  | operandsOfAll {rules others : List Rule} (hsame : SameItems rules others) :
      Rearrangement (.all rules) (.all others)
  | operandsOfAny {rules others : List Rule} (hsame : SameItems rules others) :
      Rearrangement (.any rules) (.any others)
  | literals {comparison other : Comparison} (hliterals : comparison.Rearranged other) :
      Rearrangement (.compare comparison) (.compare other)
  | all (before rest : List Rule) {rule other : Rule} (hinner : Rearrangement rule other) :
      Rearrangement (.all (before ++ rule :: rest)) (.all (before ++ other :: rest))
  | any (before rest : List Rule) {rule other : Rule} (hinner : Rearrangement rule other) :
      Rearrangement (.any (before ++ rule :: rest)) (.any (before ++ other :: rest))
  | not {rule other : Rule} (hinner : Rearrangement rule other) :
      Rearrangement (.not rule) (.not other)

/-- Any number of rearrangements, one after another. -/
def Rearranged : Rule → Rule → Prop := Relation.ReflTransGen Rearrangement

variable {rule other : Rule}

/-! ### Height -/

theorem heights_eq_of_forall_iff {rules others : List Rule}
    (hiff : ∀ depth, (∀ rule ∈ rules, rule.height ≤ depth) ↔ ∀ rule ∈ others, rule.height ≤ depth) :
    heights rules = heights others := by
  apply Nat.le_antisymm
  · exact heights_le_iff.mpr ((hiff _).mpr (heights_le_iff.mp (Nat.le_refl _)))
  · exact heights_le_iff.mpr ((hiff _).mp (heights_le_iff.mp (Nat.le_refl _)))

theorem Rearrangement.height_eq (hstep : Rearrangement rule other) :
    other.height = rule.height := by
  -- A group is as high as before if this is true of the one operand that was rearranged.
  have hinside (before rest : List Rule) {rule other : Rule} (heq : other.height = rule.height) :
      heights (before ++ other :: rest) = heights (before ++ rule :: rest) := by
    apply heights_eq_of_forall_iff
    intro depth
    rw [List.forall_mem_append, List.forall_mem_append, List.forall_mem_cons,
      List.forall_mem_cons, heq]
  induction hstep with
  | operandsOfAll hsame =>
      rw [height, height, heights_eq_of_forall_iff fun depth => (hsame.forall_iff _).symm]
  | operandsOfAny hsame =>
      rw [height, height, heights_eq_of_forall_iff fun depth => (hsame.forall_iff _).symm]
  | literals => rfl
  | all before rest _ ih => rw [height, height, hinside before rest ih]
  | any before rest _ ih => rw [height, height, hinside before rest ih]
  | not _ ih => rw [height, height, ih]

theorem Rearranged.height_eq (hrearranged : rule.Rearranged other) :
    other.height = rule.height := by
  induction hrearranged with
  | refl => rfl
  | tail _ hstep ih => exact hstep.height_eq.trans ih

/-! ### Comparisons -/

section Comparisons

variable {holds : Comparison → Prop}
  (hliterals : ∀ comparison other : Comparison, comparison.Rearranged other →
    (holds comparison ↔ holds other))
include hliterals

theorem Rearrangement.forall_comparisons_iff (hstep : Rearrangement rule other) :
    (∀ comparison ∈ rule.comparisons, holds comparison) ↔
      ∀ comparison ∈ other.comparisons, holds comparison := by
  induction hstep with
  | operandsOfAll hsame =>
      rw [comparisons_all, comparisons_all, List.forall_mem_flatMap, List.forall_mem_flatMap]
      exact hsame.forall_iff _
  | operandsOfAny hsame =>
      rw [comparisons_any, comparisons_any, List.forall_mem_flatMap, List.forall_mem_flatMap]
      exact hsame.forall_iff _
  | literals hcomparison =>
      rw [comparisons, comparisons, List.forall_mem_singleton, List.forall_mem_singleton]
      exact hliterals _ _ hcomparison
  | all before rest _ ih =>
      simp only [comparisons_all, List.flatMap_append, List.flatMap_cons, List.forall_mem_append,
        ih]
  | any before rest _ ih =>
      simp only [comparisons_any, List.flatMap_append, List.flatMap_cons, List.forall_mem_append,
        ih]
  | not _ ih => exact ih

theorem Rearranged.forall_comparisons_iff (hrearranged : rule.Rearranged other) :
    (∀ comparison ∈ rule.comparisons, holds comparison) ↔
      ∀ comparison ∈ other.comparisons, holds comparison := by
  induction hrearranged with
  | refl => rfl
  | tail _ hstep ih => exact ih.trans (hstep.forall_comparisons_iff hliterals)

end Comparisons

/-! ### Truth -/

variable {Index : Type} {Carrier : Index → Type}

theorem Rearrangement.holdsIn_eq (hstep : Rearrangement rule other) (schema : Schema Carrier)
    (root : Index) (record : Carrier root) :
    other.holdsIn schema root record = rule.holdsIn schema root record := by
  unfold holdsIn
  induction hstep with
  | operandsOfAll hsame =>
      rw [holds, holds, allHold_eq, allHold_eq]
      exact (hsame.all_eq _).symm
  | operandsOfAny hsame =>
      rw [holds, holds, anyHolds_eq, anyHolds_eq]
      exact (hsame.any_eq _).symm
  | literals hcomparison => exact hcomparison.holdsIn_eq schema root record
  | all before rest _ ih => simp only [holds, allHold_eq, List.all_append, List.all_cons, ih]
  | any before rest _ ih => simp only [holds, anyHolds_eq, List.any_append, List.any_cons, ih]
  | not _ ih => rw [holds, holds, ih]

theorem Rearranged.holdsIn_eq (hrearranged : rule.Rearranged other) (schema : Schema Carrier)
    (root : Index) (record : Carrier root) :
    other.holdsIn schema root record = rule.holdsIn schema root record := by
  induction hrearranged with
  | refl => rfl
  | tail _ hstep ih => exact (hstep.holdsIn_eq schema root record).trans ih

end Rule

end RecordRules
