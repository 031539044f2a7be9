import RecordRules.Condition.Basic
import RecordRules.Json.Basic
import Mathlib.Data.List.Forall2

/-!
# Induction on trees

The operands of a group stand in a list, so what is proved of every rule, condition or JSON value is
proved of a group from each of its operands.
-/

namespace RecordRules

@[elab_as_elim, induction_eliminator]
theorem Rule.induction {motive : Rule → Prop}
    (all : ∀ rules, (∀ rule ∈ rules, motive rule) → motive (.all rules))
    (any : ∀ rules, (∀ rule ∈ rules, motive rule) → motive (.any rules))
    (not : ∀ rule, motive rule → motive (.not rule))
    (compare : ∀ comparison, motive (.compare comparison)) : ∀ rule, motive rule
  | .all rules => all rules fun rule _ => Rule.induction all any not compare rule
  | .any rules => any rules fun rule _ => Rule.induction all any not compare rule
  | .not rule => not rule (Rule.induction all any not compare rule)
  | .compare comparison => compare comparison

@[elab_as_elim, induction_eliminator]
theorem Condition.induction {α : Type} {motive : Condition α → Prop}
    (const : ∀ value, motive (.const value))
    (compare : ∀ comparison check, motive (.compare comparison check))
    (all : ∀ conditions, (∀ condition ∈ conditions, motive condition) → motive (.all conditions))
    (any : ∀ conditions, (∀ condition ∈ conditions, motive condition) → motive (.any conditions))
    (not : ∀ condition, motive condition → motive (.not condition)) : ∀ condition, motive condition
  | .const value => const value
  | .compare comparison check => compare comparison check
  | .all conditions =>
    all conditions fun condition _ => Condition.induction const compare all any not condition
  | .any conditions =>
    any conditions fun condition _ => Condition.induction const compare all any not condition
  | .not condition => not condition (Condition.induction const compare all any not condition)

@[elab_as_elim, induction_eliminator]
theorem Json.induction {motive : Json → Prop} (null : motive .null)
    (bool : ∀ value, motive (.bool value)) (number : ∀ numeral, motive (.number numeral))
    (string : ∀ text, motive (.string text))
    (array : ∀ elements, (∀ element ∈ elements, motive element) → motive (.array elements))
    (object : ∀ members, (∀ member ∈ members, motive member.2) → motive (.object members)) :
    ∀ value, motive value
  | .null => null
  | .bool value => bool value
  | .number numeral => number numeral
  | .string text => string text
  | .array elements =>
    array elements fun element _ => Json.induction null bool number string array object element
  | .object members =>
    object members fun member hmember =>
      have hsize : sizeOf member.2 < 1 + sizeOf members := by
        have hmemberSize := List.sizeOf_lt_of_mem hmember
        rw [Prod.mk.sizeOf_spec member.1 member.2] at hmemberSize
        omega
      Json.induction null bool number string array object member.2

/-! ### Operands one by one -/

variable {α β γ : Type}

/-- What follows for each operand on the left follows for all pairs of operands. -/
theorem forall₂_imp_of_mem {related follows : α → β → Prop} {items : List α} {others : List β}
    (hpairs : List.Forall₂ related items others)
    (himp : ∀ item ∈ items, ∀ other, related item other → follows item other) :
    List.Forall₂ follows items others :=
  ((List.forall₂_and_left items others).mpr ⟨himp, hpairs⟩).imp
    fun _ other hpair => hpair.1 other hpair.2

theorem forall₂_imp_of_mem_right {related follows : α → β → Prop} {items : List α}
    {others : List β} (hpairs : List.Forall₂ related items others)
    (himp : ∀ other ∈ others, ∀ item, related item other → follows item other) :
    List.Forall₂ follows items others :=
  (forall₂_imp_of_mem hpairs.flip himp).flip

theorem forall_mem_right_of_forall₂ {related : α → β → Prop} {holds : β → Prop} {items : List α}
    {others : List β} (hpairs : List.Forall₂ related items others)
    (himp : ∀ item other, related item other → holds other) : ∀ other ∈ others, holds other :=
  ((List.forall₂_and_left others items).mp
    (hpairs.flip.imp fun other item hpair => ⟨himp item other hpair, hpair⟩)).1

/-- A partner for each item is a list of partners. -/
theorem exists_forall₂_iff {related : α → β → Prop} {items : List α} :
    (∃ others, List.Forall₂ related items others) ↔
      ∀ item ∈ items, ∃ other, related item other := by
  constructor
  · rintro ⟨others, hpairs⟩
    exact forall_mem_right_of_forall₂ hpairs.flip fun other item hpair => ⟨other, hpair⟩
  · intro hitems
    induction items with
    | nil => exact ⟨[], .nil⟩
    | cons item rest ih =>
        obtain ⟨hitem, hrest⟩ := List.forall_mem_cons.mp hitems
        obtain ⟨other, hpair⟩ := hitem
        obtain ⟨others, hpairs⟩ := ih hrest
        exact ⟨other :: others, .cons hpair hpairs⟩

theorem map_eq_map_of_forall₂ {left : α → γ} {right : β → γ} {items : List α} {others : List β}
    (hequal : List.Forall₂ (fun item other => left item = right other) items others) :
    items.map left = others.map right := by
  rw [← List.forall₂_eq_eq_eq, List.forall₂_map_left_iff, List.forall₂_map_right_iff]
  exact hequal

theorem all_eq_all_of_forall₂ {left : α → Bool} {right : β → Bool} {items : List α}
    {others : List β}
    (hequal : List.Forall₂ (fun item other => left item = right other) items others) :
    items.all left = others.all right := by
  have hmap := map_eq_map_of_forall₂ hequal
  rw [← Function.id_comp left, ← Function.id_comp right, ← List.all_map, ← List.all_map, hmap]

theorem any_eq_any_of_forall₂ {left : α → Bool} {right : β → Bool} {items : List α}
    {others : List β}
    (hequal : List.Forall₂ (fun item other => left item = right other) items others) :
    items.any left = others.any right := by
  have hmap := map_eq_map_of_forall₂ hequal
  rw [← Function.id_comp left, ← Function.id_comp right, ← List.any_map, ← List.any_map, hmap]

end RecordRules
