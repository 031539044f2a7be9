import RecordRules.Rule.Operator
import RecordRules.Rule.Tag
import RecordRules.Value.Kind

/-!
# Things known by name

A tag, an operator or a kind is found under every spelling of its own name and under no other text:
the names of two of them stay apart when all their letters are small. A text with a character beyond
ASCII is no spelling of any of these names.
-/

namespace RecordRules

namespace Text

theorem toList_toLower (text : String) : text.toLower.toList = fold text := String.toList_map

/-- To differ in case only is to be one text in small letters. -/
theorem sameName_iff {left right : String} :
    SameName left right ↔ left.toLower = right.toLower := by
  rw [SameName, ← toList_toLower, ← toList_toLower, String.toList_inj]

/-- Of things with names of their own, a search finds the one whose name it is given. -/
theorem find?_sameName_iff {α : Type} {name : α → String} {all : List α}
    (hall : ∀ item, item ∈ all)
    (hnames : ∀ one other, SameName (name one) (name other) → one = other) {text : String}
    {item : α} :
    (all.find? fun candidate => SameName (name candidate) text) = some item ↔
      SameName (name item) text := by
  constructor
  · intro hfound
    simpa using List.find?_some hfound
  · intro hitem
    cases hfound : all.find? fun candidate => SameName (name candidate) text with
    | none =>
        have hmissed := List.find?_eq_none.mp hfound item (hall item)
        exact absurd (decide_eq_true hitem) hmissed
    | some other =>
        have hother : SameName (name other) text := by simpa using List.find?_some hfound
        rw [hnames other item (hother.trans hitem.symm)]

/-- What is found does not depend on the spelling. -/
theorem find?_sameName_congr {α : Type} {name : α → String} {all : List α} {text other : String}
    (hsame : SameName text other) :
    (all.find? fun candidate => SameName (name candidate) other) =
      all.find? fun candidate => SameName (name candidate) text := by
  have hiff (candidate : α) : SameName (name candidate) other ↔ SameName (name candidate) text :=
    ⟨fun hother => hother.trans hsame.symm, fun htext => htext.trans hsame⟩
  simp only [hiff]

def BeyondAscii (text : String) : Prop := ∃ char ∈ text.toList, 127 < char.toNat

/-- Characters beyond ASCII have no other case here. -/
theorem toLower_eq_self {char : Char} (hchar : 127 < char.toNat) : char.toLower = char := by
  have hcode : char.toNat = char.val.toNat := rfl
  have hlast : 'Z'.val.toNat = 90 := rfl
  refine dif_neg fun hcapital => ?_
  simp only [ge_iff_le, UInt32.le_iff_toNat_le] at hcapital
  omega

theorem not_sameName_of_beyondAscii {name text : String}
    (hname : (fold name).all (fun char => char.toNat ≤ 127) = true) (htext : BeyondAscii text) :
    ¬SameName name text := by
  intro hsame
  obtain ⟨char, hmem, hchar⟩ := htext
  have hfold : char ∈ fold name := by
    rw [hsame, ← toLower_eq_self hchar]
    exact List.mem_map_of_mem hmem
  have hbound := of_decide_eq_true (List.all_eq_true.mp hname char hfold)
  exact Nat.not_lt_of_ge hbound hchar

end Text

open Text

namespace Tag

theorem eq_of_sameName (one other : Tag) (hsame : SameName one.name other.name) : one = other := by
  revert hsame
  cases one <;> cases other <;> decide

theorem ofName?_eq_some_iff {text : String} {tag : Tag} :
    ofName? text = some tag ↔ SameName tag.name text := by
  apply find?_sameName_iff _ eq_of_sameName
  intro tag
  cases tag <;> simp [every]

theorem ofName?_eq_none_iff {text : String} :
    ofName? text = none ↔ ∀ tag : Tag, ¬SameName tag.name text := by
  simp only [Option.eq_none_iff_forall_ne_some, ne_eq, ofName?_eq_some_iff]

theorem ofName?_congr {text other : String} (hsame : SameName text other) :
    ofName? other = ofName? text := find?_sameName_congr hsame

theorem ofName?_of_beyondAscii {text : String} (htext : BeyondAscii text) :
    ofName? text = none := by
  rw [ofName?_eq_none_iff]
  intro tag
  apply not_sameName_of_beyondAscii _ htext
  cases tag <;> decide

@[simp]
theorem ofName?_name (tag : Tag) : ofName? tag.name = some tag :=
  ofName?_eq_some_iff.mpr (.refl _)

theorem toLower_name (tag : Tag) : tag.name.toLower = tag.name := by
  rw [← String.toList_inj, toList_toLower]
  cases tag <;> decide

end Tag

namespace Operator

theorem eq_of_sameName (one other : Operator) (hsame : SameName one.name other.name) :
    one = other := by
  revert hsame
  cases one <;> cases other <;> decide

theorem ofName?_eq_some_iff {text : String} {operator : Operator} :
    ofName? text = some operator ↔ SameName operator.name text := by
  apply find?_sameName_iff _ eq_of_sameName
  intro operator
  cases operator <;> simp [all]

theorem ofName?_eq_none_iff {text : String} :
    ofName? text = none ↔ ∀ operator : Operator, ¬SameName operator.name text := by
  simp only [Option.eq_none_iff_forall_ne_some, ne_eq, ofName?_eq_some_iff]

theorem ofName?_congr {text other : String} (hsame : SameName text other) :
    ofName? other = ofName? text := find?_sameName_congr hsame

theorem ofName?_of_beyondAscii {text : String} (htext : BeyondAscii text) :
    ofName? text = none := by
  rw [ofName?_eq_none_iff]
  intro operator
  apply not_sameName_of_beyondAscii _ htext
  cases operator <;> decide

@[simp]
theorem ofName?_name (operator : Operator) : ofName? operator.name = some operator :=
  ofName?_eq_some_iff.mpr (.refl _)

end Operator

namespace Kind

theorem eq_of_sameName (one other : Kind) (hsame : SameName one.name other.name) : one = other := by
  revert hsame
  cases one <;> cases other <;> decide

theorem ofName?_eq_some_iff {text : String} {kind : Kind} :
    ofName? text = some kind ↔ SameName kind.name text := by
  apply find?_sameName_iff _ eq_of_sameName
  intro kind
  cases kind <;> simp [all]

theorem ofName?_eq_none_iff {text : String} :
    ofName? text = none ↔ ∀ kind : Kind, ¬SameName kind.name text := by
  simp only [Option.eq_none_iff_forall_ne_some, ne_eq, ofName?_eq_some_iff]

theorem ofName?_congr {text other : String} (hsame : SameName text other) :
    ofName? other = ofName? text := find?_sameName_congr hsame

theorem ofName?_of_beyondAscii {text : String} (htext : BeyondAscii text) :
    ofName? text = none := by
  rw [ofName?_eq_none_iff]
  intro kind
  apply not_sameName_of_beyondAscii _ htext
  cases kind <;> decide

@[simp]
theorem ofName?_name (kind : Kind) : ofName? kind.name = some kind :=
  ofName?_eq_some_iff.mpr (.refl _)

end Kind

end RecordRules
