import Mathlib.Data.List.Forall2
import Mathlib.Data.List.Induction
import Mathlib.Data.List.Pairwise

/-!
# Texts that are read from their ends

Texts are taken apart from the right: the last item of a text is told from what stands in front of
it by the word before it, an opening or a separator. Main statement: rows of items that end two
texts are the same row if their items can be told apart one by one (`Text.row_inj`).
-/

namespace RecordRules.Text

variable {words openings separators : List (List Char)} {before after : List Char}

/-! ### Words -/

/-- Neither of two words ends in the other. -/
def Apart (word other : List Char) : Prop := ¬word <:+ other ∧ ¬other <:+ word

instance : Std.Symm Apart := ⟨fun _ _ happart => happart.symm⟩

instance (word other : List Char) : Decidable (Apart word other) :=
  inferInstanceAs (Decidable (¬word <:+ other ∧ ¬other <:+ word))

/-- Words of which none ends in another one. -/
def SuffixFree (words : List (List Char)) : Prop := words.Pairwise Apart

instance (words : List (List Char)) : Decidable (SuffixFree words) :=
  inferInstanceAs (Decidable (words.Pairwise Apart))

theorem suffix_or_suffix {word other : List Char} (hequal : before ++ word = after ++ other) :
    word <:+ other ∨ other <:+ word :=
  List.suffix_or_suffix_of_suffix (List.suffix_append before word) ⟨after, hequal.symm⟩

/-- The word at the end of a text is known from the text. -/
theorem SuffixFree.append_inj (hfree : SuffixFree words) {word other : List Char}
    (hword : word ∈ words) (hother : other ∈ words) (hequal : before ++ word = after ++ other) :
    before = after ∧ word = other := by
  have hsame : word = other := by
    by_contra hdifferent
    have happart := hfree.forall hword hother hdifferent
    exact (suffix_or_suffix hequal).elim happart.1 happart.2
  subst hsame
  exact ⟨List.append_cancel_right hequal, rfl⟩

theorem SuffixFree.append_ne (hfree : SuffixFree (openings ++ separators))
    {opening separator : List Char} (hopening : opening ∈ openings)
    (hseparator : separator ∈ separators) : before ++ opening ≠ after ++ separator := by
  intro hequal
  have happart := (List.pairwise_append.mp hfree).2.2 opening hopening separator hseparator
  exact (suffix_or_suffix hequal).elim happart.1 happart.2

theorem getLast?_eq_of_append_eq {item other : List Char} (hitem : item ≠ []) (hother : other ≠ [])
    (hequal : before ++ item = after ++ other) : item.getLast? = other.getLast? := by
  rw [← List.getLast?_append_of_ne_nil before hitem, hequal,
    List.getLast?_append_of_ne_nil after hother]

/-! ### Items -/

/-- An item can begin here: nothing has been written yet, or one of the words last. -/
def Opened (words : List (List Char)) (before : List Char) : Prop :=
  before = [] ∨ ∃ word ∈ words, word <:+ before

theorem opened_append {word : List Char} (hword : word ∈ words) (before : List Char) :
    Opened words (before ++ word) := .inr ⟨word, hword, List.suffix_append before word⟩

variable {α : Type} {same : α → α → Prop} {text : α → List Char}

/-- Two items that may end one text only in one place, and if they are the same. -/
def ToldApart (words : List (List Char)) (text : α → List Char) (same : α → α → Prop)
    (item other : α) : Prop :=
  ∀ before after, Opened words before → Opened words after →
    before ++ text item = after ++ text other → before = after ∧ same item other

/-- Items of which none can begin within another one. -/
theorem append_inj_of_remainder {good : List Char → Prop}
    (hremainder : ∀ before rest item, Opened words (before ++ rest) → good item →
      good (rest ++ item) → rest = [])
    (hbefore : Opened words before) (hafter : Opened words after) {item other : List Char}
    (hitem : good item) (hother : good other) (hequal : before ++ item = after ++ other) :
    before = after ∧ item = other := by
  rcases List.append_eq_append_iff.mp hequal with ⟨rest, rfl, rfl⟩ | ⟨rest, rfl, rfl⟩
  · obtain rfl := hremainder before rest other hafter hother hitem
    exact ⟨(List.append_nil before).symm, rfl⟩
  · obtain rfl := hremainder after rest item hbefore hitem hother
    exact ⟨List.append_nil after, rfl⟩

/-- Behind its mark, an item has no mark where another item could begin. -/
def MarkedOnce (words : List (List Char)) (mark : Char) (item : List Char) : Prop :=
  ∀ word ∈ words, ¬word ++ [mark] <:+: mark :: item

instance (words : List (List Char)) (mark : Char) (item : List Char) :
    Decidable (MarkedOnce words mark item) :=
  inferInstanceAs (Decidable (∀ word ∈ words, ¬word ++ [mark] <:+: mark :: item))

/-- A word that ends a text behind a mark is all behind the mark or begins with it. -/
theorem suffix_of_suffix_append {mark : Char} {word rest : List Char} (hmark : mark ∉ word.tail)
    (hword : word <:+ before ++ mark :: rest) : word <:+ mark :: rest := by
  rcases List.suffix_or_suffix_of_suffix hword (List.suffix_append before (mark :: rest)) with
    hshort | hlong
  · exact hshort
  · cases word with
    | nil => exact List.nil_suffix
    | cons char chars =>
        rcases List.suffix_cons_iff.mp hlong with hsame | hwithin
        · exact hsame ▸ List.suffix_rfl
        · exact absurd (hwithin.mem List.mem_cons_self) hmark

theorem marked_inj {mark : Char} (hmark : ∀ word ∈ words, mark ∉ word.tail)
    (hbefore : Opened words before) (hafter : Opened words after) {item other : List Char}
    (hitem : MarkedOnce words mark item) (hother : MarkedOnce words mark other)
    (hequal : before ++ mark :: item = after ++ mark :: other) : before = after ∧ item = other := by
  have hremainder (before rest item : List Char) (hopened : Opened words (before ++ rest))
      (hitem : ∃ chars, item = mark :: chars ∧ MarkedOnce words mark chars)
      (hlonger : ∃ chars, rest ++ item = mark :: chars ∧ MarkedOnce words mark chars) :
      rest = [] := by
    obtain ⟨chars, rfl, -⟩ := hitem
    obtain ⟨longer, hlonger, honce⟩ := hlonger
    cases rest with
    | nil => rfl
    | cons first rest =>
        obtain ⟨rfl, rfl⟩ := List.cons.inj hlonger
        rcases hopened with hnothing | ⟨word, hword, hends⟩
        · simp at hnothing
        · -- The mark of the shorter item is behind this word within the longer one.
          have hsuffix := suffix_of_suffix_append (hmark word hword) hends
          obtain ⟨start, hstart⟩ := hsuffix
          refine absurd ⟨start, chars, ?_⟩ (honce word hword)
          rw [← List.append_assoc, hstart]
          simp
  have hsame := append_inj_of_remainder hremainder hbefore hafter ⟨item, rfl, hitem⟩
    ⟨other, rfl, hother⟩ hequal
  exact ⟨hsame.1, List.tail_eq_of_cons_eq hsame.2⟩

/-- An item that has none of the characters in which the words end. -/
def Plain (words : List (List Char)) (item : List Char) : Prop :=
  ∀ word ∈ words, ∃ char ∉ item, word.getLast? = some char

theorem plain_inj (hbefore : Opened words before) (hafter : Opened words after)
    {item other : List Char} (hitem : Plain words item) (hother : Plain words other)
    (hequal : before ++ item = after ++ other) : before = after ∧ item = other := by
  refine append_inj_of_remainder ?_ hbefore hafter hitem hother hequal
  intro before rest item hopened _ hplain
  by_contra hrest
  rcases hopened with hnothing | ⟨word, hword, hends⟩
  · exact hrest (List.append_eq_nil_iff.mp hnothing).2
  · obtain ⟨char, hchar, hlast⟩ := hplain word hword
    obtain ⟨start, hstart⟩ := hends
    have hsame := getLast?_eq_of_append_eq (List.getLast?_isSome.mp (hlast ▸ rfl)) hrest hstart
    exact hchar (List.mem_append_left item (List.mem_of_getLast? (hsame ▸ hlast)))

/-! ### Rows -/

theorem intercalate_concat (separator : List Char) {items : List (List Char)} (hitems : items ≠ [])
    (item : List Char) :
    separator.intercalate (items ++ [item]) = separator.intercalate items ++ separator ++ item := by
  induction items with
  | nil => exact absurd rfl hitems
  | cons first rest ih =>
      cases rest with
      | nil => simp
      | cons second rest =>
          have hrest := ih (List.cons_ne_nil second rest)
          rw [List.cons_append] at hrest
          rw [List.cons_append, List.cons_append, List.intercalate_cons_cons, hrest,
            List.intercalate_cons_cons]
          simp

/-- An opening and a row of items, each of them separated from the one before it. -/
def row (opening separator : List Char) (items : List (List Char)) : List Char :=
  opening ++ separator.intercalate items

/-- What stands in front of one more item of a row. -/
def front (opening separator : List Char) : List (List Char) → List Char
  | [] => opening
  | items => row opening separator items ++ separator

theorem front_of_ne_nil {opening separator : List Char} {items : List α} (hitems : items ≠ []) :
    front opening separator (items.map text) =
      row opening separator (items.map text) ++ separator := by
  cases items with
  | nil => exact absurd rfl hitems
  | cons first rest => rfl

theorem row_map_concat (opening separator : List Char) (items : List α) (item : α) :
    row opening separator ((items ++ [item]).map text) =
      front opening separator (items.map text) ++ text item := by
  rw [List.map_append, List.map_singleton]
  cases items with
  | nil => simp [row, front]
  | cons first rest =>
      rw [row, List.map_cons, intercalate_concat separator (List.cons_ne_nil _ _)]
      simp [row, front]

theorem opened_front {opening separator : List Char} (hopening : opening ∈ openings)
    (hseparator : separator ∈ separators) (items : List (List Char)) (before : List Char) :
    Opened (openings ++ separators) (before ++ front opening separator items) := by
  cases items with
  | nil => exact opened_append (List.mem_append_left separators hopening) before
  | cons first rest =>
      rw [front, ← List.append_assoc]
      · exact opened_append (List.mem_append_right openings hseparator) _
      · nofun

/-- The quotes around items are put down to the separators and to the end of the row. -/
theorem row_quoted {opening separator : List Char} {quote : Char} {items : List (List Char)}
    (hitems : items ≠ []) :
    row opening separator (items.map fun item => quote :: item ++ [quote]) =
      row opening (quote :: separator) (items.map (quote :: ·)) ++ [quote] := by
  rw [row, row, List.append_assoc]
  congr 1
  induction items with
  | nil => exact absurd rfl hitems
  | cons first rest ih =>
      cases rest with
      | nil => simp
      | cons second rest =>
          have hrest := ih (List.cons_ne_nil second rest)
          rw [List.map_cons, List.map_cons] at hrest ⊢
          rw [List.map_cons, List.map_cons, List.intercalate_cons_cons, hrest,
            List.intercalate_cons_cons]
          simp

/-- Two texts end in rows. If the items of one can be told apart from those of the other, then the
rows have the same items and begin in one place, with one opening. The separators are the same if
there are any. -/
theorem row_inj (hfree : SuffixFree (openings ++ separators))
    {opening other separator word : List Char} (hopening : opening ∈ openings)
    (hother : other ∈ openings) (hseparator : separator ∈ separators) (hword : word ∈ separators)
    {items others : List α} (hitems : items ≠ []) (hothers : others ≠ [])
    (hapart : ∀ item ∈ items, ∀ other ∈ others,
      ToldApart (openings ++ separators) text same item other)
    (hequal : before ++ row opening separator (items.map text) =
      after ++ row other word (others.map text)) :
    before = after ∧ opening = other ∧ List.Forall₂ same items others ∧
      (2 ≤ items.length → separator = word) := by
  -- On the row, from its end: the last items are told apart, and then what stands in front of them
  -- ends in an opening on both sides or in a separator on both sides.
  induction items using List.reverseRecOn generalizing others with
  | nil => exact absurd rfl hitems
  | append_singleton items item ih =>
      obtain ⟨others, last, rfl⟩ := (List.eq_nil_or_concat' others).resolve_left hothers
      have hlasts := hapart item List.mem_concat_self last List.mem_concat_self
      rw [row_map_concat, row_map_concat, ← List.append_assoc, ← List.append_assoc] at hequal
      obtain ⟨hfronts, hlast⟩ := hlasts _ _ (opened_front hopening hseparator _ before)
        (opened_front hother hword _ after) hequal
      rcases eq_or_ne items [] with rfl | hitems <;> rcases eq_or_ne others [] with rfl | hothers
      · obtain ⟨hstart, hsame⟩ := hfree.append_inj (List.mem_append_left separators hopening)
          (List.mem_append_left separators hother) hfronts
        exact ⟨hstart, hsame, .cons hlast .nil, fun htwo => absurd htwo (Nat.not_succ_le_self 1)⟩
      · rw [front_of_ne_nil hothers, ← List.append_assoc] at hfronts
        exact absurd hfronts (hfree.append_ne hopening hword)
      · rw [front_of_ne_nil hitems, ← List.append_assoc] at hfronts
        exact absurd hfronts.symm (hfree.append_ne hother hseparator)
      · rw [front_of_ne_nil hitems, front_of_ne_nil hothers, ← List.append_assoc,
          ← List.append_assoc] at hfronts
        obtain ⟨hrows, hwords⟩ := hfree.append_inj (List.mem_append_right openings hseparator)
          (List.mem_append_right openings hword) hfronts
        have hrest : ∀ item ∈ items, ∀ other ∈ others,
            ToldApart (openings ++ separators) text same item other := by
          intro item hmem other hmemOther
          exact hapart item (List.mem_append_left _ hmem) other (List.mem_append_left _ hmemOther)
        obtain ⟨hstart, hsame, hpairs, -⟩ := ih hitems hothers hrest hrows
        exact ⟨hstart, hsame, List.rel_append hpairs (.cons hlast .nil), fun _ => hwords⟩

end RecordRules.Text
