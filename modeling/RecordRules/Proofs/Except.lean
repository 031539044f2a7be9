import Mathlib.Control.Monad.Basic
import Mathlib.Data.List.Forall2

/-!
# Computations that can fail

When a computation made of others succeeds, and with what. A list is read element by element, so it
is read whole exactly if every element is (`mapM_eq_ok_iff`), it fails with the first error of an
element (`failure?_mapM`), and two lists agree if their elements do (`Agree.mapM`, and
`AgreesUnless.mapM` where some errors are of no account).
-/

namespace RecordRules

variable {ε α β : Type}

@[simp]
theorem ok_bind (value : α) (next : α → Except ε β) :
    (Except.ok value >>= next) = next value := rfl

@[simp]
theorem error_bind (error : ε) (next : α → Except ε β) :
    (Except.error error >>= next) = .error error := rfl

theorem bind_eq_ok_iff {first : Except ε α} {next : α → Except ε β} {result : β} :
    (first >>= next) = .ok result ↔ ∃ value, first = .ok value ∧ next value = .ok result := by
  cases first <;> simp [bind, Except.bind]

theorem map_eq_ok_iff {convert : α → β} {outcome : Except ε α} {result : β} :
    convert <$> outcome = .ok result ↔ ∃ value, outcome = .ok value ∧ convert value = result := by
  cases outcome <;> simp [Functor.map, Except.map]

theorem map_eq_error_iff {convert : α → β} {outcome : Except ε α} {error : ε} :
    convert <$> outcome = .error error ↔ outcome = .error error := by
  cases outcome <;> simp [Functor.map, Except.map]

@[simp]
theorem mapError_eq_ok_iff {δ : Type} {convert : ε → δ} {outcome : Except ε α} {value : α} :
    outcome.mapError convert = .ok value ↔ outcome = .ok value := by
  cases outcome <;> simp [Except.mapError]

/-! Errors may be converted step by step. -/

theorem mapError_bind {δ : Type} (convert : ε → δ) (first : Except ε α) (next : α → Except ε β) :
    (first >>= next).mapError convert =
      first.mapError convert >>= fun value => (next value).mapError convert := by
  cases first <;> rfl

theorem mapError_map {δ : Type} (convert : ε → δ) (result : α → β) (outcome : Except ε α) :
    (result <$> outcome).mapError convert = result <$> outcome.mapError convert := by
  cases outcome <;> rfl

theorem mapError_mapM {δ : Type} (convert : ε → δ) (read : α → Except ε β) (items : List α) :
    (items.mapM read).mapError convert = items.mapM fun item => (read item).mapError convert := by
  induction items with
  | nil => rfl
  | cons item rest ih =>
      rw [List.mapM_cons, List.mapM_cons, mapError_bind, ← ih]
      cases read item with
      | error error => rfl
      | ok result => cases rest.mapM read <;> rfl

/-- A list is read whole exactly if every element is. -/
theorem mapM_eq_ok_iff {read : α → Except ε β} {items : List α} {results : List β} :
    items.mapM read = .ok results ↔
      List.Forall₂ (fun item result => read item = .ok result) items results := by
  induction items generalizing results with
  | nil => simp [pure, Except.pure, eq_comm]
  | cons item rest ih =>
      rw [List.mapM_cons, bind_eq_ok_iff]
      constructor
      · rintro ⟨result, hitem, hrest⟩
        obtain ⟨others, hothers, hresults⟩ := bind_eq_ok_iff.mp hrest
        rw [← Except.ok.inj hresults]
        exact .cons hitem (ih.mp hothers)
      · rintro (_ | ⟨hitem, hothers⟩)
        exact ⟨_, hitem, bind_eq_ok_iff.mpr ⟨_, ih.mpr hothers, rfl⟩⟩

/-- Lists that are read alike element by element are read alike. -/
theorem mapM_eq_ok_of_forall₂ {γ : Type} {related : α → β → Prop} {read : α → Except ε γ}
    {readOther : β → Except ε γ} {items : List α} {others : List β} {results : List γ}
    (hpairs : List.Forall₂ related items others)
    (hread : ∀ item other result, related item other → read item = .ok result →
      readOther other = .ok result)
    (hitems : items.mapM read = .ok results) : others.mapM readOther = .ok results := by
  have hresults := mapM_eq_ok_iff.mp hitems
  rw [mapM_eq_ok_iff]
  clear hitems
  induction hpairs generalizing results with
  | nil =>
      cases hresults
      exact .nil
  | cons hpair _ ih =>
      obtain - | ⟨hitem, hrest⟩ := hresults
      exact .cons (hread _ _ _ hpair hitem) (ih hrest)

/-- A list is read whole if every element is, and what is related one by one is so in the lists. -/
theorem exists_mapM_eq_ok {γ : Type} {related : β → γ → Prop} {read : α → Except ε γ}
    {items : List α} {results : List β}
    (hread : List.Forall₂ (fun item result => ∃ other, read item = .ok other ∧ related result other)
      items results) :
    ∃ others, items.mapM read = .ok others ∧ List.Forall₂ related results others := by
  simp only [mapM_eq_ok_iff]
  induction hread with
  | nil => exact ⟨[], .nil, .nil⟩
  | cons hfirst _ ih =>
      obtain ⟨other, hother, hrelated⟩ := hfirst
      obtain ⟨others, hothers, hrest⟩ := ih
      exact ⟨other :: others, .cons hother hothers, .cons hrelated hrest⟩

theorem mapM_congr_of_forall₂ {read : α → Except ε β} {items others : List α}
    (hequal : List.Forall₂ (fun item other => read other = read item) items others) :
    others.mapM read = items.mapM read := by
  induction hequal with
  | nil => rfl
  | cons hitem _ ih => rw [List.mapM_cons, List.mapM_cons, hitem, ih]

theorem isOk_iff {outcome : Except ε α} :
    outcome.isOk = true ↔ ∃ value, outcome = .ok value := by
  cases outcome <;> simp [Except.isOk, Except.toBool]

@[simp]
theorem isOk_map (convert : α → β) (outcome : Except ε α) :
    (convert <$> outcome).isOk = outcome.isOk := by
  cases outcome <;> rfl

@[simp]
theorem isOk_mapM (read : α → Except ε β) (items : List α) :
    (items.mapM read).isOk = items.all fun item => (read item).isOk := by
  induction items with
  | nil => rfl
  | cons item rest ih =>
      rw [List.mapM_cons, List.all_cons, ← ih]
      cases read item with
      | error error => rfl
      | ok result => cases rest.mapM read <;> rfl

/-! ### The error of a computation -/

def failure? : Except ε α → Option ε
  | .ok _ => none
  | .error error => some error

theorem failure?_eq_none_iff {outcome : Except ε α} :
    failure? outcome = none ↔ ∃ value, outcome = .ok value := by
  cases outcome <;> simp [failure?]

theorem failure?_eq_some_iff {outcome : Except ε α} {error : ε} :
    failure? outcome = some error ↔ outcome = .error error := by
  cases outcome <;> simp [failure?]

@[simp]
theorem failure?_map (convert : α → β) (outcome : Except ε α) :
    failure? (convert <$> outcome) = failure? outcome := by
  cases outcome <;> rfl

/-- A step that fails in one way, whatever it goes on from, is second to the one before it. -/
theorem failure?_bind {first : Except ε α} {next : α → Except ε β} {later : Option ε}
    (hnext : ∀ value, first = .ok value → failure? (next value) = later) :
    failure? (first >>= next) = (failure? first).or later := by
  cases first with
  | error error => rfl
  | ok value => exact hnext value rfl

/-- The first element that cannot be read is the one that is reported. -/
@[simp]
theorem failure?_mapM (read : α → Except ε β) (items : List α) :
    failure? (items.mapM read) = items.findSome? fun item => failure? (read item) := by
  induction items with
  | nil => rfl
  | cons item rest ih =>
      rw [List.mapM_cons, List.findSome?_cons, ← ih]
      cases read item with
      | error error => rfl
      | ok result => cases rest.mapM read <;> rfl

/-! ### Computations side by side -/

/-- Two computations that fail with one error, or both succeed and have related results. -/
inductive Agree (related : α → β → Prop) : Except ε α → Except ε β → Prop where
  | ok {left : α} {right : β} (hrelated : related left right) : Agree related (.ok left) (.ok right)
  | error (error : ε) : Agree related (.error error) (.error error)

theorem agree_iff {related : α → β → Prop} {left : Except ε α} {right : Except ε β} :
    Agree related left right ↔
      (∃ error, left = .error error ∧ right = .error error) ∨
        ∃ first second, left = .ok first ∧ right = .ok second ∧ related first second := by
  constructor
  · rintro (hrelated | error)
    · exact .inr ⟨_, _, rfl, rfl, hrelated⟩
    · exact .inl ⟨error, rfl, rfl⟩
  · rintro (⟨error, rfl, rfl⟩ | ⟨first, second, rfl, rfl, hrelated⟩)
    · exact .error error
    · exact .ok hrelated

namespace Agree

variable {γ δ : Type} {related : α → β → Prop} {relatedNext : γ → δ → Prop}

theorem bind {left : Except ε α} {right : Except ε β} {next : α → Except ε γ}
    {nextRight : β → Except ε δ} (hagree : Agree related left right)
    (hnext : ∀ first second, related first second →
      Agree relatedNext (next first) (nextRight second)) :
    Agree relatedNext (left >>= next) (right >>= nextRight) := by
  cases hagree with
  | ok hrelated => exact hnext _ _ hrelated
  | error error => exact .error error

theorem map {left : Except ε α} {right : Except ε β} {convert : α → γ} {convertRight : β → δ}
    (hagree : Agree related left right)
    (hconvert : ∀ first second, related first second →
      relatedNext (convert first) (convertRight second)) :
    Agree relatedNext (convert <$> left) (convertRight <$> right) := by
  cases hagree with
  | ok hrelated => exact .ok (hconvert _ _ hrelated)
  | error error => exact .error error

/-- Lists whose elements agree one by one agree, and the first error of both is the same one. -/
theorem mapM {read : γ → Except ε α} {readRight : δ → Except ε β} {items : List γ}
    {others : List δ}
    (hagree : List.Forall₂ (fun item other => Agree related (read item) (readRight other))
      items others) :
    Agree (List.Forall₂ related) (items.mapM read) (others.mapM readRight) := by
  induction hagree with
  | nil => exact .ok .nil
  | cons hfirst _ ih =>
      rw [List.mapM_cons, List.mapM_cons]
      refine hfirst.bind fun first second hrelated => ?_
      exact ih.bind fun rest otherRest hrest => .ok (.cons hrelated hrest)

end Agree

/-- Two computations that have one outcome, unless the first one fails with an excepted error. -/
def AgreesUnless (excepted : ε → Prop) (left right : Except ε α) : Prop :=
  (∃ error, excepted error ∧ left = .error error) ∨ right = left

namespace AgreesUnless

variable {excepted : ε → Prop}

theorem refl (outcome : Except ε α) : AgreesUnless excepted outcome outcome := .inr rfl

theorem bind {left right : Except ε α} {next nextRight : α → Except ε β}
    (hagree : AgreesUnless excepted left right)
    (hnext : ∀ value, AgreesUnless excepted (next value) (nextRight value)) :
    AgreesUnless excepted (left >>= next) (right >>= nextRight) := by
  obtain ⟨error, hexcepted, rfl⟩ | rfl := hagree
  · exact .inl ⟨error, hexcepted, rfl⟩
  · cases right with
    | error error => exact refl _
    | ok value => exact hnext value

theorem map {left right : Except ε α} (convert : α → β)
    (hagree : AgreesUnless excepted left right) :
    AgreesUnless excepted (convert <$> left) (convert <$> right) := by
  obtain ⟨error, hexcepted, rfl⟩ | rfl := hagree
  · exact .inl ⟨error, hexcepted, rfl⟩
  · exact refl _

theorem mapM {read readRight : α → Except ε β}
    (hagree : ∀ item, AgreesUnless excepted (read item) (readRight item)) (items : List α) :
    AgreesUnless excepted (items.mapM read) (items.mapM readRight) := by
  induction items with
  | nil => exact refl _
  | cons item rest ih =>
      rw [List.mapM_cons, List.mapM_cons]
      apply (hagree item).bind
      intro value
      exact ih.bind fun values => refl _

end AgreesUnless

end RecordRules
