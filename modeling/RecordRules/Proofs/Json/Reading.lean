import RecordRules.Proofs.Json.Scalars

/-!
# Reading texts back

The elements of a container are read one after another, each from the state that the comma before it
leaves, and the state after a value holds the values read so far and nothing else of the text. So
the text of a value is read as `reread` says, in every container that is open around it
(`readsAs_of_isOrdered`). Main statement: `readWithin_text`.
-/

namespace RecordRules.Json

/-! ### Lists -/

section Items

variable {ι ρ σ ε : Type} {step : σ → Char → Except ε σ} {chars : ι → List Char}
  {read : ι → Except ε ρ} {before : List ρ → σ} {after : List ρ → ι → ρ → σ} {closing : Char}
  {closed : List ρ → σ} {rest : List ι}

/-- The state after an item is known from the results so far, and so is every state that follows. -/
theorem foldlM_further_items
    (hrest : ∀ item ∈ rest, ∀ done, done ≠ [] →
      (chars item).foldlM step (before done) = after done item <$> read item)
    (hcomma : ∀ done item result, read item = .ok result →
      step (after done item result) ',' = .ok (before (done ++ [result])))
    (hclose : ∀ done item result, read item = .ok result →
      step (after done item result) closing = .ok (closed (done ++ [result])))
    (done : List ρ) {item : ι} {result : ρ} (hread : read item = .ok result) :
    (rest.flatMap (fun item => ',' :: chars item) ++ [closing]).foldlM step
        (after done item result) =
      (fun results => closed (done ++ result :: results)) <$> rest.mapM read := by
  induction rest generalizing done item result with
  | nil =>
      rw [List.flatMap_nil, List.nil_append, List.foldlM_cons, hclose done item result hread]
      rfl
  | cons next others ih =>
      rw [List.flatMap_cons, List.cons_append, List.cons_append, List.foldlM_cons,
        hcomma done item result hread, ok_bind, List.append_assoc, List.foldlM_append,
        hrest next List.mem_cons_self _ (by simp), List.mapM_cons]
      cases hnext : read next with
      | error error => rfl
      | ok second =>
          have hothers := ih (fun item hitem => hrest item (List.mem_cons_of_mem next hitem))
            (done ++ [result]) hnext
          rw [Except.map_ok, ok_bind, hothers]
          cases others.mapM read with
          | error error => rfl
          | ok results => simp [pure, Except.pure]

/-- Items between commas are read one by one, up to the character that closes their list. -/
theorem foldlM_items (chars : ι → List Char) (read : ι → Except ε ρ) (before : List ρ → σ)
    (after : List ρ → ι → ρ → σ) (closed : List ρ → σ) {start : σ} {first : ι}
    (hfirst : (chars first).foldlM step start = after [] first <$> read first)
    (hrest : ∀ item ∈ rest, ∀ done, done ≠ [] →
      (chars item).foldlM step (before done) = after done item <$> read item)
    (hcomma : ∀ done item result, read item = .ok result →
      step (after done item result) ',' = .ok (before (done ++ [result])))
    (hclose : ∀ done item result, read item = .ok result →
      step (after done item result) closing = .ok (closed (done ++ [result]))) :
    (chars first ++ (rest.flatMap (fun item => ',' :: chars item) ++ [closing])).foldlM step start =
      closed <$> (first :: rest).mapM read := by
  rw [List.foldlM_append, hfirst, List.mapM_cons]
  cases hread : read first with
  | error error => rfl
  | ok result =>
      rw [Except.map_ok, ok_bind, foldlM_further_items hrest hcomma hclose [] hread]
      cases rest.mapM read <;> rfl

end Items

/-- The texts of the items of a container, with commas between them. -/
theorem toList_intercalate (first : String) (rest : List String) :
    (String.intercalate "," (first :: rest)).toList =
      first.toList ++ rest.flatMap fun text => ',' :: text.toList := by
  rw [String.toList_intercalate]
  induction rest generalizing first with
  | nil => simp
  | cons next others ih =>
      simp only [List.map_cons] at ih ⊢
      rw [List.intercalate_cons_cons, ih next, List.flatMap_cons]
      simp

/-- The keys of an object stay what they are. -/
theorem keys_of_reread {members results : Members} {room : Nat}
    (hread : (members.mapM fun member => (member.1, ·) <$> member.2.reread room) = .ok results) :
    results.map Prod.fst = members.map Prod.fst := by
  symm
  apply map_eq_map_of_forall₂
  apply (mapM_eq_ok_iff.mp hread).imp
  intro member result hresult
  obtain ⟨value, -, rfl⟩ := map_eq_ok_iff.mp hresult
  rfl

/-! ### Values -/

variable {limit : Nat}

/-- The texts of elements and members stand in frames that are not those of a tagged numeral. -/
def Untagged (frames : List Frame) : Prop := ∀ outer, frames ≠ .numeral :: outer

theorem openContainer_of_untagged {frames : List Frame} (huntagged : Untagged frames)
    (opened : State) :
    openContainer limit frames opened =
      if frames.length < limit then .ok opened else .error .malformed := by
  unfold openContainer
  split
  · exact absurd rfl (huntagged _)
  · rfl

/-- The first element of an array is read like any other value. -/
theorem foldlM_firstElement (value : Json) (frames : List Frame) :
    value.text.toList.foldlM (State.step limit) ⟨.firstElement, frames⟩ =
      value.text.toList.foldlM (State.step limit) ⟨.value, frames⟩ := by
  obtain ⟨first, rest, htext, hblank, hbracket⟩ := toList_text value
  rw [htext, List.foldlM_cons, List.foldlM_cons]
  simp [State.step, hblank, hbracket]

/-- What the reader does with the text of one value, wherever the value may stand. -/
def ReadsAs (limit : Nat) (value : Json) : Prop :=
  ∀ frames, Untagged frames →
    value.text.toList.foldlM (State.step limit) ⟨.value, frames⟩ =
      (fun read => ⟨endMode value read, frames⟩) <$> value.reread (limit - frames.length)

/-- The elements of an array, up to the bracket that closes it. -/
theorem foldlM_elements {elements : List Json}
    (helements : ∀ element ∈ elements, ReadsAs limit element) (frames : List Frame) :
    ((String.intercalate "," (elements.map text)).toList ++ [']']).foldlM (State.step limit)
        ⟨.firstElement, .array [] :: frames⟩ =
      (fun results => ⟨.done (.array results), frames⟩) <$>
        elements.mapM (reread (limit - (frames.length + 1))) := by
  have hitem : ∀ element ∈ elements, ∀ done : List Json,
      element.text.toList.foldlM (State.step limit) ⟨.value, .array done :: frames⟩ =
        (fun read => ⟨endMode element read, .array done :: frames⟩) <$>
          element.reread (limit - (frames.length + 1)) := by
    intro element helement done
    apply helements element helement (.array done :: frames)
    intro outer
    simp
  cases elements with
  | nil => rfl
  | cons first rest =>
      rw [List.map_cons, toList_intercalate, List.flatMap_map, List.append_assoc]
      refine foldlM_items (fun element : Json => element.text.toList) _
        (fun done : List Json => State.mk .value (.array done.reverse :: frames))
        (fun done element read => ⟨endMode element read, .array done.reverse :: frames⟩) _
        ?_ ?_ ?_ ?_
      · rw [foldlM_firstElement]
        exact hitem first List.mem_cons_self []
      · intro element helement done _
        exact hitem element (List.mem_cons_of_mem first helement) done.reverse
      · intro done element read hread
        rw [step_endMode hread .comma, List.reverse_append]
        rfl
      · intro done element read hread
        rw [step_endMode hread .bracket]
        simp [afterValue, isBlank]

theorem readsAs_array {elements : List Json}
    (helements : ∀ element ∈ elements, ReadsAs limit element) :
    ReadsAs limit (.array elements) := by
  intro frames huntagged
  have hopen : State.step limit ⟨.value, frames⟩ '[' =
      if frames.length < limit then .ok ⟨.firstElement, .array [] :: frames⟩
      else .error .malformed := openContainer_of_untagged huntagged _
  rw [toList_arrayText, List.foldlM_cons, hopen, elementTexts_eq]
  by_cases hroom : frames.length < limit
  · have hsucc : limit - frames.length = limit - (frames.length + 1) + 1 := by omega
    rw [if_pos hroom, ok_bind, foldlM_elements helements, hsucc, reread, rereadElements_eq]
    cases elements.mapM (reread (limit - (frames.length + 1))) <;> rfl
  · have hzero : limit - frames.length = 0 := by omega
    rw [if_neg hroom, hzero]
    rfl

theorem foldlM_keyText (key : String) {start : State} {sorted : Members} {frames : List Frame}
    (hopen : start.step limit '"' = .ok ⟨.keyText sorted (.plain []), frames⟩)
    (following : List Char) :
    ((stringText key).toList ++ ':' :: following).foldlM (State.step limit) start =
      following.foldlM (State.step limit) ⟨.value, memberFrame sorted key :: frames⟩ := by
  rw [List.foldlM_append, foldlM_key key hopen, ok_bind, List.foldlM_cons]
  rfl

theorem memberFrame_of_ne_nil {sorted : Members} (hne : sorted ≠ []) (key : String) :
    memberFrame sorted key = .object sorted key := by
  cases sorted with
  | nil => exact absurd rfl hne
  | cons member rest => rfl

theorem memberFrame_of_ne {key : String} (hne : key ≠ numeralKey) (sorted : Members) :
    memberFrame sorted key = .object sorted key := by
  simp [memberFrame, hne]

theorem toList_memberText (member : String × Json) :
    (stringText member.1 ++ ":" ++ member.2.text).toList =
      (stringText member.1).toList ++ ':' :: member.2.text.toList := by
  simp

/-- The members of an object, up to the brace that closes it. -/
theorem foldlM_members {members : Members} (hmembers : ∀ member ∈ members, ReadsAs limit member.2)
    (huntagged : taggedObject? members = none) (frames : List Frame) :
    ((String.intercalate "," (memberTexts members)).toList ++ ['\x7d']).foldlM (State.step limit)
        ⟨.firstKey, frames⟩ =
      (fun results => ⟨.done (.object (insertAll results)), frames⟩) <$>
        members.mapM fun member =>
          (member.1, ·) <$> member.2.reread (limit - (frames.length + 1)) := by
  have hvalue : ∀ member ∈ members, ∀ sorted,
      member.2.text.toList.foldlM (State.step limit)
          ⟨.value, .object sorted member.1 :: frames⟩ =
        (fun read => ⟨endMode member.2 read, .object sorted member.1 :: frames⟩) <$>
          member.2.reread (limit - (frames.length + 1)) := by
    intro member hmember sorted
    apply hmembers member hmember (.object sorted member.1 :: frames)
    intro outer
    simp
  rw [memberTexts_eq]
  cases members with
  | nil => rfl
  | cons first rest =>
      have hkey : first.1 ≠ numeralKey := by
        intro hkey
        simp [taggedObject?, hkey] at huntagged
      rw [List.map_cons, toList_intercalate, List.flatMap_map, List.append_assoc]
      simp only [toList_memberText]
      refine foldlM_items
        (fun member : String × Json => (stringText member.1).toList ++ ':' :: member.2.text.toList) _
        (fun done : Members => State.mk (.key (insertAll done)) frames)
        (fun done member result =>
          ⟨endMode member.2 result.2, .object (insertAll done) member.1 :: frames⟩) _ ?_ ?_ ?_ ?_
      · rw [foldlM_keyText first.1 rfl, memberFrame_of_ne hkey, Functor.map_map]
        exact hvalue first List.mem_cons_self []
      · intro member hmember done hne
        rw [foldlM_keyText member.1 rfl, memberFrame_of_ne_nil (insertAll_ne_nil hne),
          Functor.map_map]
        exact hvalue member (List.mem_cons_of_mem first hmember) _
      · intro done member result hresult
        obtain ⟨read, hread, rfl⟩ := map_eq_ok_iff.mp hresult
        rw [step_endMode hread .comma, insertAll_append]
        rfl
      · intro done member result hresult
        obtain ⟨read, hread, rfl⟩ := map_eq_ok_iff.mp hresult
        rw [step_endMode hread .brace, insertAll_append]
        rfl

/-- A tagged value is judged as soon as the next character is not part of it. -/
theorem foldlM_taggedValue (value : Json) (frames : List Frame) {char : Char}
    (hclosing : IsClosing char) (following : List Char) :
    (value.text.toList ++ char :: following).foldlM (State.step limit)
        ⟨.value, .numeral :: frames⟩ =
      taggedNumber value >>= fun number =>
        if char = '\x7d' then following.foldlM (State.step limit) ⟨.done number, frames⟩
        else .error .malformed := by
  by_cases hscalar : value.nesting = 0
  · rw [List.foldlM_append, foldlM_scalarText hscalar, ok_bind, List.foldlM_cons,
      step_endMode (reread_scalar hscalar 0) hclosing, afterValue, hclosing.isBlank]
    cases taggedNumber value with
    | error error => rfl
    | ok number =>
        by_cases hbrace : char = '\x7d'
        · simp [hbrace]
        · simp [hbrace]
  · cases value with
    | array elements =>
        rw [toList_arrayText]
        rfl
    | object members =>
        rw [toList_objectText]
        rfl
    | _ => exact absurd rfl hscalar

theorem foldlM_tagged {members : Members} {outcome : Except ReadError Json}
    (htagged : taggedObject? members = some outcome) (frames : List Frame) :
    ((String.intercalate "," (memberTexts members)).toList ++ ['\x7d']).foldlM (State.step limit)
        ⟨.firstKey, frames⟩ = (fun read => ⟨.done read, frames⟩) <$> outcome := by
  cases members with
  | nil => cases htagged
  | cons member rest =>
      obtain ⟨key, value⟩ := member
      rw [taggedObject?, Option.ite_none_right_eq_some] at htagged
      obtain ⟨rfl, houtcome⟩ := htagged
      rw [memberTexts_eq, List.map_cons, toList_intercalate, List.append_assoc,
        toList_memberText (numeralKey, value), List.append_assoc, List.cons_append,
        foldlM_keyText numeralKey rfl, ← Option.some.inj houtcome]
      cases rest with
      | nil =>
          refine (foldlM_taggedValue value frames .brace []).trans ?_
          cases taggedNumber value <;> rfl
      | cons next others =>
          refine (foldlM_taggedValue value frames .comma _).trans ?_
          cases taggedNumber value <;> rfl

theorem readsAs_object {members : Members} (hordered : (members.map Prod.fst).Pairwise (· < ·))
    (hmembers : ∀ member ∈ members, ReadsAs limit member.2) : ReadsAs limit (.object members) := by
  intro frames huntagged
  have hopen : State.step limit ⟨.value, frames⟩ '\x7b' =
      if frames.length < limit then .ok ⟨.firstKey, frames⟩ else .error .malformed :=
    openContainer_of_untagged huntagged _
  rw [toList_objectText, List.foldlM_cons, hopen]
  by_cases hroom : frames.length < limit
  · have hsucc : limit - frames.length = limit - (frames.length + 1) + 1 := by omega
    rw [if_pos hroom, ok_bind, hsucc]
    cases htagged : taggedObject? members with
    | some outcome =>
        rw [foldlM_tagged htagged, reread_tagged htagged]
        rfl
    | none =>
        rw [foldlM_members hmembers htagged, reread_object htagged]
        cases hread : members.mapM fun member =>
            (member.1, ·) <$> member.2.reread (limit - (frames.length + 1)) with
        | error error => rfl
        | ok results =>
            have hresults : (results.map Prod.fst).Pairwise (· < ·) := by
              rw [keys_of_reread hread]
              exact hordered
            simp [insertAll_of_pairwise hresults, endMode]
  · have hzero : limit - frames.length = 0 := by omega
    rw [if_neg hroom, hzero]
    rfl

/-- **Reading a text back**, in whatever container the value stands. -/
theorem readsAs_of_isOrdered (limit : Nat) {value : Json} (hordered : value.isOrdered = true) :
    ReadsAs limit value := by
  induction value with
  | null | bool | number | string =>
      intro frames _
      rw [foldlM_scalarText rfl, reread_scalar rfl]
      rfl
  | array elements ih =>
      rw [isOrdered_array_iff] at hordered
      apply readsAs_array
      intro element helement
      exact ih element helement (hordered element helement)
  | object members ih =>
      rw [isOrdered_object_iff] at hordered
      obtain ⟨hkeys, hvalues⟩ := hordered
      apply readsAs_object hkeys
      intro member hmember
      exact ih member hmember (hvalues member hmember)

/-- **The whole text of a value** is read as that value, up to containers for which there is no room
and objects that are tagged numerals. -/
theorem readWithin_text (limit : Nat) {value : Json} (hordered : value.isOrdered = true) :
    readWithin limit value.text = value.reread limit := by
  have hrun := readsAs_of_isOrdered limit hordered [] fun outer => by simp
  rw [List.length_nil, Nat.sub_zero] at hrun
  unfold readWithin
  rw [State.start, hrun]
  cases hread : value.reread limit with
  | error error => rfl
  | ok read =>
      rw [Except.map_ok, ok_bind, State.finish, value?_endMode hread]

theorem ofText_text {value : Json} (hordered : value.isOrdered = true) :
    (value.Readable ∧ ∃ read, Rereads value read ∧ ofText value.text = .ok read) ∨
      ¬value.Readable ∧ ∃ error, ofText value.text = .error error := by
  have hread : ofText value.text = value.reread depthLimit := readWithin_text depthLimit hordered
  have hreadable : (value.reread depthLimit).isOk = true ↔ value.Readable :=
    isOk_reread_iff value depthLimit
  rw [hread]
  cases houtcome : value.reread depthLimit with
  | error error =>
      rw [houtcome] at hreadable
      exact .inr ⟨fun hvalue => Bool.false_ne_true (hreadable.mpr hvalue), error, rfl⟩
  | ok read =>
      rw [houtcome] at hreadable
      exact .inl ⟨hreadable.mp rfl, read, ⟨depthLimit, houtcome⟩, rfl⟩

end RecordRules.Json
