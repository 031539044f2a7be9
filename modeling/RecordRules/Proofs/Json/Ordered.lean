import RecordRules.Json.Reader
import RecordRules.Proofs.Except
import Mathlib.Data.List.Induction

/-!
# The order of keys

An object holds its members in the order of their keys, one for each key. Whatever a text says, the
reader inserts every member where it belongs, so only such objects come out of texts. Main
statement: `isOrdered_of_readWithin`.
-/

namespace RecordRules.Json

mutual

/-- In every object the keys ascend. -/
def isOrdered : Json → Bool
  | .array elements => elementsOrdered elements
  | .object members => (members.map Prod.fst).Pairwise (· < ·) && membersOrdered members
  | _ => true

def elementsOrdered : List Json → Bool
  | [] => true
  | element :: rest => element.isOrdered && elementsOrdered rest

def membersOrdered : List (String × Json) → Bool
  | [] => true
  | (_, value) :: rest => value.isOrdered && membersOrdered rest

end

@[simp]
theorem elementsOrdered_eq (elements : List Json) :
    elementsOrdered elements = elements.all isOrdered := by
  induction elements with
  | nil => rfl
  | cons element rest ih => simp [elementsOrdered, ih]

@[simp]
theorem membersOrdered_eq (members : Members) :
    membersOrdered members = members.all fun member => member.2.isOrdered := by
  induction members with
  | nil => rfl
  | cons member rest ih => simp [membersOrdered, ih]

theorem isOrdered_array_iff {elements : List Json} :
    (array elements).isOrdered = true ↔ ∀ element ∈ elements, element.isOrdered = true := by
  rw [isOrdered, elementsOrdered_eq, List.all_eq_true]

theorem isOrdered_object_iff {members : Members} :
    (object members).isOrdered = true ↔
      (members.map Prod.fst).Pairwise (· < ·) ∧ ∀ member ∈ members, member.2.isOrdered = true := by
  rw [isOrdered, membersOrdered_eq, Bool.and_eq_true, decide_eq_true_eq, List.all_eq_true]

/-! ### Objects -/

/-- Members that are given in the order of their keys are kept as they are. -/
theorem insertMember_of_lt {key : String} {value : Json} {members : Members}
    (hlt : ∀ member ∈ members, member.1 < key) :
    insertMember key value members = members ++ [(key, value)] := by
  induction members with
  | nil => rfl
  | cons member rest ih =>
      obtain ⟨other, current⟩ := member
      have hother : other < key := hlt _ List.mem_cons_self
      have hrest : insertMember key value rest = rest ++ [(key, value)] := by
        apply ih
        intro member hmember
        exact hlt member (List.mem_cons_of_mem _ hmember)
      have hne : ¬key = other := by
        rintro rfl
        exact String.lt_irrefl key hother
      rw [insertMember, if_neg (String.lt_asymm hother), if_neg hne, hrest]
      rfl

/-- The members that have been read, given in the order of the text. -/
def insertAll (members : Members) : Members :=
  members.foldl (fun sorted (key, value) => insertMember key value sorted) []

theorem insertAll_append (members : Members) (member : String × Json) :
    insertAll (members ++ [member]) = insertMember member.1 member.2 (insertAll members) := by
  rw [insertAll, List.foldl_append]
  rfl

theorem insertAll_of_pairwise {members : Members}
    (hordered : (members.map Prod.fst).Pairwise (· < ·)) : insertAll members = members := by
  induction members using List.reverseRecOn with
  | nil => rfl
  | append_singleton members member ih =>
      rw [List.map_append, List.pairwise_append] at hordered
      obtain ⟨hinit, -, hlast⟩ := hordered
      rw [insertAll_append, ih hinit, insertMember_of_lt]
      intro other hother
      exact hlast _ (List.mem_map_of_mem hother) _ (by simp)

theorem insertMember_ne_nil (key : String) (value : Json) (members : Members) :
    insertMember key value members ≠ [] := by
  cases members with
  | nil => simp [insertMember]
  | cons member rest =>
      rw [insertMember]
      split_ifs <;> simp

theorem insertAll_ne_nil {members : Members} (hne : members ≠ []) : insertAll members ≠ [] := by
  obtain ⟨init, last, rfl⟩ := (List.eq_nil_or_concat' members).resolve_left hne
  rw [insertAll_append]
  exact insertMember_ne_nil last.1 last.2 (insertAll init)

/-- Members that are given in the order of their keys. -/
theorem ofMembers_of_pairwise {members : Members}
    (hordered : (members.map Prod.fst).Pairwise (· < ·)) : ofMembers members = .object members :=
  congrArg object (insertAll_of_pairwise hordered)

theorem eq_or_mem_of_mem_insertMember {key : String} {value : Json} {members : Members}
    {member : String × Json} (hmember : member ∈ insertMember key value members) :
    member = (key, value) ∨ member ∈ members := by
  induction members with
  | nil => exact .inl (List.mem_singleton.mp hmember)
  | cons first rest ih =>
      obtain ⟨other, current⟩ := first
      rw [insertMember] at hmember
      split_ifs at hmember with hlt heq
      · exact List.mem_cons.mp hmember
      · exact (List.mem_cons.mp hmember).imp_right (List.mem_cons_of_mem _)
      · obtain rfl | hrest := List.mem_cons.mp hmember
        · exact .inr List.mem_cons_self
        · exact (ih hrest).imp_right (List.mem_cons_of_mem _)

theorem pairwise_insertMember (key : String) (value : Json) {members : Members}
    (hkeys : (members.map Prod.fst).Pairwise (· < ·)) :
    ((insertMember key value members).map Prod.fst).Pairwise (· < ·) := by
  induction members with
  | nil => exact List.pairwise_singleton _ key
  | cons first rest ih =>
      obtain ⟨other, current⟩ := first
      rw [List.map_cons, List.pairwise_cons] at hkeys
      obtain ⟨hother, hrest⟩ := hkeys
      rw [insertMember]
      split_ifs with hlt heq
      · refine List.pairwise_cons.mpr ⟨?_, List.pairwise_cons.mpr ⟨hother, hrest⟩⟩
        intro next hnext
        obtain rfl | hnext := List.mem_cons.mp hnext
        · exact hlt
        · exact String.lt_trans hlt (hother next hnext)
      · rw [heq]
        exact List.pairwise_cons.mpr ⟨hother, hrest⟩
      · have hgt : other < key := by
          by_contra hge
          exact heq (String.le_antisymm (String.not_lt.mp hge) (String.not_lt.mp hlt))
        refine List.pairwise_cons.mpr ⟨?_, ih hrest⟩
        intro next hnext
        obtain ⟨member, hmember, rfl⟩ := List.mem_map.mp hnext
        obtain rfl | hmember := eq_or_mem_of_mem_insertMember hmember
        · exact hgt
        · exact hother _ (List.mem_map_of_mem hmember)

theorem isOrdered_insertMember {key : String} {value : Json} {members : Members}
    (hmembers : (object members).isOrdered = true) (hvalue : value.isOrdered = true) :
    (object (insertMember key value members)).isOrdered = true := by
  rw [isOrdered_object_iff] at hmembers ⊢
  refine ⟨pairwise_insertMember key value hmembers.1, ?_⟩
  intro member hmember
  obtain rfl | hmember := eq_or_mem_of_mem_insertMember hmember
  · exact hvalue
  · exact hmembers.2 member hmember

/-! ### The reader -/

def Frame.IsOrdered : Frame → Prop
  | .array elements => ∀ element ∈ elements, element.isOrdered = true
  | .object members _ => (Json.object members).isOrdered = true
  | .numeral => True

def Mode.IsOrdered : Mode → Prop
  | .key members | .keyText members _ | .colon members _ => (Json.object members).isOrdered = true
  | .word _ read | .done read => read.isOrdered = true
  | _ => True

/-- Everything that has been read so far is ordered. -/
structure State.IsOrdered (state : State) : Prop where
  mode : state.mode.IsOrdered
  frames : ∀ frame ∈ state.frames, frame.IsOrdered

theorem State.isOrdered_start : State.start.IsOrdered where
  mode := trivial
  frames := by simp [State.start]

theorem taggedNumber_eq_ok {value read : Json} (hread : taggedNumber value = .ok read) :
    ∃ text numeral, value = .string text ∧ read = .number numeral := by
  cases value with
  | string text =>
      rw [taggedNumber] at hread
      cases hnumeral : Numeral.ofText? text with
      | none => simp [hnumeral] at hread
      | some numeral =>
          rw [hnumeral] at hread
          exact ⟨text, numeral, rfl, (Except.ok.inj hread).symm⟩
  | _ => cases hread

theorem openContainer_eq_ok {limit : Nat} {frames : List Frame} {opened next : State}
    (hopen : openContainer limit frames opened = .ok next) : next = opened := by
  unfold openContainer at hopen
  split at hopen
  · cases hopen
  · split_ifs at hopen
    exact (Except.ok.inj hopen).symm

theorem isOrdered_memberFrame {members : Members} (hmembers : (object members).isOrdered = true)
    (key : String) : (memberFrame members key).IsOrdered := by
  rw [memberFrame]
  split_ifs
  · trivial
  · exact hmembers

variable {limit : Nat} {frames : List Frame} {char : Char} {next : State}

theorem isOrdered_beginValue (hframes : ∀ frame ∈ frames, frame.IsOrdered)
    (hbegin : beginValue limit frames char = .ok next) : next.IsOrdered := by
  unfold beginValue at hbegin
  split_ifs at hbegin
  · rw [openContainer_eq_ok hbegin]
    exact ⟨trivial, List.forall_mem_cons.mpr ⟨by simp [Frame.IsOrdered], hframes⟩⟩
  · rw [openContainer_eq_ok hbegin]
    exact ⟨trivial, hframes⟩
  · rw [← Except.ok.inj hbegin]
    exact ⟨trivial, hframes⟩
  · rw [← Except.ok.inj hbegin]
    exact ⟨rfl, hframes⟩
  · rw [← Except.ok.inj hbegin]
    exact ⟨rfl, hframes⟩
  · rw [← Except.ok.inj hbegin]
    exact ⟨rfl, hframes⟩
  · obtain ⟨part, -, rfl⟩ := map_eq_ok_iff.mp hbegin
    exact ⟨trivial, hframes⟩

theorem isOrdered_afterValue {value : Json} (hvalue : value.isOrdered = true)
    (hframes : ∀ frame ∈ frames, frame.IsOrdered)
    (hafter : afterValue value frames char = .ok next) : next.IsOrdered := by
  cases frames with
  | nil =>
      rw [afterValue] at hafter
      split_ifs at hafter
      rw [← Except.ok.inj hafter]
      exact ⟨hvalue, hframes⟩
  | cons frame outer =>
      obtain ⟨hframe, houter⟩ := List.forall_mem_cons.mp hframes
      cases frame with
      | array elements =>
          have helements : ∀ element ∈ value :: elements, element.isOrdered = true :=
            List.forall_mem_cons.mpr ⟨hvalue, hframe⟩
          rw [afterValue] at hafter
          split_ifs at hafter
          · rw [← Except.ok.inj hafter]
            exact ⟨hvalue, hframes⟩
          · rw [← Except.ok.inj hafter]
            exact ⟨trivial, List.forall_mem_cons.mpr ⟨helements, houter⟩⟩
          · rw [← Except.ok.inj hafter]
            refine ⟨isOrdered_array_iff.mpr ?_, houter⟩
            intro element helement
            exact helements element (List.mem_reverse.mp helement)
      | object members key =>
          rw [afterValue] at hafter
          split_ifs at hafter
          · rw [← Except.ok.inj hafter]
            exact ⟨hvalue, hframes⟩
          · rw [← Except.ok.inj hafter]
            exact ⟨isOrdered_insertMember hframe hvalue, houter⟩
          · rw [← Except.ok.inj hafter]
            exact ⟨isOrdered_insertMember hframe hvalue, houter⟩
      | numeral =>
          obtain ⟨number, hnumber, hafter⟩ := bind_eq_ok_iff.mp hafter
          obtain ⟨text, numeral, -, rfl⟩ := taggedNumber_eq_ok hnumber
          split_ifs at hafter
          · rw [← Except.ok.inj hafter]
            exact ⟨hvalue, hframes⟩
          · rw [← Except.ok.inj hafter]
            exact ⟨rfl, houter⟩

/-- A step keeps everything ordered: only a member that is complete is inserted anywhere. -/
theorem State.isOrdered_step {state : State} (hordered : state.IsOrdered)
    (hstep : state.step limit char = .ok next) : next.IsOrdered := by
  obtain ⟨mode, frames⟩ := state
  obtain ⟨hmode, hframes⟩ := hordered
  cases mode with
  | value =>
      simp only [step] at hstep
      split_ifs at hstep
      · rw [← Except.ok.inj hstep]
        exact ⟨hmode, hframes⟩
      · exact isOrdered_beginValue hframes hstep
  | firstElement =>
      simp only [step] at hstep
      split_ifs at hstep
      · rw [← Except.ok.inj hstep]
        exact ⟨hmode, hframes⟩
      · cases frames with
        | nil => cases hstep
        | cons frame outer =>
            cases frame with
            | array elements =>
                obtain ⟨hframe, houter⟩ := List.forall_mem_cons.mp hframes
                rw [← Except.ok.inj hstep]
                refine ⟨isOrdered_array_iff.mpr ?_, houter⟩
                intro element helement
                exact hframe element (List.mem_reverse.mp helement)
            | object members key => cases hstep
            | numeral => cases hstep
      · exact isOrdered_beginValue hframes hstep
  | firstKey =>
      simp only [step] at hstep
      split_ifs at hstep
      · rw [← Except.ok.inj hstep]
        exact ⟨hmode, hframes⟩
      · rw [← Except.ok.inj hstep]
        exact ⟨rfl, hframes⟩
      · rw [← Except.ok.inj hstep]
        exact ⟨rfl, hframes⟩
  | key members =>
      simp only [step] at hstep
      split_ifs at hstep
      · rw [← Except.ok.inj hstep]
        exact ⟨hmode, hframes⟩
      · rw [← Except.ok.inj hstep]
        exact ⟨hmode, hframes⟩
  | keyText members part =>
      simp only [step] at hstep
      split at hstep
      · rw [← Except.ok.inj hstep]
        exact ⟨hmode, hframes⟩
      · obtain ⟨following, -, rfl⟩ := map_eq_ok_iff.mp hstep
        exact ⟨hmode, hframes⟩
  | colon members key =>
      simp only [step] at hstep
      split_ifs at hstep
      · rw [← Except.ok.inj hstep]
        exact ⟨hmode, hframes⟩
      · rw [← Except.ok.inj hstep]
        exact ⟨trivial, List.forall_mem_cons.mpr ⟨isOrdered_memberFrame hmode key, hframes⟩⟩
  | string part =>
      simp only [step] at hstep
      split at hstep
      · rw [← Except.ok.inj hstep]
        exact ⟨rfl, hframes⟩
      · obtain ⟨following, -, rfl⟩ := map_eq_ok_iff.mp hstep
        exact ⟨trivial, hframes⟩
  | number part =>
      simp only [step] at hstep
      split at hstep
      · rw [← Except.ok.inj hstep]
        exact ⟨trivial, hframes⟩
      · split_ifs at hstep
        exact isOrdered_afterValue rfl hframes hstep
      · cases hstep
  | word rest read =>
      simp only [step] at hstep
      split at hstep
      · cases hstep
      · split_ifs at hstep
        rw [← Except.ok.inj hstep]
        exact ⟨hmode, hframes⟩
      · split_ifs at hstep
        rw [← Except.ok.inj hstep]
        exact ⟨hmode, hframes⟩
  | done read => exact isOrdered_afterValue hmode hframes hstep

theorem State.isOrdered_foldlM {chars : List Char} {state last : State}
    (hordered : state.IsOrdered) (hrun : chars.foldlM (State.step limit) state = .ok last) :
    last.IsOrdered := by
  induction chars generalizing state with
  | nil =>
      rw [← Except.ok.inj hrun]
      exact hordered
  | cons char rest ih =>
      rw [List.foldlM_cons] at hrun
      obtain ⟨next, hnext, hrest⟩ := bind_eq_ok_iff.mp hrun
      exact ih (State.isOrdered_step hordered hnext) hrest

theorem State.isOrdered_of_value? {state : State} {value : Json} (hordered : state.IsOrdered)
    (hvalue : state.value? = some value) : value.isOrdered = true := by
  obtain ⟨mode, frames⟩ := state
  cases mode with
  | done read =>
      rw [← Option.some.inj hvalue]
      exact hordered.mode
  | number part =>
      obtain ⟨numeral, -, rfl⟩ := Option.map_eq_some_iff.mp hvalue
      rfl
  | _ => cases hvalue

/-- **Only ordered values come out of texts.** -/
theorem isOrdered_of_readWithin {text : String} {value : Json}
    (hread : readWithin limit text = .ok value) : value.isOrdered = true := by
  obtain ⟨last, hrun, hfinish⟩ := bind_eq_ok_iff.mp hread
  have hordered := State.isOrdered_foldlM State.isOrdered_start hrun
  unfold State.finish at hfinish
  split at hfinish
  case h_1 found hvalue _ =>
    rw [← Except.ok.inj hfinish]
    exact State.isOrdered_of_value? hordered hvalue
  case h_2 =>
    obtain ⟨_, -, herror⟩ := bind_eq_ok_iff.mp hfinish
    cases herror
  case h_3 => cases hfinish

end RecordRules.Json
