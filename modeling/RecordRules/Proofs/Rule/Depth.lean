import RecordRules.Proofs.Induction
import RecordRules.Proofs.Limit
import RecordRules.Proofs.Rule.Grammar

/-!
# The depth of a document

A document describes a rule within every depth that the height of the rule allows and within no
other, and a reader that is given more depth goes on where it would have stopped, changing nothing
else. Main statement: reading keeps its limit (`Document.keepsLimit_ofJson`).
-/

namespace RecordRules

theorem Rule.height_pos (rule : Rule) : 0 < rule.height := by
  cases rule <;> simp only [height] <;> omega

theorem Rule.heights_le_iff {rules : List Rule} {depth : Nat} :
    heights rules ≤ depth ↔ ∀ rule ∈ rules, rule.height ≤ depth := by
  constructor
  · intro hheights rule hmem
    exact Nat.le_trans (height_le_heights hmem) hheights
  · intro hrules
    induction rules with
    | nil => exact Nat.zero_le depth
    | cons rule rest ih =>
        obtain ⟨hrule, hrest⟩ := List.forall_mem_cons.mp hrules
        exact Nat.max_le.mpr ⟨hrule, ih hrest⟩

namespace Document

/-! ### The height of what is described -/

theorem height_le_of_describes {depth : Nat} {document : Json} {rule : Rule}
    (hdescribes : Describes depth document rule) : rule.height ≤ depth := by
  induction depth generalizing document rule with
  | zero => cases hdescribes
  | succ depth ih =>
      have hgroup : ∀ {elements : List Json} {rules : List Rule},
          List.Forall₂ (Describes depth) elements rules → 1 + Rule.heights rules ≤ depth + 1 := by
        intro elements rules hoperands
        have hheights : Rule.heights rules ≤ depth :=
          Rule.heights_le_iff.mpr (forall_mem_right_of_forall₂ hoperands fun _ _ => ih)
        omega
      cases hdescribes with
      | all htag hstatements hoperands => exact hgroup hoperands
      | any htag hstatements hoperands => exact hgroup hoperands
      | not htag hstatement hoperand =>
          have hheight := ih hoperand
          rw [Rule.height]
          omega
      | compare htag hcomparison => exact Nat.le_add_left 1 depth

theorem describes_of_height_le {enough depth : Nat} {document : Json} {rule : Rule}
    (hdescribes : Describes enough document rule) (hheight : rule.height ≤ depth) :
    Describes depth document rule := by
  induction enough generalizing depth document rule with
  | zero => cases hdescribes
  | succ enough ih =>
      cases depth with
      | zero => exact absurd hheight (Nat.not_le.mpr rule.height_pos)
      | succ depth =>
          have hgroup : ∀ {elements : List Json} {rules : List Rule},
              List.Forall₂ (Describes enough) elements rules →
                1 + Rule.heights rules ≤ depth + 1 →
                  List.Forall₂ (Describes depth) elements rules := by
            intro elements rules hoperands hheights
            apply forall₂_imp_of_mem_right hoperands
            intro rule hmem element hoperand
            have hrule := Rule.height_le_heights hmem
            exact ih hoperand (by omega)
          cases hdescribes with
          | all htag hstatements hoperands =>
              exact .all htag hstatements (hgroup hoperands hheight)
          | any htag hstatements hoperands =>
              exact .any htag hstatements (hgroup hoperands hheight)
          | not htag hstatement hoperand =>
              rw [Rule.height] at hheight
              exact .not htag hstatement (ih hoperand (by omega))
          | compare htag hcomparison => exact .compare htag hcomparison

/-! ### Reading with more depth -/

theorem readNode_agreesUnless {excepted : CompileError → Prop}
    {child other : Json → Except CompileError Rule}
    (hchild : ∀ element, AgreesUnless excepted (child element) (other element)) (document : Json) :
    AgreesUnless excepted (readNode child document) (readNode other document) := by
  have hgroup (tag : Tag) (members : Json.Members) :
      AgreesUnless excepted (statements tag members >>= (·.mapM child))
        (statements tag members >>= (·.mapM other)) :=
    (AgreesUnless.refl _).bind (AgreesUnless.mapM hchild)
  cases document with
  | object members =>
      rw [readNode_object, readNode_object]
      refine (AgreesUnless.refl _).bind fun name => ?_
      cases Tag.ofName? name with
      | none => exact .refl _
      | some tag =>
          cases tag with
          | all => exact (hgroup .all members).map _
          | any => exact (hgroup .any members).map _
          | not => exact ((AgreesUnless.refl _).bind hchild).map _
          | compare => exact .refl _
  | _ => exact .refl _

theorem read_agreesUnless {limit larger depth deeper : Nat} (hle : depth ≤ deeper)
    (document : Json) :
    AgreesUnless (· = .tooDeep limit) (Document.read limit depth document)
      (Document.read larger deeper document) := by
  induction depth generalizing deeper document with
  | zero => exact .inl ⟨_, rfl, rfl⟩
  | succ depth ih =>
      obtain ⟨deeper, rfl⟩ := Nat.exists_eq_add_of_lt hle
      exact readNode_agreesUnless (ih (Nat.le_add_right depth deeper)) document

/-- **Reading keeps its limit**: it takes the height of the rule to read it, and a document that is
refused for any other reason is refused for this reason at every larger limit. -/
theorem keepsLimit_ofJson (document : Json) :
    KeepsLimit (fun limit => Rule.ofJson document limit) Rule.height := by
  apply KeepsLimit.of_agreesUnless
  · intro limit larger hle
    exact read_agreesUnless hle document
  · intro limit rule hread
    exact height_le_of_describes (read_eq_ok_iff.mp hread)
  · intro enough limit rule hread hheight
    exact ⟨rule, read_eq_ok_iff.mpr (describes_of_height_le (read_eq_ok_iff.mp hread) hheight)⟩

/-- The depth that is left is never counted below zero. -/
theorem read_of_countsDown {limit : Nat} {reader : Int → Json → Except CompileError Rule}
    (hreader : CountsDown (fun _ => .error (.tooDeep limit)) readNode reader) (document : Json) :
    reader limit document = Rule.ofJson document limit :=
  congrFun (hreader.eq_recursion rfl (read_succ_eq_readNode limit) limit) document

end Document

end RecordRules
