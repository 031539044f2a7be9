import RecordRules.Proofs.Rule.Document
import Mathlib.Data.Option.Basic

/-!
# What a document is looked at for

A node is looked at for its tag and for the properties that the tag calls for, the value of a
comparison for its kind and its literals. Documents that agree in this, at every level, are read
alike: to one rule or with one error (`Document.read_of_alike`).
-/

namespace RecordRules

open Json

namespace Document

/-- Values of comparisons that name one kind and list the same literals. -/
inductive LiteralsAlike : Json → Json → Prop where
  | refl (value : Json) : LiteralsAlike value value
  | object {members others : Members}
      (hkind : others.lookup "valueType" = members.lookup "valueType")
      (hitems : others.lookup "values" = members.lookup "values") :
      LiteralsAlike (.object members) (.object others)

structure ComparisonsAlike (members others : Members) : Prop where
  path : others.lookup "attribute" = members.lookup "attribute"
  operator : others.lookup "operator" = members.lookup "operator"
  literals : Option.Rel LiteralsAlike (members.lookup "value") (others.lookup "value")

/-- Documents whose nodes have the same tags and agree in what these call for. An object without a
tag is looked at for nothing else. -/
inductive Alike : Json → Json → Prop where
  | refl (document : Json) : Alike document document
  | array {elements others : List Json} (helements : List.Forall₂ Alike elements others) :
      Alike (.array elements) (.array others)
  | object {members others : Members}
      (htype : others.lookup "$type" = members.lookup "$type")
      (hfallback : members.lookup "$type" = none → others.lookup "type" = members.lookup "type")
      (hgroup : IsTagged members .all ∨ IsTagged members .any →
        Option.Rel Alike (members.lookup "statements") (others.lookup "statements"))
      (hnot : IsTagged members .not →
        Option.Rel Alike (members.lookup "statement") (others.lookup "statement"))
      (hcompare : IsTagged members .compare → ComparisonsAlike members others) :
      Alike (.object members) (.object others)

variable {members others : Members}

theorem property_congr {site : Site} {name : String}
    (hlookup : others.lookup name = members.lookup name) :
    property site name others = property site name members := by
  rw [property, property, hlookup]

theorem tagName_congr (htype : others.lookup "$type" = members.lookup "$type")
    (hfallback : members.lookup "$type" = none → others.lookup "type" = members.lookup "type") :
    tagName others = tagName members := by
  rw [tagName, tagName, htype]
  cases hlookup : members.lookup "$type" with
  | some value => rfl
  | none => rw [hfallback hlookup]

theorem literals_congr
    (halike : Option.Rel LiteralsAlike (members.lookup "value") (others.lookup "value")) :
    Document.literals others = Document.literals members := by
  rw [Document.literals, Document.literals, property, property]
  generalize members.lookup "value" = value, others.lookup "value" = other at halike
  cases halike with
  | none => rfl
  | some hvalues =>
      cases hvalues with
      | refl value => rfl
      | object hkind hitems =>
          simp only [ok_bind, object?, require, stringProperty]
          rw [property_congr hkind, property_congr hitems]

theorem comparison_congr (halike : ComparisonsAlike members others) :
    Document.comparison others = Document.comparison members := by
  obtain ⟨hpath, hoperator, hliterals⟩ := halike
  simp only [Document.comparison, Document.operator, stringProperty]
  rw [property_congr hpath, property_congr hoperator, literals_congr hliterals]

variable {child : Json → Except CompileError Rule}

/-! ### Children

The children of two nodes may be related in any way that the reader of the children respects.
-/

section Children

variable {related : Json → Json → Prop}
  (hchild : ∀ document other, related document other → child other = child document)
include hchild

theorem operand_congr {site : Site} {name : String}
    (hrelated : Option.Rel related (members.lookup name) (others.lookup name)) :
    (property site name others >>= child) = (property site name members >>= child) := by
  rw [property, property]
  generalize members.lookup name = value, others.lookup name = other at hrelated
  cases hrelated with
  | none => rfl
  | some hvalues => exact hchild _ _ hvalues

theorem group_congr {tag : Tag}
    (harrays : ∀ value other, related value other →
      Option.Rel (List.Forall₂ related) value.array? other.array?)
    (hrelated : Option.Rel related (members.lookup "statements") (others.lookup "statements")) :
    (statements tag others >>= (·.mapM child)) = (statements tag members >>= (·.mapM child)) := by
  rw [statements, statements, property, property]
  generalize members.lookup "statements" = value, others.lookup "statements" = other at hrelated
  cases hrelated with
  | none => rfl
  | @some value other hvalues =>
      rw [ok_bind, ok_bind]
      have helements := harrays value other hvalues
      generalize value.array? = elements, other.array? = others at helements
      cases helements with
      | none => rfl
      | some helements => exact mapM_congr_of_forall₂ (helements.imp hchild)

end Children

theorem array?_rel_self {related : Json → Json → Prop} (hrefl : ∀ value, related value value)
    (value : Json) : Option.Rel (List.Forall₂ related) value.array? value.array? := by
  cases value.array? with
  | none => exact .none
  | some elements => exact .some (List.forall₂_same.mpr fun element _ => hrefl element)

theorem Alike.array?_rel (value other : Json) (halike : Alike value other) :
    Option.Rel (List.Forall₂ Alike) value.array? other.array? := by
  cases halike with
  | refl => exact array?_rel_self .refl value
  | array helements => exact .some helements
  | object => exact .none

theorem readNode_of_alike {document other : Json}
    (hchild : ∀ document other, Alike document other → child other = child document)
    (halike : Alike document other) : readNode child other = readNode child document := by
  cases halike with
  | refl document => rfl
  | array helements => rfl
  | @object members others htype hfallback hgroup hnot hcompare =>
      rw [readNode_object, readNode_object, tagName_congr htype hfallback]
      cases hname : tagName members with
      | error error => rfl
      | ok name =>
          rw [ok_bind, ok_bind]
          cases hfound : Tag.ofName? name with
          | none => rfl
          | some tag =>
              have htag : IsTagged members tag := isTagged_iff.mpr ⟨name, hname, hfound⟩
              cases tag with
              | all =>
                  have hstatements := hgroup (.inl htag)
                  exact congrArg (Rule.all <$> ·)
                    (group_congr hchild Alike.array?_rel hstatements)
              | any =>
                  have hstatements := hgroup (.inr htag)
                  exact congrArg (Rule.any <$> ·)
                    (group_congr hchild Alike.array?_rel hstatements)
              | not => exact congrArg (Rule.not <$> ·) (operand_congr hchild (hnot htag))
              | compare => exact congrArg (Rule.compare <$> ·) (comparison_congr (hcompare htag))

/-- What is not looked at makes no difference, not even to the error. -/
theorem read_of_alike {limit depth : Nat} {document other : Json} (halike : Alike document other) :
    Document.read limit depth other = Document.read limit depth document := by
  induction depth generalizing document other with
  | zero => rfl
  | succ depth ih =>
      rw [read_succ_eq_readNode]
      exact readNode_of_alike (fun _ _ => ih) halike

end Document

end RecordRules
