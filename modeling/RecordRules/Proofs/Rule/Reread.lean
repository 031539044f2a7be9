import RecordRules.Proofs.Json.Reread
import RecordRules.Proofs.Rule.Document

/-!
# Documents that have been through a text

What is read from the text of a document differs from the document only in objects that a tag turns
into numbers. A rule looks at no such object, so it is read from either of the two alike. Main
statement: `Document.read_of_rereads`.
-/

namespace RecordRules

open Json

namespace Document

variable {members results : Members}

/-! ### What a rule looks at -/

theorem lookup_of_rereads {name : String} {value : Json}
    (hpairs : List.Forall₂ MemberRereads members results)
    (hlookup : members.lookup name = some value) :
    ∃ read, results.lookup name = some read ∧ Rereads value read := by
  have hrel := lookup_rel hpairs name
  rw [hlookup] at hrel
  generalize results.lookup name = found at hrel
  obtain hread | - := hrel
  exact ⟨_, rfl, hread⟩

theorem lookup_string_of_rereads {name text : String}
    (hpairs : List.Forall₂ MemberRereads members results)
    (hlookup : members.lookup name = some (.string text)) :
    results.lookup name = some (.string text) := by
  obtain ⟨read, hresults, hread⟩ := lookup_of_rereads hpairs hlookup
  rw [hresults, eq_of_rereads rfl hread]

theorem lookup_none_of_rereads {name : String}
    (hpairs : List.Forall₂ MemberRereads members results)
    (hlookup : members.lookup name = none) : results.lookup name = none := by
  have hrel := lookup_rel hpairs name
  rw [hlookup] at hrel
  generalize results.lookup name = found at hrel ⊢
  cases hrel
  rfl

theorem lookup_array_of_rereads {name : String} {elements : List Json}
    (hpairs : List.Forall₂ MemberRereads members results)
    (hlookup : members.lookup name = some (.array elements)) :
    ∃ others, results.lookup name = some (.array others) ∧
      List.Forall₂ Rereads elements others := by
  obtain ⟨read, hresults, hread⟩ := lookup_of_rereads hpairs hlookup
  obtain ⟨others, rfl, helements⟩ := array_of_rereads hread
  exact ⟨others, hresults, helements⟩

theorem stringProperty_of_rereads {site : Site} {name text : String}
    (hpairs : List.Forall₂ MemberRereads members results)
    (hmembers : stringProperty site name members = .ok text) :
    stringProperty site name results = .ok text :=
  stringProperty_eq_ok_iff.mpr
    (lookup_string_of_rereads hpairs (stringProperty_eq_ok_iff.mp hmembers))

theorem tagName_of_rereads {name : String} (hpairs : List.Forall₂ MemberRereads members results)
    (hmembers : tagName members = .ok name) : tagName results = .ok name := by
  rw [tagName_eq_ok_iff] at hmembers ⊢
  obtain hfirst | ⟨hnone, hsecond⟩ := hmembers
  · exact .inl (lookup_string_of_rereads hpairs hfirst)
  · exact .inr ⟨lookup_none_of_rereads hpairs hnone, lookup_string_of_rereads hpairs hsecond⟩

theorem operator_of_rereads {operator : Operator}
    (hpairs : List.Forall₂ MemberRereads members results)
    (hmembers : Document.operator members = .ok operator) :
    Document.operator results = .ok operator := by
  obtain ⟨name, hname, hoperator⟩ := bind_eq_ok_iff.mp hmembers
  rw [Document.operator, stringProperty_of_rereads hpairs hname]
  exact hoperator

/-- A literal is read from a value without containers. -/
theorem nesting_of_read? {kind : Kind} {element : Json} {item : kind.Carrier}
    (hitem : kind.read? element = some item) : element.nesting = 0 := by
  cases element with
  | array elements => cases kind <;> cases hitem
  | object members => cases kind <;> cases hitem
  | _ => rfl

theorem nesting_of_readFrom {kind : Kind} {index : Nat} {elements : List Json}
    {items : List kind.Carrier} (hitems : Literals.readFrom kind index elements = .ok items) :
    ∀ element ∈ elements, element.nesting = 0 := by
  induction elements generalizing index items with
  | nil => simp
  | cons element rest ih =>
      rw [Literals.readFrom] at hitems
      cases hitem : kind.read? element with
      | none => simp [hitem] at hitems
      | some item =>
          rw [hitem] at hitems
          obtain ⟨others, hothers, -⟩ := map_eq_ok_iff.mp hitems
          exact List.forall_mem_cons.mpr ⟨nesting_of_read? hitem, ih hothers⟩

theorem literals_ofJson_of_rereads {kindName : String} {elements others : List Json}
    {literals : Literals} (hpairs : List.Forall₂ Rereads elements others)
    (helements : Literals.ofJson kindName elements = .ok literals) :
    Literals.ofJson kindName others = .ok literals := by
  rw [Literals.ofJson] at helements
  cases hkind : Kind.ofName? kindName with
  | none => simp [hkind] at helements
  | some kind =>
      rw [hkind] at helements
      obtain ⟨items, hitems, -⟩ := map_eq_ok_iff.mp helements
      have hequal : List.Forall₂ (· = ·) elements others := by
        apply forall₂_imp_of_mem hpairs
        intro element helement other hread
        exact (eq_of_rereads (nesting_of_readFrom hitems element helement) hread).symm
      rw [List.forall₂_eq_eq_eq] at hequal
      rw [← hequal, Literals.ofJson, hkind]
      exact helements

theorem literals_of_rereads {literals : Literals}
    (hpairs : List.Forall₂ MemberRereads members results)
    (hmembers : Document.literals members = .ok literals) :
    Document.literals results = .ok literals := by
  obtain ⟨inner, kindName, elements, hvalue, hkind, helements, hliterals⟩ :=
    literals_eq_ok_iff.mp hmembers
  obtain ⟨value, hvalueRead, hread⟩ := lookup_of_rereads hpairs hvalue
  obtain ⟨innerResults, rfl, hinner⟩ := object_of_rereads hread (by decide) hkind
  obtain ⟨others, hothers, hpairwise⟩ := lookup_array_of_rereads hinner helements
  exact literals_eq_ok_iff.mpr ⟨innerResults, kindName, others, hvalueRead,
    lookup_string_of_rereads hinner hkind, hothers,
    literals_ofJson_of_rereads hpairwise hliterals⟩

theorem comparison_of_rereads {comparison : Comparison}
    (hpairs : List.Forall₂ MemberRereads members results)
    (hmembers : Document.comparison members = .ok comparison) :
    Document.comparison results = .ok comparison := by
  obtain ⟨path, hpath, hmembers⟩ := bind_eq_ok_iff.mp hmembers
  obtain ⟨operator, hoperator, hmembers⟩ := bind_eq_ok_iff.mp hmembers
  obtain ⟨literals, hliterals, hcomparison⟩ := bind_eq_ok_iff.mp hmembers
  rw [Document.comparison, stringProperty_of_rereads hpairs hpath,
    ok_bind, operator_of_rereads hpairs hoperator, ok_bind, literals_of_rereads hpairs hliterals]
  exact hcomparison

/-- The tag of a node keeps it from being a tagged numeral. -/
theorem node_of_rereads {read : Json} {name : String} (hread : Rereads (.object members) read)
    (hname : tagName members = .ok name) :
    ∃ results, read = .object results ∧ List.Forall₂ MemberRereads members results := by
  obtain hfirst | ⟨-, hsecond⟩ := tagName_eq_ok_iff.mp hname
  · exact object_of_rereads hread (by decide) hfirst
  · exact object_of_rereads hread (by decide) hsecond

section Children

variable {α : Type} {readChild : Json → Except CompileError α}

theorem children_of_rereads {tag : Tag} {children : List α}
    (hpairs : List.Forall₂ MemberRereads members results)
    (hchild : ∀ element other child, Rereads element other → readChild element = .ok child →
      readChild other = .ok child)
    (hmembers : (statements tag members >>= (·.mapM readChild)) = .ok children) :
    (statements tag results >>= (·.mapM readChild)) = .ok children := by
  obtain ⟨elements, helements, hchildren⟩ := bind_eq_ok_iff.mp hmembers
  obtain ⟨others, hothers, hpairwise⟩ :=
    lookup_array_of_rereads hpairs (statements_eq_ok_iff.mp helements)
  exact bind_eq_ok_iff.mpr ⟨others, statements_eq_ok_iff.mpr hothers,
    mapM_eq_ok_of_forall₂ hpairwise hchild hchildren⟩

theorem child_of_rereads {site : Site} {name : String} {child : α}
    (hpairs : List.Forall₂ MemberRereads members results)
    (hchild : ∀ element other child, Rereads element other → readChild element = .ok child →
      readChild other = .ok child)
    (hmembers : (property site name members >>= readChild) = .ok child) :
    (property site name results >>= readChild) = .ok child := by
  obtain ⟨value, hvalue, hinner⟩ := bind_eq_ok_iff.mp hmembers
  obtain ⟨read, hlookup, hread⟩ := lookup_of_rereads hpairs (property_eq_ok_iff.mp hvalue)
  exact bind_eq_ok_iff.mpr ⟨read, property_eq_ok_iff.mpr hlookup,
    hchild value read child hread hinner⟩

end Children

/-- **A rule is read from the text of its document** as it is read from the document. -/
theorem read_of_rereads {limit depth : Nat} {document read : Json} {rule : Rule}
    (hread : Rereads document read) (hrule : Document.read limit depth document = .ok rule) :
    Document.read limit depth read = .ok rule := by
  induction depth generalizing document read rule with
  | zero => cases hrule
  | succ depth ih =>
      have hchild : ∀ element other rule, Rereads element other →
          Document.read limit depth element = .ok rule →
            Document.read limit depth other = .ok rule := by
        intro element other rule hpair helement
        exact ih hpair helement
      cases document with
      | object members =>
          rw [read_succ] at hrule
          obtain ⟨name, hname, hnode⟩ := bind_eq_ok_iff.mp hrule
          obtain ⟨results, rfl, hpairs⟩ := node_of_rereads hread hname
          rw [read_succ, tagName_of_rereads hpairs hname, ok_bind]
          cases htag : Tag.ofName? name with
          | none => simp [htag] at hnode
          | some tag =>
              rw [htag] at hnode
              cases tag with
              | all =>
                  obtain ⟨rules, hrules, hall⟩ := map_eq_ok_iff.mp hnode
                  exact map_eq_ok_iff.mpr ⟨rules, children_of_rereads hpairs hchild hrules, hall⟩
              | any =>
                  obtain ⟨rules, hrules, hany⟩ := map_eq_ok_iff.mp hnode
                  exact map_eq_ok_iff.mpr ⟨rules, children_of_rereads hpairs hchild hrules, hany⟩
              | not =>
                  obtain ⟨inner, hinner, hnot⟩ := map_eq_ok_iff.mp hnode
                  exact map_eq_ok_iff.mpr ⟨inner, child_of_rereads hpairs hchild hinner, hnot⟩
              | compare =>
                  obtain ⟨comparison, hcomparison, hcompare⟩ := map_eq_ok_iff.mp hnode
                  exact map_eq_ok_iff.mpr
                    ⟨comparison, comparison_of_rereads hpairs hcomparison, hcompare⟩
      | _ => cases hrule

end Document

end RecordRules
