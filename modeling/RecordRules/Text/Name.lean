/-!
# Names

Kinds, operators and statement tags are known by name, and the case of an ASCII letter in a name
does not matter. Other letters have no case here.
-/

namespace RecordRules.Text

def fold (name : String) : List Char := name.toList.map Char.toLower

def SameName (left right : String) : Prop := fold left = fold right

instance (left right : String) : Decidable (SameName left right) :=
  inferInstanceAs (Decidable (fold left = fold right))

theorem SameName.refl (name : String) : SameName name name := rfl

theorem SameName.symm {left right : String} (same : SameName left right) : SameName right left :=
  Eq.symm same

theorem SameName.trans {left middle right : String}
    (first : SameName left middle) (second : SameName middle right) : SameName left right :=
  Eq.trans first second

end RecordRules.Text
