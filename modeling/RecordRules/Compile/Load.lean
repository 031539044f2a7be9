import RecordRules.Compile.Compiler

/-!
# Rules from texts and files
-/

namespace RecordRules

namespace Logged

variable {ε δ α : Type}

def mapError (convert : ε → δ) (logged : Logged ε α) : Logged δ α :=
  ⟨logged.events, logged.outcome.mapError convert⟩

end Logged

namespace Compiler

variable {Index : Type} {Carrier : Index → Type}

def predicateOfText (compiler : Compiler) (schema : Schema Carrier) (root : Index) (text : String) :
    Logged LoadError (Predicate (Carrier root)) := do
  let document ← .ofExcept ((Json.ofText text).mapError .json)
  (compiler.predicateOfJson schema root document).mapError .compile

/-- The contents of a file have to be one text in UTF-8. -/
def textOfFile (contents : Except FileError ByteArray) : Except LoadError String := do
  let bytes ← contents.mapError .file
  match String.fromUTF8? bytes with
  | some text => return text
  | none => .error (.file .notUnicode)

def predicateOfFile (compiler : Compiler) (schema : Schema Carrier) (root : Index)
    (contents : Except FileError ByteArray) : Logged LoadError (Predicate (Carrier root)) := do
  compiler.predicateOfText schema root (← .ofExcept (textOfFile contents))

end Compiler

end RecordRules
