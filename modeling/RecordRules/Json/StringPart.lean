import RecordRules.Text.Quoted

/-!
# Reading JSON strings

The characters of a string after its opening quote, read one at a time. A `\u` escape takes four
bytes before they are judged, and a leading surrogate is completed by a second escape that follows
at once.
-/

namespace RecordRules

/-- What has been read of a string, the last character first, and the escape that is being read. -/
inductive StringPart where
  | plain (read : List Char)
  | escape (read : List Char)
  /-- The number is absent once a character is not a hexadecimal digit. -/
  | codeUnit (read : List Char) (leading : Option Nat) (bytes : Nat) (number : Option Nat)
  | surrogate (read : List Char) (leading : Nat)
  | surrogateEscape (read : List Char) (leading : Nat)

namespace StringPart

def escaped? : Char → Option Char
  | '"' => some '"'
  | '\\' => some '\\'
  | '/' => some '/'
  | 'b' => some '\x08'
  | 'f' => some '\x0c'
  | 'n' => some '\n'
  | 'r' => some '\r'
  | 't' => some '\t'
  | _ => none

def isLeading (unit : Nat) : Bool := 0xD800 ≤ unit && unit < 0xDC00

def isTrailing (unit : Nat) : Bool := 0xDC00 ≤ unit && unit < 0xE000

/-- A leading surrogate waits for its partner; a trailing one must complete a leading one. -/
def finishUnit? (read : List Char) : (leading : Option Nat) → (unit : Nat) → Option StringPart
  | none, unit =>
    if isTrailing unit then none
    else if isLeading unit then some (.surrogate read unit)
    else some (.plain (Char.ofNat unit :: read))
  | some leading, unit =>
    if isTrailing unit then
      some (.plain (Char.ofNat (0x10000 + (leading - 0xD800) * 0x400 + (unit - 0xDC00)) :: read))
    else none

/-- The closing quote is not a step of the string: it ends the string that is `plain`. -/
def step? (part : StringPart) (char : Char) : Option StringPart :=
  match part with
  | .plain read =>
    if char = '\\' then some (.escape read)
    else if char.toNat < 32 then none
    else some (.plain (char :: read))
  | .escape read =>
    if char = 'u' then some (.codeUnit read none 0 (some 0))
    else (escaped? char).map fun escaped => .plain (escaped :: read)
  | .codeUnit read leading bytes number =>
    let bytes := bytes + char.utf8Size
    let number := do return 16 * (← number) + (← Text.hexValue? char)
    if bytes < 4 then some (.codeUnit read leading bytes number)
    else number.bind (finishUnit? read leading)
  | .surrogate read leading => if char = '\\' then some (.surrogateEscape read leading) else none
  | .surrogateEscape read leading =>
    if char = 'u' then some (.codeUnit read (some leading) 0 (some 0)) else none

end StringPart

end RecordRules
