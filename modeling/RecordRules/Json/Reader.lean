import RecordRules.Json.Basic
import RecordRules.Json.StringPart
import RecordRules.Numeral.Reader

/-!
# Reading JSON text

A machine that takes one character at a time. It knows the value that is being read and the
containers that are open around it; a container is opened only while fewer than `limit` are open.
A character that cannot come next makes the text malformed, and a text that ends before its value
does is unfinished.

A number can also be given as a tagged numeral: an object whose first key is `numeralKey` and whose
only value is a string that spells the number. Where another key comes first, `numeralKey` is a key
like any other.
-/

namespace RecordRules.Json

/-- The key that writers of numbers with unbounded precision tag a numeral with. -/
def numeralKey : String := "$serde_json::private::Number"

inductive ReadError where
  | malformed
  | unfinished
  /-- What is tagged as a numeral is not the text of one. -/
  | notANumeral
  deriving DecidableEq, Repr

/-- An open container, without the value that is being read inside it. Elements are held last
first. -/
inductive Frame where
  | array (elements : List Json)
  | object (members : Members) (key : String)
  | numeral

/-- What the next character belongs to. -/
inductive Mode where
  | value
  | firstElement
  | firstKey
  | key (members : Members)
  | keyText (members : Members) (part : StringPart)
  | colon (members : Members) (key : String)
  | string (part : StringPart)
  | number (part : NumeralPart)
  | word (rest : List Char) (value : Json)
  | done (value : Json)

structure State where
  mode : Mode
  frames : List Frame

def isBlank (char : Char) : Bool :=
  char = ' ' || char = '\t' || char = '\n' || char = '\r'

def wellFormed {α : Type} : Option α → Except ReadError α
  | some next => .ok next
  | none => .error .malformed

/-- The number that a tagged value spells. -/
def taggedNumber : Json → Except ReadError Json
  | .string text =>
    match Numeral.ofText? text with
    | some numeral => .ok (.number numeral)
    | none => .error .notANumeral
  | _ => .error .notANumeral

/-- A container is never a numeral, however many are open. -/
def openContainer (limit : Nat) (frames : List Frame) (opened : State) : Except ReadError State :=
  match frames with
  | .numeral :: _ => .error .notANumeral
  | _ => if frames.length < limit then .ok opened else .error .malformed

/-- A value begins. -/
def beginValue (limit : Nat) (frames : List Frame) (char : Char) : Except ReadError State :=
  if char = '[' then openContainer limit frames ⟨.firstElement, .array [] :: frames⟩
  else if char = '\x7b' then openContainer limit frames ⟨.firstKey, frames⟩
  else if char = '"' then .ok ⟨.string (.plain []), frames⟩
  else if char = 'n' then .ok ⟨.word ['u', 'l', 'l'] .null, frames⟩
  else if char = 't' then .ok ⟨.word ['r', 'u', 'e'] (.bool true), frames⟩
  else if char = 'f' then .ok ⟨.word ['a', 'l', 's', 'e'] (.bool false), frames⟩
  else (wellFormed (NumeralPart.start? char)).map fun part => ⟨.number part, frames⟩

/-- Only the first key of an object can tag a numeral. -/
def memberFrame (members : Members) (key : String) : Frame :=
  if members.isEmpty && key = numeralKey then .numeral else .object members key

/-- A value has been read, and its container goes on or is closed. -/
def afterValue (value : Json) (frames : List Frame) (char : Char) : Except ReadError State :=
  match frames with
  | [] => if isBlank char then .ok ⟨.done value, []⟩ else .error .malformed
  | .array elements :: outer =>
    if isBlank char then .ok ⟨.done value, frames⟩
    else if char = ',' then .ok ⟨.value, .array (value :: elements) :: outer⟩
    else if char = ']' then .ok ⟨.done (.array (value :: elements).reverse), outer⟩
    else .error .malformed
  | .object members key :: outer =>
    if isBlank char then .ok ⟨.done value, frames⟩
    else if char = ',' then .ok ⟨.key (insertMember key value members), outer⟩
    else if char = '\x7d' then .ok ⟨.done (.object (insertMember key value members)), outer⟩
    else .error .malformed
  | .numeral :: outer => do
    let number ← taggedNumber value
    if isBlank char then .ok ⟨.done value, frames⟩
    else if char = '\x7d' then .ok ⟨.done number, outer⟩
    else .error .malformed

def State.step (limit : Nat) (state : State) (char : Char) : Except ReadError State :=
  let frames := state.frames
  match state.mode with
  | .value => if isBlank char then .ok state else beginValue limit frames char
  | .firstElement =>
    if isBlank char then .ok state
    else if char = ']' then
      match frames with
      | .array elements :: outer => .ok ⟨.done (.array elements.reverse), outer⟩
      | _ => .error .malformed
    else beginValue limit frames char
  | .firstKey =>
    if isBlank char then .ok state
    else if char = '\x7d' then .ok ⟨.done (.object []), frames⟩
    else if char = '"' then .ok ⟨.keyText [] (.plain []), frames⟩
    else .error .malformed
  | .key members =>
    if isBlank char then .ok state
    else if char = '"' then .ok ⟨.keyText members (.plain []), frames⟩
    else .error .malformed
  | .keyText members part =>
    match part, char with
    | .plain read, '"' => .ok ⟨.colon members (String.ofList read.reverse), frames⟩
    | _, _ => (wellFormed (part.step? char)).map fun next => ⟨.keyText members next, frames⟩
  | .colon members key =>
    if isBlank char then .ok state
    else if char = ':' then .ok ⟨.value, memberFrame members key :: frames⟩
    else .error .malformed
  | .string part =>
    match part, char with
    | .plain read, '"' => .ok ⟨.done (.string (String.ofList read.reverse)), frames⟩
    | _, _ => (wellFormed (part.step? char)).map fun next => ⟨.string next, frames⟩
  | .number part =>
    match part.step? char, part.numeral? with
    | some next, _ => .ok ⟨.number next, frames⟩
    | none, some numeral =>
      -- A digit follows a numeral only where a superfluous zero stands in front.
      if (Digit.ofChar? char).isSome then .error .malformed
      else afterValue (.number numeral) frames char
    | none, none => .error .malformed
  | .word rest value =>
    match rest with
    | [] => .error .malformed
    | [last] => if char = last then .ok ⟨.done value, frames⟩ else .error .malformed
    | next :: others =>
      if char = next then .ok ⟨.word others value, frames⟩ else .error .malformed
  | .done value => afterValue value frames char

def State.start : State := ⟨.value, []⟩

/-- The value that is whole if no character follows. -/
def State.value? (state : State) : Option Json :=
  match state.mode with
  | .done value => some value
  | .number part => part.numeral?.map .number
  | _ => none

/-- The text ends here. -/
def State.finish (state : State) : Except ReadError Json :=
  match state.value?, state.frames with
  | some value, [] => .ok value
  | some value, .numeral :: _ => do
    let _ ← taggedNumber value
    .error .unfinished
  | _, _ => .error .unfinished

/-- Reads the value of a whole text in which at most `limit` containers are open at a time. -/
def readWithin (limit : Nat) (text : String) : Except ReadError Json := do
  let last ← text.toList.foldlM (State.step limit) State.start
  last.finish

def depthLimit : Nat := 127

def ofText (text : String) : Except ReadError Json := readWithin depthLimit text

end RecordRules.Json
