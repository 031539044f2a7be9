import RecordRules.Json.Basic
import RecordRules.Text.Quoted

/-!
# Compact JSON text

The text of a value without blanks. Only what a string may not hold as it stands is escaped: the
quote, the backslash and the control characters below the space.
-/

namespace RecordRules.Json

def escape (char : Char) : List Char :=
  if char = '"' then ['\\', '"']
  else if char = '\\' then ['\\', '\\']
  else if char = '\x08' then ['\\', 'b']
  else if char = '\t' then ['\\', 't']
  else if char = '\n' then ['\\', 'n']
  else if char = '\x0c' then ['\\', 'f']
  else if char = '\r' then ['\\', 'r']
  else if char.toNat < 32 then ['\\', 'u'] ++ Text.hexDigits 4 char.toNat
  else [char]

def stringText (text : String) : String := Text.quoted escape text

mutual

def text : Json → String
  | .null => "null"
  | .bool value => toString value
  | .number numeral => numeral.text
  | .string text => stringText text
  | .array elements => "[" ++ String.intercalate "," (elementTexts elements) ++ "]"
  | .object members => "\x7b" ++ String.intercalate "," (memberTexts members) ++ "\x7d"

def elementTexts : List Json → List String
  | [] => []
  | element :: rest => element.text :: elementTexts rest

def memberTexts : List (String × Json) → List String
  | [] => []
  | (key, value) :: rest => (stringText key ++ ":" ++ value.text) :: memberTexts rest

end

@[simp]
theorem elementTexts_eq (elements : List Json) : elementTexts elements = elements.map text := by
  induction elements with
  | nil => rfl
  | cons element rest ih => simp [elementTexts, ih]

@[simp]
theorem memberTexts_eq (members : Members) :
    memberTexts members = members.map fun (key, value) => stringText key ++ ":" ++ value.text := by
  induction members with
  | nil => rfl
  | cons member rest ih => simp [memberTexts, ih]

end RecordRules.Json
