import RecordRules.Text.Hidden
import RecordRules.Text.Quoted

/-!
# Debug texts

How values are spelled for a developer: `Name(a, b)` for positional parts, braces around named
parts and `[a, b]` for lists, on one line.
-/

namespace RecordRules.Text.Dump

def escape (char : Char) : List Char :=
  if char = '"' then ['\\', '"']
  else if char = '\\' then ['\\', '\\']
  else if char = '\n' then ['\\', 'n']
  else if char = '\r' then ['\\', 'r']
  else if char = '\t' then ['\\', 't']
  else if char = '\x00' then ['\\', '0']
  else if isHidden char then
    ['\\', 'u', '\x7b'] ++ Nat.toDigits 16 char.toNat ++ ['\x7d']
  else [char]

def string (text : String) : String := quoted escape text

def commas (parts : List String) : String := String.intercalate ", " parts

def list (elements : List String) : String := "[" ++ commas elements ++ "]"

def tuple (name : String) (parts : List String) : String := name ++ "(" ++ commas parts ++ ")"

def fieldsText (fields : List (String × String)) : List String :=
  fields.map fun (name, value) => name ++ ": " ++ value

def record (name : String) (fields : List (String × String)) : String :=
  name ++ " \x7b " ++ commas (fieldsText fields) ++ " \x7d"

/-- Two dots at the end say that there are parts which are not shown. -/
def openRecord (name : String) (fields : List (String × String)) : String :=
  name ++ " \x7b " ++ commas (fieldsText fields ++ [".."]) ++ " \x7d"

end RecordRules.Text.Dump
