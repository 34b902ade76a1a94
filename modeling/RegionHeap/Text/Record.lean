import RegionHeap.Text.Mark
import RegionHeap.Text.Unseen

/-!
# Records as text

The one-line text of a record: its name, then its fields in order between
braces. A record that keeps some of its fields to itself ends in two dots.
Quoted text inside a record escapes quotes and backslashes, and every character that
could not be told from the text around it: those that cannot be seen, and marks.
-/

namespace RegionHeap.Text

/-- A record whose fields are all shown. -/
def record (name : String) (fields : List (String × String)) : String :=
  name ++ " \x7b " ++ ", ".intercalate (fields.map fun f => f.1 ++ ": " ++ f.2) ++ " \x7d"

/-- A record that has more fields than it shows. -/
def partialRecord (name : String) (fields : List (String × String)) : String :=
  name ++ " \x7b " ++ String.join (fields.map fun f => f.1 ++ ": " ++ f.2 ++ ", ") ++ ".. \x7d"

/-- A value wrapped in a single-field constructor. -/
def wrapped (name : String) (value : Nat) : String :=
  name ++ "(" ++ toString value ++ ")"

/-- A character by its code point. -/
def escapeByNumber (c : Char) : List Char :=
  ['\\', 'u', '\x7b'] ++ Nat.toDigits 16 c.toNat ++ ['\x7d']

/-- How one character is written between quotes. -/
def escape (c : Char) : List Char :=
  if c = '"' then ['\\', '"']
  else if c = '\\' then ['\\', '\\']
  else if c = '\n' then ['\\', 'n']
  else if c = '\r' then ['\\', 'r']
  else if c = '\t' then ['\\', 't']
  else if c.toNat = 0 then ['\\', '0']
  else if isUnseen c || isMark c then escapeByNumber c
  else [c]

/-- Text between double quotes. -/
def quoted (s : String) : String :=
  String.ofList ('"' :: s.toList.flatMap escape ++ ['"'])

/-- The text of a truth value. -/
def flag (b : Bool) : String :=
  if b then "true" else "false"

end RegionHeap.Text
