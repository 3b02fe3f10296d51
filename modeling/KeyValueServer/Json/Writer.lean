import KeyValueServer.Numeral

/-!
# Writing JSON

The compact form: no blanks, members in the order given. In a string a quote, a backslash and
the control characters below the blank are escaped, the common ones by a letter; every other
character stands for itself.

## Main definitions

* `Json.escaped`, `Json.quoted` — a character in a string, and a string;
* `Json.objectText` — an object of members that are already written.
-/

namespace KeyValueServer.Json

/-- The escape of a control character by its number. -/
def controlEscape (c : Char) : List Char :=
  ['\\', 'u', '0', '0', Nat.digitChar (c.toNat / 16), Nat.digitChar (c.toNat % 16)]

/-- A character as it stands in a string. -/
def escaped (c : Char) : List Char :=
  if c = '\x22' then ['\\', '\x22']
  else if c = '\\' then ['\\', '\\']
  else if c = '\x08' then ['\\', 'b']
  else if c = '\x0c' then ['\\', 'f']
  else if c = '\n' then ['\\', 'n']
  else if c = '\r' then ['\\', 'r']
  else if c = '\t' then ['\\', 't']
  else if c.toNat < 32 then controlEscape c
  else [c]

/-- A text as a string. -/
def quoted (text : String) : List Char :=
  '\x22' :: (text.toList.flatMap escaped ++ ['\x22'])

/-- A name and a written value. -/
def memberText (name : String) (value : List Char) : List Char :=
  quoted name ++ ':' :: value

/-- Written members with commas between them. -/
def commaSeparated : List (List Char) → List Char
  | [] => []
  | [part] => part
  | part :: parts => part ++ ',' :: commaSeparated parts

/-- An object of names and written values. -/
def objectText (members : List (String × List Char)) : List Char :=
  '\x7b' :: (commaSeparated (members.map fun (name, value) => memberText name value) ++ ['\x7d'])

/-- A natural number. -/
def naturalText (n : Nat) : List Char :=
  Nat.toDigits 10 n

end KeyValueServer.Json
