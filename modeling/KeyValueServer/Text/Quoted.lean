import KeyValueServer.Numeral
import KeyValueServer.Text.GraphemeExtend
import KeyValueServer.Text.Unprintable

/-!
# Quoted text

Error messages show foreign text between double quotes, on one line and with nothing hidden.
A quote, a backslash, a line end, a tabulator and NUL have short escapes; a character without
a visible form, or one that would attach to the character before it, is shown by its number in
hexadecimal.

## Main definitions

* `Quoted.escape` — one character as it stands between the quotes;
* `Quoted.quote` — a text with its quotes.
-/

namespace KeyValueServer.Quoted

/-- The escape by number. -/
def byNumber (c : Char) : String :=
  "\\u\x7b" ++ Numeral.hexadecimal c.toNat ++ "\x7d"

/-- A character as it stands in a quoted text. -/
def escape (c : Char) : String :=
  if c = '\x00' then "\\0"
  else if c = '\t' then "\\t"
  else if c = '\r' then "\\r"
  else if c = '\n' then "\\n"
  else if c = '\x22' then "\\\""
  else if c = '\\' then "\\\\"
  else if Text.isGraphemeExtend c || Text.isUnprintable c then byNumber c
  else c.toString

/-- A text between double quotes. -/
def quote (text : String) : String :=
  "\"" ++ String.join (text.toList.map escape) ++ "\""

end KeyValueServer.Quoted
