import KeyValueServer.Numeral
import KeyValueServer.Text.Blank

/-!
# Symbols of a pattern

A pattern is a regular expression. This module reads the smallest parts of one, a character or
an escape, and says which of them can be searched for. The search knows no tables of Unicode: no
classes of letters, no pairs of capital and small letters. It never looks at bytes that are only
a part of a character either, so a part of a pattern that might match such bytes is refused too.

A reader takes the characters that are left, and gives what it has read with those after it; or
nothing, if there is no pattern that goes on like this.

## Main definitions

* `Pattern.Mode` — how the characters of a pattern are read;
* `Pattern.Symbol`, `Pattern.readSymbol` — the parts and their reader;
* `Pattern.Symbol.isSearchable`, `Pattern.Symbol.isMember` — which of them may stand in a
  pattern, and which in a bracketed class.
-/

namespace KeyValueServer.Pattern

/-- How the characters of a pattern are read. -/
structure Mode where
  /-- Whether a match is made of characters; otherwise it is made of bytes. -/
  unicode : Bool := true
  /-- Whether capital and small letters match each other. -/
  ignoreCase : Bool := false
  /-- Whether blanks and comments are passed over. -/
  verbose : Bool := false

namespace Mode

/-- The characters after blanks and comments. A comment starts with a hash sign and ends with
its line. -/
def skipComments (inComment : Bool) : List Char → List Char
  | [] => []
  | c :: rest =>
    if inComment then skipComments (c != '\n') rest
    else if Text.isBlank c then skipComments false rest
    else if c = '#' then skipComments true rest
    else c :: rest

/-- The characters after those that the mode passes over. -/
def skip (m : Mode) (s : List Char) : List Char :=
  if m.verbose then skipComments false s else s

/-- The character that decides whether a dash before `s` stands for a range. Where blanks are
passed over, one hash sign is passed over like a blank; where nothing else follows, the
character right after the dash decides. -/
def peek? (m : Mode) (s : List Char) : Option Char :=
  if m.verbose then
    match s.dropWhile Text.isBlank with
    | [] => s.head?
    | '#' :: rest => (rest.dropWhile Text.isBlank).head?.or s.head?
    | c :: _ => some c
  else s.head?

end Mode

/-- The smallest parts of a pattern. -/
inductive Symbol
  /-- A character, and whether it is written as a byte in two digits of base sixteen. -/
  | literal (c : Char) (isByte : Bool)
  /-- Any digit, any blank or any character of a word; or, negated, any other character. -/
  | category (negated : Bool)
  /-- Any character of a line. -/
  | any
  /-- The start or the end of a text or a line. -/
  | anchor
  /-- A place where a word starts or ends, or where none does. -/
  | border

namespace Symbol

/-- Whether a symbol may stand in a pattern by itself. -/
def isSearchable (m : Mode) : Symbol → Bool
  | literal c isByte => if m.unicode then !m.ignoreCase else !(isByte && 0x7F < c.toNat)
  | category negated => !m.unicode && !negated
  | any => m.unicode
  | anchor => true
  | border => !m.unicode

/-- Whether a symbol may stand in a bracketed class. A class of bytes holds ASCII alone. -/
def isMember (m : Mode) : Symbol → Bool
  | literal c _ => if m.unicode then !m.ignoreCase else c.toNat ≤ 0x7F
  | category negated => !m.unicode && !negated
  | any | anchor | border => false

end Symbol

/-! ### Escapes -/

/-- A character by its number in a fixed count of digits in base sixteen, after the digits
whose value is given. -/
def readCode (m : Mode) (value : Nat) : Nat → List Char → Option (Char × List Char)
  | 0, s => if value.isValidChar then some (Char.ofNat value, s) else none
  | count + 1, s =>
    match m.skip s with
    | [] => none
    | c :: rest => (Numeral.digitOf? 16 c).bind fun d => readCode m (value * 16 + d) count rest

/-- The characters that a small letter after a backslash stands for. -/
def controls : List (Char × Char) :=
  [('a', '\x07'), ('f', '\x0c'), ('n', '\n'), ('r', '\r'), ('t', '\t'), ('v', '\x0b')]

/-- The symbol of an escape, from the character after its backslash on. A letter or a digit
without a meaning is refused; any other ASCII character stands for itself. -/
def readEscape (m : Mode) : List Char → Option (Symbol × List Char)
  | [] => none
  | 'x' :: rest => (readCode m 0 2 rest).map fun (c, rest) => (.literal c true, rest)
  | 'u' :: rest => (readCode m 0 4 rest).map fun (c, rest) => (.literal c false, rest)
  | 'U' :: rest => (readCode m 0 8 rest).map fun (c, rest) => (.literal c false, rest)
  | c :: rest =>
    if "dsw".toList.contains c then some (.category false, rest)
    else if "DSW".toList.contains c then some (.category true, rest)
    else if "Az".toList.contains c then some (.anchor, rest)
    else if "bB<>".toList.contains c then some (.border, rest)
    else match controls.lookup c with
      | some control => some (.literal control false, rest)
      | none =>
        if c.toNat ≤ 0x7F && !c.isAlphanum then some (.literal c false, rest) else none

/-- A symbol outside of brackets. -/
def readSymbol (m : Mode) : List Char → Option (Symbol × List Char)
  | [] => none
  | '\\' :: rest => readEscape m rest
  | '.' :: rest => some (.any, rest)
  | '^' :: rest => some (.anchor, rest)
  | '$' :: rest => some (.anchor, rest)
  | c :: rest => some (.literal c false, rest)

/-- A symbol between brackets, where only the backslash is special. -/
def readMember (m : Mode) : List Char → Option (Symbol × List Char)
  | [] => none
  | '\\' :: rest => readEscape m rest
  | c :: rest => some (.literal c false, rest)

end KeyValueServer.Pattern
