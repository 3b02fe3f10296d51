import KeyValueServer.Json.Basic

/-!
# Reading JSON

The grammar is that of RFC 8259 and nothing beside it: no comments, no trailing commas, no
leading zeros or plus signs, no control characters inside strings, four kinds of blanks, and
nothing but blanks around the one value of a text.

Each reader takes the characters that are left and gives what it has read with the characters
after it. Nested values take a depth that every step lowers; `Json.parse?` starts with one that
no text exhausts.

## Main definitions

* `Json.readString`, `Json.readNumber`, `Json.readValue` — the parts of the grammar;
* `Json.parse?` — a whole text.
-/

namespace KeyValueServer.Json

/-- Whether a character may stand between the parts of a text. -/
def isBlank (c : Char) : Bool :=
  c == ' ' || c == '\n' || c == '\t' || c == '\r'

/-- The characters after the blanks. -/
def skipBlanks (s : List Char) : List Char :=
  s.dropWhile isBlank

/-- The characters after a given beginning, if they begin so. -/
def after? : List Char → List Char → Option (List Char)
  | [], s => some s
  | _ :: _, [] => none
  | a :: rest, b :: s => if a = b then after? rest s else none

/-! ### Strings -/

/-- The value of four digits in base sixteen. -/
def hexFour? (a b c d : Char) : Option Nat := do
  let a ← Numeral.digitOf? 16 a
  let b ← Numeral.digitOf? 16 b
  let c ← Numeral.digitOf? 16 c
  let d ← Numeral.digitOf? 16 d
  some (((a * 16 + b) * 16 + c) * 16 + d)

/-- The code point of an escape of one letter. -/
def shortEscape? (c : Char) : Option Nat :=
  if c = '\x22' ∨ c = '\\' ∨ c = '/' then some c.toNat
  else if c = 'b' then some 8
  else if c = 'f' then some 12
  else if c = 'n' then some 10
  else if c = 'r' then some 13
  else if c = 't' then some 9
  else none

/-- The code points of a string after its opening quote, and the characters after its closing
quote. -/
def readString : List Char → Option (List Nat × List Char)
  | [] => none
  | '\x22' :: rest => some ([], rest)
  | '\\' :: 'u' :: a :: b :: c :: d :: rest => do
    let point ← hexFour? a b c d
    let (points, rest) ← readString rest
    some (point :: points, rest)
  | '\\' :: e :: rest => do
    let point ← shortEscape? e
    let (points, rest) ← readString rest
    some (point :: points, rest)
  | c :: rest =>
    if c.toNat < 32 ∨ c = '\\' then none
    else do
      let (points, rest) ← readString rest
      some (c.toNat :: points, rest)

/-! ### Numbers -/

/-- One or more digits, and the characters after them. -/
def readDigits (s : List Char) : Option (List Char × List Char) :=
  match s.takeWhile Char.isDigit with
  | [] => none
  | digits => some (digits, s.dropWhile Char.isDigit)

/-- The digits before the point: a single zero, or digits that start with another. -/
def readWhole : List Char → Option (List Char × List Char)
  | '0' :: rest => some (['0'], rest)
  | s => readDigits s

/-- The point and the digits after it, if there is a point. -/
def readFraction : List Char → Option (List Char × List Char)
  | '.' :: rest => do
    let (digits, rest) ← readDigits rest
    some ('.' :: digits, rest)
  | s => some ([], s)

/-- The sign of an exponent, if there is one. -/
def readSign : List Char → List Char × List Char
  | '+' :: rest => (['+'], rest)
  | '-' :: rest => (['-'], rest)
  | s => ([], s)

/-- The exponent, if there is one. -/
def readExponent : List Char → Option (List Char × List Char)
  | c :: rest =>
    if c = 'e' ∨ c = 'E' then do
      let (sign, rest) := readSign rest
      let (digits, rest) ← readDigits rest
      some (c :: sign ++ digits, rest)
    else some ([], c :: rest)
  | [] => some ([], [])

/-- The number without its sign. -/
def readMagnitude (s : List Char) : Option (List Char × List Char) := do
  let (whole, s) ← readWhole s
  let (fraction, s) ← readFraction s
  let (exponent, s) ← readExponent s
  some (whole ++ fraction ++ exponent, s)

/-- A number as it is written, and the characters after it. -/
def readNumber : List Char → Option (List Char × List Char)
  | '-' :: rest => do
    let (magnitude, rest) ← readMagnitude rest
    some ('-' :: magnitude, rest)
  | s => readMagnitude s

/-! ### Values -/

mutual

/-- A value after any blanks. -/
def readValue : Nat → List Char → Option (Json × List Char)
  | 0, _ => none
  | depth + 1, s =>
    match skipBlanks s with
    | [] => none
    | '\x22' :: rest => do
      let (points, rest) ← readString rest
      some (.string points, rest)
    | '[' :: rest =>
      match skipBlanks rest with
      | ']' :: rest => some (.array [], rest)
      | rest => do
        let (items, rest) ← readItems depth rest
        some (.array items, rest)
    | '\x7b' :: rest =>
      match skipBlanks rest with
      | '\x7d' :: rest => some (.object [], rest)
      | rest => do
        let (members, rest) ← readMembers depth rest
        some (.object members, rest)
    | 'n' :: rest => (after? ['u', 'l', 'l'] rest).map (.null, ·)
    | 't' :: rest => (after? ['r', 'u', 'e'] rest).map (.bool true, ·)
    | 'f' :: rest => (after? ['a', 'l', 's', 'e'] rest).map (.bool false, ·)
    | rest => do
      let (literal, rest) ← readNumber rest
      some (.number literal, rest)

/-- The items of an array that has one, up to its closing bracket. -/
def readItems : Nat → List Char → Option (List Json × List Char)
  | 0, _ => none
  | depth + 1, s => do
    let (item, rest) ← readValue depth s
    match skipBlanks rest with
    | ',' :: rest => do
      let (items, rest) ← readItems depth rest
      some (item :: items, rest)
    | ']' :: rest => some ([item], rest)
    | _ => none

/-- The members of an object that has one, up to its closing brace. -/
def readMembers : Nat → List Char → Option (List (List Nat × Json) × List Char)
  | 0, _ => none
  | depth + 1, s =>
    match skipBlanks s with
    | '\x22' :: rest => do
      let (name, rest) ← readString rest
      match skipBlanks rest with
      | ':' :: rest => do
        let (value, rest) ← readValue depth rest
        match skipBlanks rest with
        | ',' :: rest => do
          let (members, rest) ← readMembers depth rest
          some ((name, value) :: members, rest)
        | '\x7d' :: rest => some ([(name, value)], rest)
        | _ => none
      | _ => none
    | _ => none

end

/-- The value of a text that holds one value and blanks. -/
def parse? (text : String) : Option Json := do
  let s := text.toList
  let (value, rest) ← readValue (2 * s.length + 1) s
  if (skipBlanks rest).isEmpty then some value else none

end KeyValueServer.Json
