import KeyValueServer.Numeral

/-!
# JSON values

The syntax tree of a JSON text. Numbers are kept as they are written, because a setting admits
an integer only where it is written as one. The characters of a string are kept as code
points, because an escape may stand for half of a surrogate pair, which JSON admits and text
does not.

## Main definitions

* `Json` — the syntax tree;
* `Json.pairs?` — the text of a string, if its surrogates are paired;
* `Json.text?`, `Json.naturalBelow?` — a tree read as a text, or as a natural number.
-/

namespace KeyValueServer

/-- The syntax tree of a JSON text. -/
inductive Json
  | null
  | bool (b : Bool)
  /-- A number as it is written. -/
  | number (literal : List Char)
  /-- A string, by the code points of its characters. -/
  | string (points : List Nat)
  | array (items : List Json)
  /-- The members of an object in order. A name may stand there more than once. -/
  | object (members : List (List Nat × Json))

namespace Json

/-- Whether a code point is the first half of a surrogate pair. -/
def isHighSurrogate (point : Nat) : Bool :=
  0xD800 ≤ point && point ≤ 0xDBFF

/-- Whether a code point is the second half of a surrogate pair. -/
def isLowSurrogate (point : Nat) : Bool :=
  0xDC00 ≤ point && point ≤ 0xDFFF

/-- The code point that a surrogate pair stands for. -/
def paired (high low : Nat) : Nat :=
  (high - 0xD800) * 0x400 + (low - 0xDC00) + 0x10000

/-- The characters of code points, with each surrogate pair as one character. A surrogate that
has no partner is no character. -/
def pairs? : List Nat → Option (List Char)
  | [] => some []
  | [point] =>
    if isHighSurrogate point || isLowSurrogate point then none else some [Char.ofNat point]
  | point :: next :: rest =>
    if isHighSurrogate point then
      if isLowSurrogate next then (pairs? rest).map (Char.ofNat (paired point next) :: ·) else none
    else if isLowSurrogate point then none
    else (pairs? (next :: rest)).map (Char.ofNat point :: ·)

/-- The text of code points. -/
def textOf? (points : List Nat) : Option String :=
  (pairs? points).map String.ofList

/-- The text that a tree is. -/
def text? : Json → Option String
  | string points => textOf? points
  | _ => none

/-- The natural number below `bound` that a tree is. A sign, a fraction or an exponent make it
none, whatever its value. -/
def naturalBelow? (bound : Nat) : Json → Option Nat
  | number literal => Numeral.naturalBelow? bound (Bytes.ofText (String.ofList literal))
  | _ => none

end Json

end KeyValueServer
