import KeyValueServer.Json.Basic

/-!
# The grammar of JSON

The grammar of RFC 8259, as relations between characters and what they are written for. It is the
measure of the readers and of the writer, and says nothing about how a text is read.

A string is related to the code points of its characters, since an escape may stand for a surrogate.
A number is related to itself: which numbers a literal may be is not a matter of the grammar.

## Main definitions

* `Json.Body`: the characters between the quotes of a string.
* `Json.IsNumber`: a number as it may be written.
* `Json.Written`: values, and what stands between the brackets of arrays and objects.
-/

namespace KeyValueServer.Json

/-! ### Blanks -/

/-- `blanks` are the characters that may stand between the parts of a text. -/
def blanks : List Char := [' ', '\t', '\n', '\r']

/-- `Blanks s`: there are only such characters. -/
def Blanks (s : List Char) : Prop := ∀ c ∈ s, c ∈ blanks

/-! ### Strings -/

/-- `HexDigit c d`: the character is a digit in base sixteen, in small or capital letters, of the
value `d`. -/
inductive HexDigit : Char → Nat → Prop
  | decimal {d : Nat} (h : d < 10) : HexDigit (Char.ofNat (48 + d)) d
  | small {d : Nat} (h : d < 6) : HexDigit (Char.ofNat (97 + d)) (10 + d)
  | capital {d : Nat} (h : d < 6) : HexDigit (Char.ofNat (65 + d)) (10 + d)

/-- `escapes` are the letters of the short escapes, and the code points that these stand for. -/
def escapes : List (Char × Nat) :=
  [('\x22', 0x22), ('\\', 0x5C), ('/', 0x2F), ('b', 0x08), ('f', 0x0C), ('n', 0x0A), ('r', 0x0D),
    ('t', 0x09)]

/-- `Body points s`: between quotes the characters are a string of these code points. A quote, a
backslash and a control character stand there only as escapes. -/
inductive Body : List Nat → List Char → Prop
  | nil : Body [] []
  | plain {points : List Nat} {s : List Char} {c : Char} (hc : 32 ≤ c.toNat) (hquote : c ≠ '\x22')
      (hback : c ≠ '\\') (hs : Body points s) : Body (c.toNat :: points) (c :: s)
  | short {points : List Nat} {s : List Char} {e : Char} {point : Nat}
      (he : (e, point) ∈ escapes) (hs : Body points s) : Body (point :: points) ('\\' :: e :: s)
  | hex {points : List Nat} {s : List Char} {a b c d : Char} {w x y z : Nat} (ha : HexDigit a w)
      (hb : HexDigit b x) (hc : HexDigit c y) (hd : HexDigit d z) (hs : Body points s) :
      Body ((((w * 16 + x) * 16 + y) * 16 + z) :: points) ('\\' :: 'u' :: a :: b :: c :: d :: s)

/-! ### Numbers -/

/-- `Digits s`: one or more decimal digits. -/
def Digits (s : List Char) : Prop := s ≠ [] ∧ ∀ c ∈ s, c.isDigit = true

/-- `Whole s`: the digits before the point, that is, a zero, or digits of which the first is
none. -/
def Whole (s : List Char) : Prop := s = ['0'] ∨ Digits s ∧ s.head? ≠ some '0'

/-- `Fraction s`: nothing, or a point and the digits after it. -/
def Fraction (s : List Char) : Prop := s = [] ∨ ∃ digits, Digits digits ∧ s = '.' :: digits

/-- `Exponent s`: nothing, or an exponent, which may have a sign of either kind. -/
def Exponent (s : List Char) : Prop :=
  s = [] ∨ ∃ e sign digits, (e = 'e' ∨ e = 'E') ∧ (sign = [] ∨ sign = ['+'] ∨ sign = ['-']) ∧
    Digits digits ∧ s = e :: (sign ++ digits)

/-- `IsMagnitude s`: a number without its sign. -/
def IsMagnitude (s : List Char) : Prop :=
  ∃ whole fraction exponent, Whole whole ∧ Fraction fraction ∧ Exponent exponent ∧
    s = whole ++ fraction ++ exponent

/-- `IsNumber s`: a number as it may be written. -/
def IsNumber (s : List Char) : Prop := IsMagnitude s ∨ ∃ rest, IsMagnitude rest ∧ s = '-' :: rest

/-! ### Values -/

/-- A `Part` is what may be written in a text. -/
inductive Part
  /-- A value. -/
  | value (v : Json)
  /-- A value with blanks around it. -/
  | padded (v : Json)
  /-- What stands between the brackets of an array that has an item. -/
  | items (vs : List Json)
  /-- What stands between the braces of an object that has a member. -/
  | members (ms : List (List Nat × Json))

/-- `Named name s`: the characters are a string of these code points with blanks around it. -/
def Named (name : List Nat) (s : List Char) : Prop :=
  ∃ before body after, Blanks before ∧ Body name body ∧ Blanks after ∧
    s = before ++ '\x22' :: (body ++ '\x22' :: after)

/-- `Written part s`: the characters are that part of a text. -/
inductive Written : Part → List Char → Prop
  | nullWord : Written (.value .null) ['n', 'u', 'l', 'l']
  | trueWord : Written (.value (.bool true)) ['t', 'r', 'u', 'e']
  | falseWord : Written (.value (.bool false)) ['f', 'a', 'l', 's', 'e']
  | number {s : List Char} (h : IsNumber s) : Written (.value (.number s)) s
  | string {points : List Nat} {s : List Char} (h : Body points s) :
      Written (.value (.string points)) ('\x22' :: (s ++ ['\x22']))
  | emptyArray {s : List Char} (h : Blanks s) : Written (.value (.array [])) ('[' :: (s ++ [']']))
  | array {vs : List Json} {s : List Char} (h : Written (.items vs) s) :
      Written (.value (.array vs)) ('[' :: (s ++ [']']))
  | emptyObject {s : List Char} (h : Blanks s) :
      Written (.value (.object [])) ('\x7b' :: (s ++ ['\x7d']))
  | object {ms : List (List Nat × Json)} {s : List Char} (h : Written (.members ms) s) :
      Written (.value (.object ms)) ('\x7b' :: (s ++ ['\x7d']))
  | padded {v : Json} {before s after : List Char} (hbefore : Blanks before)
      (h : Written (.value v) s) (hafter : Blanks after) :
      Written (.padded v) (before ++ (s ++ after))
  | lastItem {v : Json} {s : List Char} (h : Written (.padded v) s) : Written (.items [v]) s
  | item {v : Json} {vs : List Json} {s t : List Char} (h : Written (.padded v) s)
      (ht : Written (.items vs) t) : Written (.items (v :: vs)) (s ++ ',' :: t)
  | lastMember {name : List Nat} {v : Json} {n s : List Char} (hn : Named name n)
      (h : Written (.padded v) s) : Written (.members [(name, v)]) (n ++ ':' :: s)
  | member {name : List Nat} {v : Json} {ms : List (List Nat × Json)} {n s t : List Char}
      (hn : Named name n) (h : Written (.padded v) s) (ht : Written (.members ms) t) :
      Written (.members ((name, v) :: ms)) (n ++ ':' :: (s ++ ',' :: t))

end KeyValueServer.Json
