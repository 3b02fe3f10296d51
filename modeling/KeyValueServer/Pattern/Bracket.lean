import KeyValueServer.Pattern.Symbol

/-!
# Bracketed classes

A class between brackets holds characters, ranges of them, classes by name, and other bracketed
classes; two such lists may be combined by `&&`, `--` and `~~`. A caret after the bracket stands
for all that the class does not hold.

How deep a pattern nests is bounded, so a reader of a class gives its height: that of one item is
its own, and a list of several, a combination, or another pair of brackets each add one.

## Main definitions

* `Pattern.heightOf` — the height of a list of parts;
* `Pattern.readRange` — one character or a range;
* `Pattern.readNamed` — a class by name;
* `Pattern.readClass` — what stands between two brackets.
-/

namespace KeyValueServer.Pattern

/-- The greatest height of a pattern. -/
def maxHeight : Nat := 250

/-- The height of parts that stand side by side. One part by itself is no list. -/
def heightOf : List Nat → Nat
  | [] => 0
  | [height] => height
  | heights => 1 + heights.foldl max 0

/-! ### Items -/

/-- The characters after one symbol or a range of two literals. A dash before the closing
bracket or another dash makes no range. -/
def readRange (m : Mode) (s : List Char) : Option (List Char) := do
  let (first, s) ← readMember m s
  match m.skip s with
  | '-' :: rest =>
    if m.peek? rest = some ']' ∨ m.peek? rest = some '-' then
      if first.isMember m then some ('-' :: rest) else none
    else
      match first, ← readMember m (m.skip rest) with
      | .literal a isByteA, (.literal b isByteB, s) =>
        if a.toNat ≤ b.toNat ∧ (Symbol.literal a isByteA).isMember m
          ∧ (Symbol.literal b isByteB).isMember m then some s
        else none
      | _, _ => none
  | s => if first.isMember m then some s else none

/-- The classes that have a name. -/
def classNames : List String :=
  ["alnum", "alpha", "ascii", "blank", "cntrl", "digit", "graph", "lower", "print", "punct",
   "space", "upper", "word", "xdigit"]

/-- A class by name, after its opening bracket: a colon, a caret if it is negated, the name, a
colon and the closing bracket. Gives whether it is negated. -/
def readNamed : List Char → Option (Bool × List Char)
  | ':' :: rest =>
    let negated := rest.head? == some '^'
    let rest := if negated then rest.drop 1 else rest
    let name := rest.takeWhile (· != ':')
    match rest.dropWhile (· != ':') with
    | ':' :: ']' :: rest =>
      if classNames.contains (String.ofList name) then some (negated, rest) else none
    | _ => none
  | _ => none

/-- Whether a class by name may stand in a class. -/
def isNamedMember (m : Mode) (negated : Bool) : Bool :=
  if m.unicode then !m.ignoreCase else !negated

/-- How many dashes come next, with nothing but blanks between them, and the characters after
them. -/
def readDashes (m : Mode) (count : Nat) : Nat → List Char → Nat × List Char
  | 0, s => (count, s)
  | fuel + 1, '-' :: rest => readDashes m (count + 1) fuel (m.skip rest)
  | _ + 1, s => (count, s)

/-- The start of a class after its opening bracket: a caret if it is negated, then dashes that
are literals; and where there is none, a closing bracket that is a literal. Gives whether the
class is negated, and how many literals there are. -/
def readStart (m : Mode) (fuel : Nat) (s : List Char) : Bool × Nat × List Char :=
  let s := m.skip s
  let negated := s.head? == some '^'
  let s := if negated then m.skip (s.drop 1) else s
  match readDashes m 0 fuel s with
  | (0, ']' :: rest) => (negated, 1, m.skip rest)
  | (count, s) => (negated, count, s)

/-! ### Classes -/

/-- The height of a list of items that may be combined with what stands before it. -/
def combined (before : Option Nat) (items : List Nat) : Nat :=
  match before with
  | some height => 1 + max height (heightOf items)
  | none => heightOf items

mutual

/-- The height of a class and the characters after it, from behind its opening bracket on. It
lies inside of `depth` other classes. -/
def readClass (m : Mode) (depth : Nat) : Nat → List Char → Option (Nat × List Char)
  | 0, _ => none
  | fuel + 1, s =>
    let (negated, literals, s) := readStart m fuel s
    if maxHeight ≤ depth ∨ (negated ∧ ¬ m.unicode) ∨ (0 < literals ∧ m.unicode ∧ m.ignoreCase)
    then none
    else (readItems m depth none (List.replicate literals 0) fuel s).map fun (height, s) =>
      (1 + height, s)

/-- The height of the items up to the closing bracket, and the characters after it. Of those
read so far `items` has the heights, after a combination of the height `before`. -/
def readItems (m : Mode) (depth : Nat) (before : Option Nat) (items : List Nat) :
    Nat → List Char → Option (Nat × List Char)
  | 0, _ => none
  | fuel + 1, s =>
    match m.skip s with
    | [] => none
    | ']' :: rest => some (combined before items, rest)
    | '&' :: '&' :: rest => readItems m depth (some (combined before items)) [] fuel rest
    | '-' :: '-' :: rest => readItems m depth (some (combined before items)) [] fuel rest
    | '~' :: '~' :: rest => readItems m depth (some (combined before items)) [] fuel rest
    | '[' :: rest =>
      match readNamed rest with
      | some (negated, rest) =>
        if isNamedMember m negated then readItems m depth before (0 :: items) fuel rest else none
      | none =>
        match readClass m (depth + 1) fuel rest with
        | some (height, rest) => readItems m depth before (height :: items) fuel rest
        | none => none
    | s =>
      match readRange m s with
      | some rest => readItems m depth before (0 :: items) fuel rest
      | none => none

end

end KeyValueServer.Pattern
