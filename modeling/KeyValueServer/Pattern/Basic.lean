import KeyValueServer.Pattern.Bracket
import KeyValueServer.Text.Alphanumeric

/-!
# Patterns

A pattern is a regular expression: branches with bars between them, each a sequence of symbols,
bracketed classes, groups and repetitions. A group may have a name, or set the mode in which it
is read; a mode may also be set from some place to the end of the group around it. A pattern
stands between braces and ends with the first closing one, so no repetition can be counted, and
an opening brace stands in a class only.

What a pattern matches does not matter here, only whether it can be searched for at all.

## Main definitions

* `Pattern.Opening`, `Pattern.readOpening` — what follows an opening parenthesis;
* `Pattern.readBranches` — what stands between two parentheses;
* `Pattern.isValid` — whether a text is a pattern that can be searched for.
-/

namespace KeyValueServer.Pattern

/-! ### Groups -/

/-- What follows an opening parenthesis. -/
inductive Opening
  /-- A mode for what follows, and no group. -/
  | mode (m : Mode)
  /-- A group that is read in a mode; and the names of groups so far. -/
  | group (m : Mode) (names : List (List Char))

/-- Whether a character may stand in the name of a group. -/
def isNameChar (c : Char) : Bool :=
  c == '_' || c == '.' || c == '[' || c == ']' || Text.isAlphanumeric c

/-- Whether a text names a group. -/
def isName : List Char → Bool
  | [] => false
  | c :: rest => (c == '_' || Text.isAlphabetic c) && rest.all isNameChar

/-- A name with its closing angle bracket. No two groups have the same name. -/
def readName (m : Mode) (names : List (List Char)) (s : List Char) :
    Option (Opening × List Char) :=
  let name := s.takeWhile (· != '>')
  match s.dropWhile (· != '>') with
  | [] => none
  | _ :: rest =>
    if isName name ∧ name ∉ names then some (.group m (name :: names), rest) else none

/-- The letters of the modes, and the dash that stands before those to be left. -/
def flagChars : List Char := "imsUuRx-".toList

/-- Whether a text lists flags: none twice, and a dash not as the last one. -/
def areFlags (flags : List Char) : Bool :=
  flags.all flagChars.contains && decide flags.Nodup && flags.getLast? != some '-'

/-- The mode after flags, for a flag that says how a mode was before. -/
def flagged (flags : List Char) (flag : Char) (before : Bool) : Bool :=
  if (flags.takeWhile (· != '-')).contains flag then true
  else if flags.contains flag then false
  else before

/-- The mode after flags. -/
def Mode.withFlags (m : Mode) (flags : List Char) : Mode where
  unicode := flagged flags 'u' m.unicode
  ignoreCase := flagged flags 'i' m.ignoreCase
  verbose := flagged flags 'x' m.verbose

/-- Flags, with a closing parenthesis if they hold for what follows, and with a colon if they
hold for a group. -/
def readFlags (m : Mode) (names : List (List Char)) (s : List Char) :
    Option (Opening × List Char) :=
  let flags := s.takeWhile fun c => c != ':' && c != ')'
  match s.dropWhile fun c => c != ':' && c != ')' with
  | [] => none
  | last :: rest =>
    if !areFlags flags then none
    else if last = ':' then some (.group (m.withFlags flags) names, rest)
    else if flags.isEmpty then none
    else some (.mode (m.withFlags flags), rest)

/-- What follows an opening parenthesis: a name, flags, or the group itself. -/
def readOpening (m : Mode) (names : List (List Char)) :
    List Char → Option (Opening × List Char)
  | '?' :: 'P' :: '<' :: rest => readName m names rest
  | '?' :: '<' :: rest => readName m names rest
  | '?' :: rest => readFlags m names rest
  | s => some (.group m names, s)

/-! ### Branches -/

/-- A part of a branch: its height, or flags, which cannot be repeated. -/
inductive Part
  | node (height : Nat)
  | flags

/-- The height of a part. -/
def Part.height : Part → Nat
  | node height => height
  | flags => 0

/-- The height of a branch. -/
def branchHeight (parts : List Part) : Nat :=
  heightOf (parts.map Part.height)

/-- What stands between two parentheses. -/
structure Body where
  /-- Its height. -/
  height : Nat
  /-- The names of the groups up to its end. -/
  names : List (List Char)
  /-- The characters after it: none, or those from a closing parenthesis on. -/
  rest : List Char

/-- The characters after the question mark that makes a repetition lazy, if it is there. -/
def skipLazy : List Char → List Char
  | '?' :: rest => rest
  | s => s

/-- The branches up to a closing parenthesis or the end. Of the branch that is being read
`parts` holds what has been read, the last part first, and `branches` has the heights of those
before it. All of it lies inside of `depth` groups. -/
def readBranches (depth : Nat) (m : Mode) (names : List (List Char)) (branches : List Nat)
    (parts : List Part) : Nat → List Char → Option Body
  | 0, _ => none
  | fuel + 1, s =>
    let ended (s : List Char) : Body := ⟨heightOf (branchHeight parts :: branches), names, s⟩
    let repeated (rest : List Char) : Option Body :=
      match parts with
      | .node height :: before =>
        readBranches depth m names branches (.node (1 + height) :: before) fuel (skipLazy rest)
      | _ => none
    match m.skip s with
    | [] => some (ended [])
    | ')' :: rest => some (ended (')' :: rest))
    | '|' :: rest => readBranches depth m names (branchHeight parts :: branches) [] fuel rest
    | '?' :: rest => repeated rest
    | '*' :: rest => repeated rest
    | '+' :: rest => repeated rest
    | '\x7b' :: _ => none
    | '[' :: rest =>
      match readClass m 0 fuel rest with
      | some (height, rest) =>
        readBranches depth m names branches (.node height :: parts) fuel rest
      | none => none
    | '(' :: rest =>
      match readOpening m names (m.skip rest) with
      | none => none
      | some (.mode m, rest) => readBranches depth m names branches (.flags :: parts) fuel rest
      | some (.group inner names, rest) =>
        if maxHeight ≤ depth then none
        else match readBranches (depth + 1) inner names [] [] fuel rest with
          | some ⟨height, names, ')' :: rest⟩ =>
            readBranches depth m names branches (.node (1 + height) :: parts) fuel rest
          | _ => none
    | s =>
      match readSymbol m s with
      | some (symbol, rest) =>
        if symbol.isSearchable m then
          readBranches depth m names branches (.node 0 :: parts) fuel rest
        else none
      | none => none

/-- Whether a text is a pattern that can be searched for. -/
def isValid (text : List Char) : Bool :=
  match readBranches 0 {} [] [] [] (2 * text.length + 2) text with
  | some ⟨height, _, []⟩ => height ≤ maxHeight
  | _ => false

end KeyValueServer.Pattern
