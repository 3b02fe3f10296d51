import KeyValueServer.Fault
import KeyValueServer.Numeral
import KeyValueServer.Pattern.Basic

/-!
# Log filters

A log filter is a list of directives with commas between them. A directive gives a level, or a
target, or both; and after the target it may name a span in brackets, with a field of the span in
braces. Which messages a filter selects does not matter to the server, only whether it is a
filter at all.

A directive is judged without the blanks around it, character by character. The level and the
field in it are cut out of the text with those blanks, though, at the bytes where they would lie
without them. A cut inside of a character is a fault.

## Main definitions

* `LogFilter.isLevel`, `LogFilter.isField` — levels and fields;
* `LogFilter.State` — where the reading of a directive stands;
* `LogFilter.isDirective`, `LogFilter.isValid` — the grammar.
-/

namespace KeyValueServer.LogFilter

/-! ### Cuts -/

/-- The first `n` bytes of a text and the others, as characters. A cut lies where a character
begins or the text ends. -/
def cutAt : Nat → List Char → Checked (List Char × List Char)
  | 0, text => .ok ([], text)
  | _ + 1, [] => .error .outOfRange
  | n + 1, c :: rest =>
    if c.utf8Size ≤ n + 1 then
      (cutAt (n + 1 - c.utf8Size) rest).map fun (before, after) => (c :: before, after)
    else .error .outOfRange

/-- The characters of a text from one byte up to another. -/
def cut (text : List Char) (first last : Nat) : Checked (List Char) := do
  let (text, _) ← cutAt last text
  let (_, text) ← cutAt first text
  return text

/-! ### Levels and fields -/

/-- The small letters of ASCII capitals. -/
def lower (text : List Char) : List Char :=
  text.map Char.toLower

/-- The names of the levels. -/
def levelNames : List String := ["error", "warn", "info", "debug", "trace", "off"]

/-- Whether a text names a level, in letters of any case or by a number up to five. A level that
is not written is the lowest. -/
def isLevel (text : List Char) : Bool :=
  match text with
  | [] => true
  | _ =>
    match Numeral.word? (Bytes.ofText (String.ofList text)) with
    | some n => n ≤ 5
    | none => levelNames.any fun name => lower text == name.toList

/-- The characters after an optional sign. -/
def unsigned : List Char → List Char
  | '+' :: rest => rest
  | '-' :: rest => rest
  | text => text

/-- Whether a text is the exponent of a number, or nothing. -/
def isExponent : List Char → Bool
  | [] => true
  | c :: rest =>
    (c == 'e' || c == 'E') && !(unsigned rest).isEmpty && (unsigned rest).all Char.isDigit

/-- The names of numbers that are not finite. -/
def numberNames : List String := ["inf", "infinity", "nan"]

/-- Whether a text is a number: digits, with a point before, between or after them, and an
exponent; or a name of what is no finite number. A sign may come first. -/
def isNumber (text : List Char) : Bool :=
  let text := unsigned text
  let (whole, rest) := text.span Char.isDigit
  let (fraction, rest) := match rest with
    | '.' :: rest => rest.span Char.isDigit
    | _ => ([], rest)
  numberNames.any (fun name => lower text == name.toList)
    || (!(whole ++ fraction).isEmpty && isExponent rest)

/-- Whether a text is a field: a name, and after an equals sign a value, which is a number or a
pattern for texts. What stands after a second equals sign is passed over. -/
def isField (text : List Char) : Bool :=
  match text, text.dropWhile (· != '=') with
  | [], _ => false
  | _, [] => true
  | _, _ :: rest =>
    let value := rest.takeWhile (· != '=')
    isNumber value || Pattern.isValid value

/-! ### Directives -/

/-- Where the reading of a directive stands. -/
inductive State
  /-- Nothing has been read. -/
  | start
  /-- A level or a target is being read. -/
  | levelOrTarget
  /-- The name of a span is being read. It starts at a byte. -/
  | span (first : Nat)
  /-- A field is being read. It starts at a byte. -/
  | field (first : Nat)
  /-- The field is complete. -/
  | fields
  /-- The span is complete. -/
  | target
  /-- A level is being read. It starts at a byte. -/
  | level (first : Nat)
  deriving DecidableEq

/-- The state after the character `c` at the byte `place`, or nothing if it does not fit. Parts are
cut out of `text`. -/
def State.next (text : List Char) (state : State) (place : Nat) (c : Char) :
    Checked (Option State) :=
  match state with
  | .start =>
    if c = '[' then return some (.span (place + 1))
    else if c = '-' ∨ c = ':' ∨ c = '_' ∨ Text.isAlphanumeric c then return some .levelOrTarget
    else return none
  | .levelOrTarget =>
    if c = '=' then (cut text 0 place).map fun _ => some (.level (place + 1))
    else if c = '[' then (cut text 0 place).map fun _ => some (.span (place + 1))
    else return some .levelOrTarget
  | .span first =>
    if c = ']' then (cut text first place).map fun _ => some .target
    else if c = '\x7b' then (cut text first place).map fun _ => some (.field (place + 1))
    else return some (.span first)
  | .field first =>
    if c = '\x7d' then
      (cut text first place).map fun field => if isField field then some .fields else none
    else return some (.field first)
  | .fields => return if c = ']' then some .target else none
  | .target => return if c = '=' then some (.level (place + 1)) else none
  | .level first => return some (.level first)

/-- The state after characters, the first of them at the byte `place`; or nothing if one of them
does not fit. -/
def State.afterAll (text : List Char) (state : State) (place : Nat) :
    List Char → Checked (Option State)
  | [] => .ok (some state)
  | c :: rest => do
    match ← state.next text place c with
    | some state => state.afterAll text (place + c.utf8Size) rest
    | none => return none

/-- A text without the blanks around it. -/
def trimmed (text : List Char) : List Char :=
  ((text.dropWhile Text.isBlank).reverse.dropWhile Text.isBlank).reverse

/-- Whether a text is a directive. -/
def isDirective (text : List Char) : Checked Bool := do
  match ← State.start.afterAll text 0 (trimmed text) with
  | some .levelOrTarget => return true
  | some .target => return true
  | some (.level first) => return isLevel (← cutAt first text).2
  | _ => return false

/-! ### Filters -/

/-- The pieces of a text between commas. -/
def pieces : List Char → List (List Char)
  | [] => [[]]
  | c :: rest =>
    match pieces rest with
    | piece :: others => if c = ',' then [] :: piece :: others else (c :: piece) :: others
    | [] => [[c]]

/-- Whether texts are directives. The first one that is none decides. -/
def areDirectives : List (List Char) → Checked Bool
  | [] => .ok true
  | text :: rest => do if ← isDirective text then areDirectives rest else return false

/-- Whether a text is a log filter. Empty pieces between commas are no directives. -/
def isValid (text : String) : Checked Bool :=
  areDirectives ((pieces text.toList).filter (!·.isEmpty))

end KeyValueServer.LogFilter
