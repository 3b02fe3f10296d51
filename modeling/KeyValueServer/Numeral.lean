import KeyValueServer.Bytes

/-!
# Decimal numerals

Numbers travel as ASCII decimals. A numeral is one or more digits; a sign, where one is
admitted, is a single byte in front of them. Leading zeros are admitted and nothing else is:
no blanks, no separators, no digits of another script.

A numeral may be far longer than any number it may denote, so a number with a bound is read
only as far as it stays below it.

## Main definitions

* `Numeral.natural?` — the value of a run of digits;
* `Numeral.integer?` — the same with an optional `+` or `-`;
* `Numeral.word?` — an optional `+` and digits whose value is a 64-bit word;
* `Numeral.int64?` — a signed numeral in the range of a signed 64-bit integer;
* `Numeral.digitOf?` — the value of a character in another base;
* `Numeral.decimal`, `Numeral.signed` — the shortest numeral of a number.

## Main statements

* `naturalBelow?_eq_filter` — reading with a bound loses nothing below it.
-/

namespace KeyValueServer.Numeral

/-! ### Digits -/

/-- The value of an ASCII digit. -/
def digit? (b : UInt8) : Option Nat :=
  if 48 ≤ b ∧ b ≤ 57 then some (b.toNat - 48) else none

/-- The values of digits, if there is nothing else. -/
def digits? (bytes : Bytes) : Option (List Nat) :=
  bytes.mapM digit?

/-- The number that digits denote in a base after those of the number `value`. -/
def continued (base value : Nat) (digits : List Nat) : Nat :=
  digits.foldl (fun n d => n * base + d) value

/-- The same, if it is below `bound`. -/
def continuedBelow? (bound base value : Nat) : List Nat → Option Nat
  | [] => if value < bound then some value else none
  | d :: rest => if value < bound then continuedBelow? bound base (value * base + d) rest else none

/-- Digits in a base never make a number smaller. -/
theorem le_continued {base : Nat} (h : 0 < base) (value : Nat) (digits : List Nat) :
    value ≤ continued base value digits := by
  induction digits generalizing value with
  | nil => exact Nat.le_refl value
  | cons d rest ih =>
    calc value ≤ value * base := Nat.le_mul_of_pos_right value h
      _ ≤ value * base + d := Nat.le_add_right _ d
      _ ≤ continued base (value * base + d) rest := ih _

/-- **Reading below a bound** gives the number exactly when it is below the bound. -/
theorem continuedBelow?_eq {base : Nat} (h : 0 < base) (bound value : Nat)
    (digits : List Nat) :
    continuedBelow? bound base value digits =
      if continued base value digits < bound then some (continued base value digits)
      else none := by
  induction digits generalizing value with
  | nil => rfl
  | cons d rest ih =>
    have hle := le_continued h value (d :: rest)
    by_cases hv : value < bound
    · simp only [continuedBelow?, hv, if_true]
      exact ih _
    · have hc : ¬ continued base value (d :: rest) < bound := by omega
      simp only [continuedBelow?, hv, hc, if_false]

/-! ### Numerals -/

/-- The value of one or more digits. -/
def natural? : Bytes → Option Nat
  | [] => none
  | bytes => (digits? bytes).map (continued 10 0)

/-- The value of one or more digits, if it is below `bound`. -/
def naturalBelow? (bound : Nat) : Bytes → Option Nat
  | [] => none
  | bytes => (digits? bytes).bind (continuedBelow? bound 10 0)

/-- Reading with a bound loses nothing below it. -/
theorem naturalBelow?_eq_filter (bound : Nat) (bytes : Bytes) :
    naturalBelow? bound bytes = (natural? bytes).filter (· < bound) := by
  cases bytes with
  | nil => rfl
  | cons b rest =>
    simp only [naturalBelow?, natural?]
    cases digits? (b :: rest) with
    | none => rfl
    | some ds =>
      simp only [Option.bind_some, Option.map_some, Option.filter_some, decide_eq_true_eq]
      exact continuedBelow?_eq (by decide) bound 0 ds

/-- The value of a numeral with at most one sign. -/
def integer? : Bytes → Option Int
  | 43 :: digits => (natural? digits).map Int.ofNat
  | 45 :: digits => (natural? digits).map fun n => -(n : Int)
  | digits => (natural? digits).map Int.ofNat

/-- The same, if its distance to zero is below `bound`. -/
def integerBelow? (bound : Nat) : Bytes → Option Int
  | 43 :: digits => (naturalBelow? bound digits).map Int.ofNat
  | 45 :: digits => (naturalBelow? bound digits).map fun n => -(n : Int)
  | digits => (naturalBelow? bound digits).map Int.ofNat

/-- The bytes after an optional plus sign. -/
def unsigned : Bytes → Bytes
  | 43 :: digits => digits
  | digits => digits

/-- The value of an unsigned numeral below `bound`; one plus sign is admitted. -/
def below? (bound : Nat) (bytes : Bytes) : Option Nat :=
  naturalBelow? bound (unsigned bytes)

/-- The value of an unsigned numeral that is a 64-bit word. -/
def word? (bytes : Bytes) : Option Nat :=
  below? UInt64.size bytes

/-- An integer as a signed 64-bit integer, if it is in range. -/
def narrow? (n : Int) : Option Int64 :=
  if Int64.minValue.toInt ≤ n ∧ n ≤ Int64.maxValue.toInt then some (Int64.ofInt n) else none

/-- The value of a signed numeral in the range of a signed 64-bit integer. -/
def int64? (bytes : Bytes) : Option Int64 :=
  (integerBelow? (Int64.minValue.toInt.natAbs + 1) bytes).bind narrow?

/-! ### Writing, and other bases -/

/-- The value of an ASCII character as a digit in a base up to sixteen. -/
def digitOf? (base : Nat) (c : Char) : Option Nat :=
  let value :=
    if '0' ≤ c ∧ c ≤ '9' then c.toNat - 48
    else if 'a' ≤ c ∧ c ≤ 'f' then c.toNat - 87
    else if 'A' ≤ c ∧ c ≤ 'F' then c.toNat - 55
    else base
  if value < base then some value else none

/-- The digits of a number, without leading zeros. -/
def decimal (n : Nat) : String :=
  String.ofList (Nat.toDigits 10 n)

/-- The numeral of an integer; only a negative one has a sign. -/
def signed : Int → String
  | .ofNat n => decimal n
  | .negSucc n => "-" ++ decimal (n + 1)

/-- The digits of a number in base sixteen, in small letters. -/
def hexadecimal (n : Nat) : String :=
  String.ofList (Nat.toDigits 16 n)

end KeyValueServer.Numeral
