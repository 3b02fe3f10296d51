import KeyValueServer.Numeral
import KeyValueServer.Text.Utf8

/-!
# Values

A value is a byte string or a signed 64-bit integer. Values are keys, payloads, deadlines and
queued replies alike. A key is compared and hashed by its bytes: an integer equals no key, not
even itself, and hashes to zero.

## Main definitions

* `Value` — the two forms;
* `Value.integer?` — the integer that a value denotes, a string by its decimal numeral;
* `Value.sameText` — equality of keys;
* `Value.fingerprint` — the 64-bit FNV-1a hash of a key.
-/

namespace KeyValueServer

/-- A unit of storage. -/
inductive Value
  /-- A string of bytes. -/
  | str (bytes : Bytes)
  /-- An integer. -/
  | int (n : Int64)
  deriving DecidableEq

namespace Value

/-- Which of the two forms a value has. -/
inductive Kind
  | str
  | int
  deriving DecidableEq

/-- The number that stands for a kind. -/
def Kind.tag : Kind → Nat
  | .str => 1
  | .int => 2

/-- The form of a value. -/
def kind : Value → Kind
  | .str _ => .str
  | .int _ => .int

/-- A value that holds a text. -/
def ofText (text : String) : Value :=
  .str (Bytes.ofText text)

/-- The bytes of a string. -/
def bytes? : Value → Option Bytes
  | .str bytes => some bytes
  | .int _ => none

/-- The bytes of a string; an integer has none. -/
def bytes (v : Value) : Bytes :=
  v.bytes?.getD []

/-- The integer that a value denotes. -/
def integer? : Value → Option Int64
  | .str bytes => Numeral.int64? bytes
  | .int n => some n

/-- A value as text for people. -/
def display : Value → String
  | .str bytes => Utf8.lossy bytes
  | .int n => Numeral.signed n.toInt

/-- Equality of keys. Only strings are keys. -/
def sameText : Value → Value → Bool
  | .str a, .str b => a == b
  | _, _ => false

/-- Where the hash starts. -/
def hashBasis : UInt64 := 0xcbf29ce484222325

/-- What each byte multiplies the hash by. -/
def hashPrime : UInt64 := 0x100000001b3

/-- The 64-bit FNV-1a hash: each byte is mixed into the low bits before the whole is
multiplied. -/
def fnv1a (bytes : Bytes) : UInt64 :=
  bytes.foldl (fun hash b => (hash ^^^ b.toUInt64) * hashPrime) hashBasis

/-- The hash of a key. -/
def fingerprint : Value → UInt64
  | .str bytes => fnv1a bytes
  | .int _ => 0

/-- Keys are the same exactly when both are strings of the same bytes. -/
theorem sameText_iff {a b : Value} :
    a.sameText b = true ↔ ∃ bytes, a = .str bytes ∧ b = .str bytes := by
  cases a with
  | str x =>
    cases b with
    | str y =>
      constructor
      · intro h
        exact ⟨x, rfl, by rw [eq_of_beq h]⟩
      · rintro ⟨z, hx, hy⟩
        cases hx
        cases hy
        exact beq_self_eq_true x
    | int n => simp [sameText]
  | int n => simp [sameText]

end Value

end KeyValueServer
