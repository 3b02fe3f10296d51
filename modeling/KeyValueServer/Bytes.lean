/-!
# Byte strings

Keys, values, requests and replies are strings of bytes that need not be text. This module
holds what the rest says about them: the bytes of a text, the line end of the protocol, and
equality up to the case of ASCII letters.

## Main definitions

* `Bytes.ofText` — the UTF-8 encoding of a text;
* `Bytes.crlf` — the two bytes that end a line;
* `Bytes.sameLetters` — equality that does not tell `A` to `Z` from `a` to `z`.
-/

namespace KeyValueServer

/-- A string of bytes. -/
abbrev Bytes := List UInt8

namespace Bytes

/-- The UTF-8 encoding of a text. -/
def ofText (text : String) : Bytes :=
  text.toList.flatMap String.utf8EncodeChar

/-- The byte that opens a line end. -/
def carriageReturn : UInt8 := 13

/-- The byte that closes a line end. -/
def lineFeed : UInt8 := 10

/-- The byte between the words of a line. -/
def space : UInt8 := 32

/-- The two bytes that end a line. -/
def crlf : Bytes := [carriageReturn, lineFeed]

/-- The small letter of an ASCII capital; every other byte is left alone. -/
def lower (b : UInt8) : UInt8 :=
  if 65 ≤ b ∧ b ≤ 90 then b + 32 else b

/-- Equality of byte strings up to the case of ASCII letters. Bytes above 127 are letters of
no alphabet here and are compared as they stand. -/
def sameLetters (a b : Bytes) : Bool :=
  a.map lower == b.map lower

/-- The offset of the first line end. -/
def crlfIndex : Bytes → Option Nat
  | a :: b :: rest =>
    if a = carriageReturn ∧ b = lineFeed then some 0 else (crlfIndex (b :: rest)).map (· + 1)
  | _ => none

/-- The pieces between single separators: one more than there are separators, so that two
separators side by side have an empty piece between them. -/
def splitOn (separator : UInt8) : Bytes → List Bytes
  | [] => [[]]
  | b :: rest =>
    if b = separator then [] :: splitOn separator rest
    else match splitOn separator rest with
      | piece :: pieces => (b :: piece) :: pieces
      | [] => [[b]]

/-- The pieces joined by the separator. -/
def join (separator : UInt8) : List Bytes → Bytes
  | [] => []
  | [piece] => piece
  | piece :: pieces => piece ++ separator :: join separator pieces

/-- There is always a first piece. -/
theorem splitOn_ne_nil (separator : UInt8) (bytes : Bytes) : splitOn separator bytes ≠ [] := by
  induction bytes with
  | nil => simp [splitOn]
  | cons b rest ih =>
    unfold splitOn
    split
    · simp
    · split <;> simp

/-- **Splitting loses nothing**: joining the pieces gives the bytes back. -/
theorem join_splitOn (separator : UInt8) (bytes : Bytes) :
    join separator (splitOn separator bytes) = bytes := by
  induction bytes with
  | nil => rfl
  | cons b rest ih =>
    unfold splitOn
    split
    · rename_i h
      subst h
      cases hs : splitOn b rest with
      | nil => exact absurd hs (splitOn_ne_nil b rest)
      | cons piece pieces =>
        rw [hs] at ih
        simp [join, ih]
    · cases hs : splitOn separator rest with
      | nil => exact absurd hs (splitOn_ne_nil separator rest)
      | cons piece pieces =>
        rw [hs] at ih
        cases pieces with
        | nil =>
          simp only [join] at ih ⊢
          rw [ih]
        | cons piece' pieces' =>
          simp only [join, List.cons_append] at ih ⊢
          rw [ih]

end Bytes

end KeyValueServer
