import KeyValueServer.Bytes

/-!
# Reading bytes as UTF-8

Byte strings are shown to people as text. Where the bytes are no UTF-8, each broken run is
replaced: a run is the longest stretch of bytes that begins a character which the bytes after
it do not finish, or a single byte that begins none. Overlong forms, surrogates and numbers
past U+10FFFF begin nothing, because the second byte is already checked against the range
that its lead byte admits.

## Main definitions

* `Utf8.decode` — characters and broken runs, in order;
* `Utf8.text?` — the text, if no run is broken;
* `Utf8.lossy` — the text with U+FFFD for each broken run.
-/

namespace KeyValueServer.Utf8

/-- What a lead byte announces: how many continuation bytes follow, and the range of the
first of them. -/
structure Lead where
  /-- How many bytes follow the lead byte. -/
  more : Nat
  /-- The least second byte. -/
  low : UInt8
  /-- The greatest second byte. -/
  high : UInt8
  deriving DecidableEq

/-- The announcement of a lead byte, or nothing for a byte that leads no longer form. -/
def lead? (b : UInt8) : Option Lead :=
  if b < 0xC2 then none
  else if b ≤ 0xDF then some ⟨1, 0x80, 0xBF⟩
  else if b = 0xE0 then some ⟨2, 0xA0, 0xBF⟩
  else if b = 0xED then some ⟨2, 0x80, 0x9F⟩
  else if b ≤ 0xEF then some ⟨2, 0x80, 0xBF⟩
  else if b = 0xF0 then some ⟨3, 0x90, 0xBF⟩
  else if b ≤ 0xF3 then some ⟨3, 0x80, 0xBF⟩
  else if b = 0xF4 then some ⟨3, 0x80, 0x8F⟩
  else none

/-- Whether a byte continues a character. -/
def isContinuation (b : UInt8) : Bool :=
  0x80 ≤ b && b ≤ 0xBF

/-- The six bits that a continuation byte carries. -/
def payload (b : UInt8) : Nat :=
  b.toNat % 64

/-- The characters of a byte string in order, with `none` for each broken run. -/
def decode : Bytes → List (Option Char)
  | [] => []
  | a :: rest =>
    if a < 0x80 then some (Char.ofNat a.toNat) :: decode rest
    else match lead? a with
      | none => none :: decode rest
      | some lead =>
        match rest with
        | [] => [none]
        | b :: rest' =>
          if lead.low ≤ b ∧ b ≤ lead.high then
            if lead.more = 1 then
              some (Char.ofNat (a.toNat % 32 * 64 + payload b)) :: decode rest'
            else match rest' with
              | [] => [none]
              | c :: rest'' =>
                if isContinuation c then
                  if lead.more = 2 then
                    some (Char.ofNat ((a.toNat % 16 * 64 + payload b) * 64 + payload c))
                      :: decode rest''
                  else match rest'' with
                    | [] => [none]
                    | d :: rest''' =>
                      if isContinuation d then
                        some (Char.ofNat
                          (((a.toNat % 8 * 64 + payload b) * 64 + payload c) * 64 + payload d))
                          :: decode rest'''
                      else none :: decode (d :: rest''')
                else none :: decode (c :: rest'')
          else none :: decode (b :: rest')

/-- Every element, if all are there. -/
def whole? : List (Option Char) → Option (List Char)
  | [] => some []
  | none :: _ => none
  | some c :: rest => (whole? rest).map (c :: ·)

/-- The text that the bytes encode, if they encode one. -/
def text? (bytes : Bytes) : Option String :=
  (whole? (decode bytes)).map String.ofList

/-- The text of the bytes, with U+FFFD in place of each broken run. -/
def lossy (bytes : Bytes) : String :=
  String.ofList ((decode bytes).map (·.getD '\uFFFD'))

end KeyValueServer.Utf8
