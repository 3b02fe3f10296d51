import KeyValueServer.Text.Quoted
import KeyValueServer.Text.Utf8

/-!
# Malformed requests

What can be wrong with the bytes of a request. The connection is closed on any of these, and
the message is for the operator.

## Main definitions

* `Limit` — the caps on what a peer may announce;
* `ProtocolError`, `ProtocolError.message` — the causes and their wording.
-/

namespace KeyValueServer

namespace Limit

/-- The most bytes of one argument, and the most arguments of one request. -/
def bulk : Nat := 4096

/-- The most bytes that may be waiting for the end of a header line. -/
def header : Nat := 4096

end Limit

/-- Which number a header line announces. -/
inductive Announcement
  /-- How many arguments a request has. -/
  | arguments
  /-- How many bytes an argument has. -/
  | payload
  deriving DecidableEq

/-- The word for an announcement. -/
def Announcement.word : Announcement → String
  | .arguments => "multibulk"
  | .payload => "bulk"

/-- What is wrong with the bytes of a request. -/
inductive ProtocolError
  /-- The header line of an argument starts with another byte than the dollar sign. -/
  | expectedDollar (got : UInt8)
  /-- A header line announces no number. -/
  | invalidLength (what : Announcement) (raw : Bytes)
  /-- An argument is announced with more bytes than the cap. -/
  | bulkTooLong (length : Nat)
  /-- A request is announced with more arguments than the cap. -/
  | tooManyArguments (count : Nat)
  /-- More bytes than the cap are waiting for the end of a header line. -/
  | headerTooLong (length : Nat)
  /-- A payload is not followed by a line end. -/
  | expectedCrlf
  deriving DecidableEq

namespace ProtocolError

/-- A byte as two digits in base sixteen. -/
def byteText (b : UInt8) : String :=
  "0x" ++ (if b < 16 then "0" else "") ++ Numeral.hexadecimal b.toNat

/-- A number and the cap that it exceeds. -/
def overCap (count : String) (cap : Nat) : String :=
  count ++ " (max: " ++ Numeral.decimal cap ++ ")"

/-- The wording of an error. -/
def message : ProtocolError → String
  | expectedDollar got => "expected '$' for bulk argument, got " ++ byteText got
  | invalidLength what raw =>
    "invalid " ++ what.word ++ " length: " ++ Quoted.quote (Utf8.lossy raw)
  | bulkTooLong length => "bulk length too long: " ++ overCap (Numeral.decimal length) Limit.bulk
  | tooManyArguments count =>
    "too many bulk arguments: " ++ overCap (Numeral.decimal count) Limit.bulk
  | headerTooLong length =>
    "unterminated header line: " ++ overCap (Numeral.decimal length ++ " bytes") Limit.header
  | expectedCrlf => "expected CRLF after bulk payload"

end ProtocolError

end KeyValueServer
