import KeyValueServer.ByteQueue
import KeyValueServer.Numeral
import KeyValueServer.Request.ProtocolError

/-!
# The resumable request decoder

A peer sends requests in two forms through one stream of bytes. The inline form is a line of
words between single spaces. The bulk form announces a number of arguments in a line that
starts with an asterisk, and then the length of each in a line that starts with a dollar sign;
the argument itself may hold any bytes and is followed by a line end.

Bytes arrive in pieces that end anywhere. The decoder keeps what it has read of an unfinished
request: the form, how many arguments are still to come, the announced length of the next one,
and the bytes that wait. `parse` goes as far as the bytes reach and says whether a request is
complete, and `take` hands the request over.

## Main definitions

* `Decoder`, `Decoder.feed` — the state, and the arrival of bytes;
* `Decoder.parse` — one attempt to complete a request;
* `Decoder.take`, `Decoder.reset` — the end of a request;
* `Decoder.drain` — all requests that the waiting bytes complete.
-/

namespace KeyValueServer

/-- The `Form` of a request, once its first byte is there. -/
inductive Form
  | unknown
  | inline
  | bulk
  deriving DecidableEq

/-- `Progress` is what an attempt to complete a request comes to. -/
inductive Progress
  /-- A request is complete. -/
  | ready
  /-- More bytes are needed. -/
  | needMore
  /-- The bytes are no request. -/
  | malformed (error : ProtocolError)
  deriving DecidableEq

/-- A `Decoder` is the state of reading one peer's requests. -/
structure Decoder where
  /-- The bytes that have arrived and are not read yet. -/
  pending : ByteQueue
  /-- The arguments of the current request, as far as they have been read. -/
  args : List Bytes
  /-- The form of the current request. -/
  form : Form
  /-- How many arguments of the current request are still to come. -/
  awaited : Nat
  /-- The length of the next argument, once its header line has been read. -/
  length? : Option Nat

namespace Decoder

/-- The room for bytes that a decoder starts with, and the most that is read from a peer at
once. -/
def chunk : Nat := 16384

/-- The byte that opens a request in bulk form. -/
def asterisk : UInt8 := 42

/-- The byte that opens the header line of an argument. -/
def dollar : UInt8 := 36

/-- `Decoder.fresh` has read nothing. -/
def fresh : Decoder where
  pending := ByteQueue.ofCapacity chunk
  args := []
  form := .unknown
  awaited := 0
  length? := none

/-- `d.feed bytes` is the decoder when bytes have arrived. -/
def feed (d : Decoder) (bytes : Bytes) : Decoder :=
  { d with pending := d.pending.append bytes }

/-- `d.reset` is the decoder before the next request. Bytes that wait still wait. -/
def reset (d : Decoder) : Decoder :=
  { d with args := [], form := .unknown, awaited := 0, length? := none }

/-- `d.take` are the arguments that have been read, and the decoder before the next request. -/
def take (d : Decoder) : List Bytes × Decoder :=
  (d.args, d.reset)

/-- `d.headerEnd` is where the header line that waits ends, if its end has arrived. Too many bytes
without an end are an error. -/
def headerEnd (d : Decoder) : Except ProtocolError (Option Nat) :=
  match d.pending.crlfOffset? with
  | some offset => .ok (some offset)
  | none =>
    if Limit.header < d.pending.size then .error (.headerTooLong d.pending.size) else .ok none

/-- `announced what raw` is the number that the rest of a header line announces. -/
def announced (what : Announcement) (raw : Bytes) : Except ProtocolError Nat :=
  match Numeral.word? raw with
  | some n => .ok n
  | none => .error (.invalidLength what raw)

/-- `words line` are the words of a line. An empty line has none. -/
def words : Bytes → List Bytes
  | [] => []
  | line => Bytes.splitOn Bytes.space line

/-- `d.parseInline` is an attempt to complete a request in inline form. -/
def parseInline (d : Decoder) : Checked (Progress × Decoder) :=
  match d.pending.crlfOffset? with
  | none => .ok (.needMore, d)
  | some offset => do
    let line ← d.pending.slice 0 offset
    let pending ← d.pending.consume (offset + 2)
    .ok (.ready, { d with pending := pending, args := words line })

/-- `d.nextLength` is the length of the next argument, with its header line read. Where the line is
not there or is wrong, the decoder stays as it is. -/
def nextLength (d : Decoder) : Checked (Except Progress (Nat × Decoder)) :=
  match d.length? with
  | some length => .ok (.ok (length, d))
  | none =>
    match d.headerEnd with
    | .error e => .ok (.error (.malformed e))
    | .ok none => .ok (.error .needMore)
    | .ok (some offset) => do
      let first ← Checked.orFault .outOfRange (d.pending.get? 0)
      if first ≠ dollar then .ok (.error (.malformed (.expectedDollar first)))
      else do
        let raw ← d.pending.slice 1 offset
        match announced .payload raw with
        | .error e => .ok (.error (.malformed e))
        | .ok length =>
          if Limit.bulk < length then .ok (.error (.malformed (.bulkTooLong length)))
          else do
            let pending ← d.pending.consume (offset + 2)
            .ok (.ok (length, { d with pending := pending, length? := some length }))

/-- `parseArguments n d` reads up to `n` arguments, as far as the bytes reach. -/
def parseArguments : Nat → Decoder → Checked (Progress × Decoder)
  | 0, d => .ok (.ready, d)
  | n + 1, d => do
    match ← d.nextLength with
    | .error progress => .ok (progress, d)
    | .ok (length, d) =>
      if d.pending.size < length + 2 then .ok (.needMore, d)
      else do
        let terminator ← d.pending.slice length (length + 2)
        if terminator ≠ Bytes.crlf then .ok (.malformed .expectedCrlf, d)
        else do
          let argument ← d.pending.slice 0 length
          let pending ← d.pending.consume (length + 2)
          parseArguments n
            { d with
              pending := pending
              args := d.args ++ [argument]
              awaited := n
              length? := none }

/-- `d.parseBulk` is an attempt to complete a request in bulk form. With no argument awaited, the
header line of the request comes first; a request without arguments is complete with it. -/
def parseBulk (d : Decoder) : Checked (Progress × Decoder) :=
  if d.awaited ≠ 0 then parseArguments d.awaited d
  else
    match d.headerEnd with
    | .error e => .ok (.malformed e, d)
    | .ok none => .ok (.needMore, d)
    | .ok (some offset) => do
      let raw ← d.pending.slice 1 offset
      match announced .arguments raw with
      | .error e => .ok (.malformed e, d)
      | .ok count =>
        if Limit.bulk < count then .ok (.malformed (.tooManyArguments count), d)
        else do
          let pending ← d.pending.consume (offset + 2)
          if count = 0 then .ok (.ready, { d with pending := pending })
          else parseArguments count { d with pending := pending, awaited := count, args := [] }

/-- `formOf first` is the form that a first byte announces. -/
def formOf (first : UInt8) : Form :=
  if first = asterisk then .bulk else .inline

/-- `d.parse` is an attempt to complete a request. -/
def parse (d : Decoder) : Checked (Progress × Decoder) :=
  match d.pending.get? 0 with
  | none => .ok (.needMore, d)
  | some first =>
    match d.form with
    | .inline => d.parseInline
    | .bulk => d.parseBulk
    | .unknown =>
      match formOf first with
      | .bulk => parseBulk { d with form := .bulk }
      | _ => parseInline { d with form := .inline }

/-- `Drained` is what draining a decoder yields. -/
structure Drained where
  /-- The requests that were completed, in order. -/
  requests : List (List Bytes)
  /-- What stopped the decoder, if it was not the lack of bytes. -/
  failure? : Option ProtocolError
  /-- The decoder after it stopped. -/
  decoder : Decoder

/-- `drainWithin attempts d` are the requests that at most `attempts` attempts complete. -/
def drainWithin : Nat → Decoder → Checked Drained
  | 0, _ => .error .exhausted
  | attempts + 1, d => do
    match ← d.parse with
    | (.needMore, d) => .ok ⟨[], none, d⟩
    | (.malformed e, d) => .ok ⟨[], some e, d⟩
    | (.ready, d) => do
      let (args, d) := d.take
      let rest ← drainWithin attempts d
      .ok { rest with requests := args :: rest.requests }

/-- `d.attempts` is how many attempts suffice for the bytes that wait: each request takes two bytes
or more. -/
def attempts (d : Decoder) : Nat :=
  d.pending.size / 2 + 1

/-- `d.drain` are all requests that the waiting bytes complete, each taken as soon as it is
complete. -/
def drain (d : Decoder) : Checked Drained :=
  drainWithin d.attempts d

end Decoder

end KeyValueServer
