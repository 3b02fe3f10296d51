import KeyValueServer.Reply
import KeyValueServer.Request.Decoder
import KeyValueServer.Sequence

/-!
# Connected clients

A client has a decoder for what it sends and a queue of replies that wait to be written to it.
A socket takes as many bytes as it has room for, so a reply may be written in parts; the client
remembers how much of the first reply has been taken.

What the operating system answers is an argument: a list of outcomes, one for each attempt.
When the list ends, the socket has no room.

## Main definitions

* `Client` — the state of a connection;
* `WriteOutcome` — what an attempt to write comes to;
* `Client.flush` — writing replies until the queue is empty or the socket has no room.
-/

namespace KeyValueServer

/-- A `ReplyQueue` holds the replies that wait, searched as keys are. -/
abbrev ReplyQueue := Sequence Value Value.sameText

/-- A `Client` is the state of a connection. -/
structure Client where
  /-- What has been read of the requests. -/
  decoder : Decoder
  /-- The encoded replies that have not been written completely. -/
  replies : ReplyQueue
  /-- How many bytes of the first reply have been written. -/
  sent : Nat

/-- A `WriteOutcome` is what an attempt to write comes to. -/
inductive WriteOutcome
  /-- The socket has taken so many bytes. None at all means that it is closed. -/
  | accepted (count : Nat)
  /-- The socket has no room. -/
  | wouldBlock
  /-- A signal came in between. -/
  | interrupted
  /-- The connection is broken. -/
  | failed
  deriving DecidableEq

namespace Client

/-- `Client.fresh` has just connected. -/
def fresh : Client := ⟨Decoder.fresh, .empty, 0⟩

/-- `c.addReply reply` is the client with a reply at the end of its queue. -/
def addReply (c : Client) (reply : Value) : Client :=
  { c with replies := c.replies.append reply }

/-- `dropWritten count c` is the client without the first replies that have nothing left to write,
at most `count` of them. A value that is no string has no bytes. -/
def dropWritten : Nat → Client → Client
  | 0, c => c
  | count + 1, c =>
    match c.replies.popFirst? with
    | none => c
    | some (head, rest) =>
      if head.bytes.length ≤ c.sent then dropWritten count { c with replies := rest, sent := 0 }
      else c

/-- `c.settle` is the client whose first reply has bytes left to write. -/
def settle (c : Client) : Client :=
  dropWritten c.replies.items.length c

/-- `Flushed` is what writing yields. -/
structure Flushed where
  /-- The bytes that the socket has taken. -/
  taken : Bytes
  /-- Whether the connection still stands. -/
  isOpen : Bool
  /-- How many bytes are reported as written, if the connection still stands. -/
  written : Nat
  /-- The client afterwards. -/
  client : Client

/-- `f.after bytes count` is the same with bytes that were taken before, `count` by their number. -/
def Flushed.after (bytes : Bytes) (count : Nat) (f : Flushed) : Flushed :=
  { f with taken := bytes ++ f.taken, written := count + f.written }

/-- `flush outcomes c` writes replies in order until the queue is empty, the socket has no room, or
the connection breaks. -/
def flush : List WriteOutcome → Client → Flushed
  | outcomes, c =>
    match c.settle.replies.first?, outcomes with
    | none, _ => ⟨[], true, 0, c.settle⟩
    | some _, [] => ⟨[], true, 0, c.settle⟩
    | some _, .wouldBlock :: _ => ⟨[], true, 0, c.settle⟩
    | some _, .failed :: _ => ⟨[], false, 0, c.settle⟩
    | some _, .interrupted :: rest => flush rest c.settle
    | some head, .accepted count :: rest =>
      if count = 0 then ⟨[], false, 0, c.settle⟩
      else
        (flush rest { c.settle with sent := c.settle.sent + count }).after
          ((head.bytes.drop c.settle.sent).take count) count

end Client

end KeyValueServer
