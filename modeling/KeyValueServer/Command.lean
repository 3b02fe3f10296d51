import KeyValueServer.Keyspace
import KeyValueServer.Reply

/-!
# Commands

A request is a command: its first argument names what to do, up to the case of ASCII letters.
The number of arguments is fixed for each command, its name included. `QUIT` is no command of
the table: it ends the connection, whatever follows it.

## Main definitions

* `Command`, `Command.lookup?` — the commands and their names;
* `Keyspace.perform` — what a request does to the keyspace, and the answer.
-/

namespace KeyValueServer

/-- A command on the keyspace. -/
inductive Command
  /-- Read the value of a key. -/
  | get
  /-- Store a value under a key. -/
  | set
  /-- Give a key a deadline some seconds from now. -/
  | expire
  deriving DecidableEq

namespace Command

/-- All commands. -/
def all : List Command := [.get, .set, .expire]

/-- The name of a command. -/
def name : Command → String
  | .get => "get"
  | .set => "set"
  | .expire => "expire"

/-- How many arguments a command takes, its name included. -/
def arity : Command → Nat
  | .get => 2
  | .set => 3
  | .expire => 3

/-- The command of a name. -/
def lookup? (name : Bytes) : Option Command :=
  all.find? fun command => Bytes.sameLetters (Bytes.ofText command.name) name

/-- The name that ends a connection. -/
def quitName : String := "quit"

/-- Whether a name ends the connection. -/
def isQuit (name : Bytes) : Bool :=
  Bytes.sameLetters name (Bytes.ofText quitName)

end Command

/-- What a request comes to. -/
inductive Outcome
  /-- An answer. -/
  | reply (reply : Reply)
  /-- The end of the connection. -/
  | quit
  deriving DecidableEq

/-- The time so many seconds from `now`, where both the seconds in milliseconds and the sum
are signed 64-bit integers. -/
def deadlineAfter? (seconds now : Int64) : Option Int64 :=
  (Numeral.narrow? (seconds.toInt * 1000)).bind fun milliseconds =>
    Numeral.narrow? (milliseconds.toInt + now.toInt)

namespace Keyspace

/-- Answers with the value of a key. -/
def performGet (s : Keyspace) (key : Value) (now : Int64) : Checked (Reply × Keyspace) := do
  let (value?, s) ← s.read key now
  match value? with
  | none => .ok (.nil, s)
  | some (.str bytes) => .ok (.bulk (.str bytes), s)
  | some (.int _) => .ok (.refused .wrongType, s)

/-- Stores a string under a key. -/
def performSet (s : Keyspace) (key value : Value) : Checked (Reply × Keyspace) :=
  match value with
  | .str bytes => do
    let s ← s.store key (.str bytes)
    .ok (.done, s)
  | .int _ => .ok (.refused .wrongType, s)

/-- Gives a key the deadline that lies so many seconds from `now`. -/
def performExpire (s : Keyspace) (key seconds : Value) (now : Int64) :
    Checked (Reply × Keyspace) :=
  match seconds.integer?.bind (deadlineAfter? · now) with
  | some deadline => do
    let s ← s.setDeadline key deadline
    .ok (.done, s)
  | none => .ok (.refused .notInteger, s)

/-- Carries out a command on the arguments after its name. There must be as many as the command
takes. -/
def performCommand (s : Keyspace) (now : Int64) (command : Command) (args : List Value) :
    Checked (Reply × Keyspace) :=
  match command, args with
  | .get, [key] => s.performGet key now
  | .set, [key, value] => s.performSet key value
  | .expire, [key, seconds] => s.performExpire key seconds now
  | _, _ => .error .outOfRange

/-- Carries out a request at the time `now`. There must be a first argument. -/
def perform (s : Keyspace) (now : Int64) (args : List Value) : Checked (Outcome × Keyspace) :=
  match args with
  | [] => .error .outOfRange
  | first :: rest =>
    if Command.isQuit first.bytes then .ok (.quit, s)
    else
      match Command.lookup? first.bytes with
      | none => .ok (.reply (.refused (.unknownCommand (Utf8.lossy first.bytes))), s)
      | some command =>
        if command.arity ≠ rest.length + 1 then
          .ok (.reply (.refused (.wrongArity (Utf8.lossy first.bytes))), s)
        else do
          let (reply, s) ← s.performCommand now command rest
          .ok (.reply reply, s)

end Keyspace

end KeyValueServer
