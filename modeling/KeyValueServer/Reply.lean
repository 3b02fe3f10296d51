import KeyValueServer.Value

/-!
# Replies

A command answers with one reply. On the wire a reply is a run of bytes that ends in a line
end. The length of a payload is written in front of it with nothing between the two.

## Main definitions

* `CommandError`, `CommandError.message` — why a command is refused;
* `Reply`, `Reply.encode` — the answers and their bytes.
-/

namespace KeyValueServer

/-- Why a command is refused. -/
inductive CommandError
  /-- No command has this name. -/
  | unknownCommand (name : String)
  /-- The command takes another number of arguments. -/
  | wrongArity (name : String)
  /-- The value is of the wrong kind for the command. -/
  | wrongType
  /-- An argument is no integer, or too large a one. -/
  | notInteger
  deriving DecidableEq

/-- The wording of a refusal. -/
def CommandError.message : CommandError → String
  | .unknownCommand name => "unknown command '" ++ name ++ "'"
  | .wrongArity name => "wrong number of arguments for '" ++ name ++ "'"
  | .wrongType => "wrong type"
  | .notInteger => "value is not an integer or out of range"

/-- The answer to a command. -/
inductive Reply
  /-- The command has been carried out. -/
  | done
  /-- There is no value. -/
  | nil
  /-- A value. -/
  | bulk (value : Value)
  /-- The command is refused. -/
  | refused (error : CommandError)
  deriving DecidableEq

/-- The bytes of a reply. A value that is no string has an empty payload. -/
def Reply.encode : Reply → Bytes
  | .done => Bytes.ofText "+OK\r\n"
  | .nil => Bytes.ofText "$-1\r\n"
  | .bulk value =>
    Bytes.ofText "$" ++ Bytes.ofText (Numeral.decimal value.bytes.length) ++ value.bytes
      ++ Bytes.crlf
  | .refused error => Bytes.ofText "-ERR: " ++ Bytes.ofText error.message ++ Bytes.crlf

end KeyValueServer
