import KeyValueServer.Numeral

/-!
# The command line

The operator starts the server with options, each at most once: a long option takes its value
after an equals sign or as the next argument, a short one also without anything in between. An
argument that starts with a dash is never the value of the option before it, a single dash
apart. Arguments are read from left to right, and a value is checked when the next option is
met or the arguments end; so a request for help is answered only if nothing before it is wrong.

## Main definitions

* `Options` — what the operator may give;
* `Invocation`, `CommandLine.parse` — what the arguments ask for;
* `CommandLine.help`, `CommandLine.version` — the texts that may be asked for.
-/

namespace KeyValueServer

/-- What the operator may give on the command line. -/
structure Options where
  /-- The path of a settings file. -/
  config? : Option String
  /-- The address to listen on. -/
  host? : Option String
  /-- The port to listen on. -/
  port? : Option UInt16
  /-- Which messages are logged. -/
  logLevel? : Option String
  deriving DecidableEq

/-- What the arguments ask for. -/
inductive Invocation
  /-- The help text. -/
  | help
  /-- The version. -/
  | version
  /-- A running server. -/
  | run (options : Options)
  deriving DecidableEq

/-- Why arguments are refused. -/
inductive UsageError
  /-- There is no such option, or a value that belongs to none. -/
  | unexpectedArgument (arg : String)
  /-- An option stands without its value. -/
  | missingValue (option : String)
  /-- A value is of the wrong kind. -/
  | invalidValue (option value : String)
  /-- An option is given twice. -/
  | repeatedOption (option : String)
  /-- A value is given to an option that takes none. -/
  | unexpectedValue (option value : String)
  deriving DecidableEq

/-- The wording of a refusal. -/
def UsageError.message : UsageError → String
  | .unexpectedArgument arg => "unexpected argument '" ++ arg ++ "' found"
  | .missingValue option => "a value is required for '" ++ option ++ "' but none was supplied"
  | .invalidValue option value => "invalid value '" ++ value ++ "' for '" ++ option ++ "'"
  | .repeatedOption option => "the argument '" ++ option ++ "' cannot be used multiple times"
  | .unexpectedValue option value =>
    "unexpected value '" ++ value ++ "' for '" ++ option ++ "' found; no more were expected"

namespace CommandLine

/-- An option that takes a value. -/
inductive Key
  | config
  | host
  | port
  | logLevel
  deriving DecidableEq

/-- An option. -/
inductive Switch
  | help
  | version
  | value (key : Key)
  deriving DecidableEq

/-- The long name of an option with a value. -/
def Key.longName : Key → String
  | .config => "config"
  | .host => "host"
  | .port => "port"
  | .logLevel => "log-level"

/-- The option of a long name. -/
def ofLong? (name : String) : Option Switch :=
  if name = "help" then some .help
  else if name = "version" then some .version
  else if name = "config" then some (.value .config)
  else if name = "host" then some (.value .host)
  else if name = "port" then some (.value .port)
  else if name = "log-level" then some (.value .logLevel)
  else none

/-- The option of a short name. -/
def ofShort? (c : Char) : Option Switch :=
  if c = 'h' then some .help
  else if c = 'V' then some .version
  else if c = 'c' then some (.value .config)
  else if c = 'p' then some (.value .port)
  else none

/-- The option that waits for its value to be given, or for its given value to be checked. -/
inductive Pending
  | nothing
  | awaiting (key : Key)
  | holding (key : Key) (value : String)
  deriving DecidableEq

/-- The reading of the arguments so far. -/
structure Reading where
  /-- The options whose values have been checked. -/
  options : Options
  /-- The option at hand. -/
  pending : Pending
  /-- Whether two dashes have ended the options. -/
  escaped : Bool

/-- The reading before the first argument. -/
def Reading.initial : Reading := ⟨⟨none, none, none, none⟩, .nothing, false⟩

/-- A value as a port. -/
def port? (value : String) : Option UInt16 :=
  (Numeral.int64? (Bytes.ofText value)).bind fun n =>
    if 0 ≤ n.toInt ∧ n.toInt < UInt16.size then some (UInt16.ofNat n.toInt.toNat) else none

/-- Whether an option has a value already. -/
def isGiven (o : Options) : Key → Bool
  | .config => o.config?.isSome
  | .host => o.host?.isSome
  | .port => o.port?.isSome
  | .logLevel => o.logLevel?.isSome

/-- The options with a value for one that has none yet. -/
def assign (o : Options) (key : Key) (value : String) : Except UsageError Options :=
  if isGiven o key then .error (.repeatedOption key.longName)
  else match key with
    | .config =>
      if value.isEmpty then .error (.missingValue key.longName)
      else .ok { o with config? := some value }
    | .host => .ok { o with host? := some value }
    | .port =>
      match port? value with
      | some port => .ok { o with port? := some port }
      | none => .error (.invalidValue key.longName value)
    | .logLevel => .ok { o with logLevel? := some value }

/-- The options with the value at hand checked. -/
def Reading.resolve (r : Reading) : Except UsageError Options :=
  match r.pending with
  | .nothing => .ok r.options
  | .awaiting key => .error (.missingValue key.longName)
  | .holding key value => assign r.options key value

/-- What one argument leads to: a further reading, or an end. -/
inductive Step
  | more (r : Reading)
  | finish (i : Invocation)

/-- The reading after an option with the value that is attached to it, if one is. -/
def Reading.meet (r : Reading) (switch : Switch) (attached? : Option String) :
    Except UsageError Step :=
  match switch, attached? with
  | .help, some value => .error (.unexpectedValue "help" value)
  | .version, some value => .error (.unexpectedValue "version" value)
  | .help, none => do
    let _ ← r.resolve
    .ok (.finish .help)
  | .version, none => do
    let _ ← r.resolve
    .ok (.finish .version)
  | .value key, none => do
    let options ← r.resolve
    .ok (.more { r with options := options, pending := .awaiting key })
  | .value key, some value => do
    let options ← r.resolve
    let options ← assign options key value
    .ok (.more { r with options := options, pending := .nothing })

/-- The name before the first equals sign, and the value after it. -/
def splitValue (s : List Char) : String × Option String :=
  match s.dropWhile (· != '=') with
  | [] => (String.ofList s, none)
  | _ :: value => (String.ofList (s.takeWhile (· != '=')), some (String.ofList value))

/-- The value that is attached to a short option. -/
def attachedValue? : List Char → Option String
  | [] => none
  | '=' :: value => some (String.ofList value)
  | value => some (String.ofList value)

/-- The reading after an argument that is no option. -/
def Reading.meetValue (r : Reading) (arg : String) : Except UsageError Step :=
  match r.pending with
  | .awaiting key => .ok (.more { r with pending := .holding key arg })
  | _ => .error (.unexpectedArgument arg)

/-- The reading after one more argument. -/
def Reading.step (r : Reading) (arg : String) : Except UsageError Step :=
  if r.escaped then .error (.unexpectedArgument arg)
  else
    match arg.toList with
    | ['-', '-'] => .ok (.more { r with escaped := true })
    | '-' :: '-' :: long =>
      match ofLong? (splitValue long).1 with
      | some switch => r.meet switch (splitValue long).2
      | none => .error (.unexpectedArgument arg)
    | '-' :: c :: rest =>
      match ofShort? c with
      | some (.value key) => r.meet (.value key) (attachedValue? rest)
      | some switch => r.meet switch none
      | none => .error (.unexpectedArgument arg)
    | _ => r.meetValue arg

/-- What arguments ask for after those that have been read. -/
def parseFrom (r : Reading) : List String → Except UsageError Invocation
  | [] => do
    let options ← r.resolve
    .ok (.run options)
  | arg :: rest => do
    match ← r.step arg with
    | .more r => parseFrom r rest
    | .finish invocation => .ok invocation

/-- What arguments ask for. -/
def parse (args : List String) : Except UsageError Invocation :=
  parseFrom .initial args

/-- The help text. -/
def help : String :=
  "Single-threaded in-memory key-value server\n\n" ++
  "Usage: godis [OPTIONS]\n\n" ++
  "Options:\n" ++
  "  -c, --config <CONFIG>        JSON config file\n" ++
  "      --host <HOST>            Host to bind to\n" ++
  "  -p, --port <PORT>            Port to listen on\n" ++
  "      --log-level <LOG_LEVEL>  Log filter used when RUST_LOG is unset\n" ++
  "  -h, --help                   Print help\n" ++
  "  -V, --version                Print version\n"

/-- The version text. -/
def version : String :=
  "godis 0.1.0\n"

end CommandLine

end KeyValueServer
