import KeyValueServer.CommandLine
import KeyValueServer.LogFilter
import KeyValueServer.Settings
import KeyValueServer.SocketAddress
import KeyValueServer.Text.Quoted

/-!
# Starting the server

From the command line to an address that is listened on: the settings file is read, options
take the place of its settings, the log filter is checked, the address is read, and the system
is asked to listen. The first of these that fails ends the start, with a report of one line and
the causes behind it. What the system answers is an argument.

## Main definitions

* `StartError` — why no address can be listened on;
* `StartFailure`, `StartFailure.headline`, `StartFailure.causes` — why a start ends, and the
  report;
* `System` — what a start asks of the system;
* `Startup.listen`, `Startup.prepare` — listening, and everything up to it.
-/

namespace KeyValueServer

/-- Why no address can be listened on. -/
inductive StartError
  /-- The text is no address. -/
  | address (text : String)
  /-- The system does not let the server listen there. -/
  | listen (text : String) (error : SystemError)
  deriving DecidableEq

namespace StartError

/-- The cause behind an error. -/
def source : StartError → String
  | address _ => "invalid socket address syntax"
  | listen _ error => error.message

/-- The wording of an error. -/
def message : StartError → String
  | address text => "invalid bind address " ++ Quoted.quote text ++ ": " ++ (address text).source
  | listen text error =>
    "failed to set up listening socket on " ++ text ++ ": " ++ (listen text error).source

end StartError

/-- Why a start ends. -/
inductive StartFailure
  /-- The settings file cannot be used. -/
  | settings (path : String) (error : LoadError)
  /-- The log filter is none. -/
  | logFilter
  /-- The server cannot listen. -/
  | server (error : StartError)
  deriving DecidableEq

namespace StartFailure

/-- The line that says what has failed. -/
def headline : StartFailure → String
  | settings path .malformed => "Failed to parse config file " ++ Quoted.quote path
  | settings path _ => "Failed to read config file " ++ Quoted.quote path
  | logFilter => "invalid log filter"
  | server _ => "failed to start server"

/-- The causes, the nearest first. -/
def causes : StartFailure → List String
  | settings _ error => [error.message]
  | logFilter => ["invalid filter directive"]
  | server error => [error.message, error.source]

/-- The causes as they are listed: with their numbers if there are several. -/
def causeLines (failure : StartFailure) : List String :=
  match failure.causes with
  | [cause] => [cause]
  | causes => causes.mapIdx fun i cause => Numeral.decimal i ++ ": " ++ cause

end StartFailure

/-- What a start asks of the system. -/
structure System where
  /-- The bytes of the file at a path. -/
  read : String → Except SystemError Bytes
  /-- Listening on an address. -/
  listen : SocketAddress → Except SystemError Unit

namespace Startup

/-- The settings with those that the command line gives in their place. -/
def overridden (s : Settings) (o : Options) : Settings :=
  { s with
    host := o.host?.getD s.host
    port := o.port?.getD s.port
    logLevel := o.logLevel?.getD s.logLevel }

/-- The address that settings give to listen on. -/
def addressOf (s : Settings) : Except StartError SocketAddress :=
  match SocketAddress.parse? s.bindAddress with
  | some address => .ok address
  | none => .error (.address s.bindAddress)

/-- The address that the system listens on for settings. -/
def listen (system : System) (s : Settings) : Except StartError SocketAddress := do
  let address ← addressOf s
  match system.listen address with
  | .ok () => .ok address
  | .error e => .error (.listen s.bindAddress e)

/-- The settings that the command line and the settings file give together. -/
def settingsFor (system : System) (o : Options) : Except StartFailure Settings :=
  match o.config? with
  | some path =>
    match Settings.load (system.read path) with
    | .ok settings => .ok (overridden settings o)
    | .error e => .error (.settings path e)
  | none => .ok (overridden Settings.initial o)

/-- The settings, and the address that is listened on; or why the start ends. Reading a log
filter may end in a fault. -/
def prepare (system : System) (o : Options) :
    Checked (Except StartFailure (Settings × SocketAddress)) :=
  match settingsFor system o with
  | .error e => .ok (.error e)
  | .ok settings => do
    if ← LogFilter.isValid settings.logLevel then
      match listen system settings with
      | .ok address => .ok (.ok (settings, address))
      | .error e => .ok (.error (.server e))
    else .ok (.error .logFilter)

end Startup

end KeyValueServer
