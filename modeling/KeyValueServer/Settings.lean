import KeyValueServer.Json.Reader
import KeyValueServer.Json.Writer
import KeyValueServer.SystemError
import KeyValueServer.Text.Utf8

/-!
# Settings

What the operator may choose. A settings file is a JSON text: an object with any of the
settings by name, or an array with the first of them in order. A setting that is not given has
its default. Other names in an object are passed over; a setting given twice, or a value of the
wrong kind or out of its range, makes the file malformed.

## Main definitions

* `Settings` — the settings and their defaults;
* `Settings.ofJson?` — settings from a syntax tree;
* `Settings.load` — settings from the bytes of a file;
* `Settings.jsonText` — the settings as a JSON text.
-/

namespace KeyValueServer

/-- What the operator may choose. -/
structure Settings where
  /-- The address to listen on. -/
  host : String := "127.0.0.1"
  /-- The port to listen on; zero lets the system choose. -/
  port : UInt16 := 6379
  /-- The time between two cycles of expiration, in milliseconds. -/
  cronInterval : UInt64 := 100
  /-- How many deadlines a cycle of expiration samples. -/
  expireCheckCount : UInt64 := 100
  /-- Which messages are logged. -/
  logLevel : String := "info"
  deriving DecidableEq

/-- Why a settings file cannot be used. -/
inductive LoadError
  /-- The system does not read the file. -/
  | unreadable (error : SystemError)
  /-- The file holds no text. -/
  | notText
  /-- The text gives no settings. -/
  | malformed
  deriving DecidableEq

/-- The wording of an error. -/
def LoadError.message : LoadError → String
  | unreadable error => error.message
  | notText => "stream did not contain valid UTF-8"
  | malformed => "the file does not hold settings"

namespace Settings

/-- The settings of an operator who chooses nothing. -/
def initial : Settings := {}

/-- The address and the port as one text. -/
def bindAddress (s : Settings) : String :=
  s.host ++ ":" ++ Numeral.decimal s.port.toNat

/-! ### From a syntax tree -/

/-- A tree as a port. -/
def port? (value : Json) : Option UInt16 :=
  (value.naturalBelow? UInt16.size).map UInt16.ofNat

/-- A tree as a 64-bit word. -/
def word? (value : Json) : Option UInt64 :=
  (value.naturalBelow? UInt64.size).map UInt64.ofNat

/-- The setting of a name: its default if it is not given, and nothing if it is given twice or
cannot be read. -/
def named? {α : Type} (members : List (String × Json)) (name : String) (read : Json → Option α)
    (default : α) : Option α :=
  match members.filter (fun member => member.1 == name) with
  | [] => some default
  | [member] => read member.2
  | _ => none

/-- Settings by name. -/
def ofMembers? (members : List (String × Json)) : Option Settings := do
  let host ← named? members "host" Json.text? initial.host
  let port ← named? members "port" port? initial.port
  let cronInterval ← named? members "cron_interval_ms" word? initial.cronInterval
  let expireCheckCount ← named? members "expire_check_count" word? initial.expireCheckCount
  let logLevel ← named? members "log_level" Json.text? initial.logLevel
  some { host, port, cronInterval, expireCheckCount, logLevel }

/-- The setting at a place: its default if the items end before it. -/
def placed? {α : Type} (items : List Json) (place : Nat) (read : Json → Option α) (default : α) :
    Option α :=
  match items[place]? with
  | none => some default
  | some item => read item

/-- How many settings there are. -/
def count : Nat := 5

/-- Settings by place. -/
def ofItems? (items : List Json) : Option Settings :=
  if count < items.length then none
  else do
    let host ← placed? items 0 Json.text? initial.host
    let port ← placed? items 1 port? initial.port
    let cronInterval ← placed? items 2 word? initial.cronInterval
    let expireCheckCount ← placed? items 3 word? initial.expireCheckCount
    let logLevel ← placed? items 4 Json.text? initial.logLevel
    some { host, port, cronInterval, expireCheckCount, logLevel }

/-- Members with their names as texts. -/
def namedMembers? : List (List Nat × Json) → Option (List (String × Json))
  | [] => some []
  | (name, value) :: rest => do
    let name ← Json.textOf? name
    let rest ← namedMembers? rest
    some ((name, value) :: rest)

/-- Settings from a syntax tree. -/
def ofJson? : Json → Option Settings
  | .object members => (namedMembers? members).bind ofMembers?
  | .array items => ofItems? items
  | _ => none

/-- Settings from a text. -/
def parse? (text : String) : Option Settings :=
  (Json.parse? text).bind ofJson?

/-- Settings from the bytes of a file, if the system reads them. -/
def load : Except SystemError Bytes → Except LoadError Settings
  | .error e => .error (.unreadable e)
  | .ok bytes =>
    match Utf8.text? bytes with
    | none => .error .notText
    | some text =>
      match parse? text with
      | none => .error .malformed
      | some settings => .ok settings

/-! ### To a text -/

/-- The settings as a JSON text, each by name. -/
def jsonText (s : Settings) : String :=
  String.ofList (Json.objectText
    [("host", Json.quoted s.host),
     ("port", Json.naturalText s.port.toNat),
     ("cron_interval_ms", Json.naturalText s.cronInterval.toNat),
     ("expire_check_count", Json.naturalText s.expireCheckCount.toNat),
     ("log_level", Json.quoted s.logLevel)])

end Settings

end KeyValueServer
