import KeyValueServer.Command
import KeyValueServer.Reactor.Rounds
import KeyValueServer.Server.Client
import KeyValueServer.Settings

/-!
# The server

The server accepts connections, reads requests, performs them on its keyspace one at a time,
and queues the replies. It is told by the event loop what has fired and answers with actions on
the loop. A connection ends when its peer closes it, when it breaks, at a malformed request, or
at `QUIT`; its unsent replies go with it, and what it has done to the keyspace stays.

What the operating system answers during one callback is an argument.

## Main definitions

* `Server`, `Server.register` — the state, and its registrations at the start;
* `Server.accept`, `receive`, `send`, `cron` — what happens when something fires;
* `Server.attempt` — reading and performing one request;
* `Host`, `Server.handle` — all of them as one handler of the event loop.
-/

namespace KeyValueServer

/-- A `Task` is why a descriptor is armed. -/
inductive Task
  /-- Accept connections. -/
  | accept
  /-- Read requests. -/
  | readRequests
  /-- Write replies. -/
  | sendReplies
  deriving DecidableEq

/-- A `Chore` is why a timer runs. -/
inductive Chore
  /-- Run a cycle of expiration. -/
  | expiration
  deriving DecidableEq

/-- A `Server` is all that the server keeps but the registrations of its event loop. -/
structure Server where
  /-- The descriptor on which connections arrive. -/
  listener : Descriptor
  /-- What the operator has chosen. -/
  settings : Settings
  /-- The keys. -/
  keyspace : Keyspace
  /-- The connections. -/
  clients : Registry Client
  /-- The timer of the expiration cycles, once it has been started. -/
  cron? : Option Nat

/-- An `AcceptOutcome` is what an attempt to accept a connection comes to. -/
inductive AcceptOutcome
  /-- A connection on a descriptor. -/
  | accepted (fd : Descriptor)
  /-- A connection that could not be set up and is dropped. -/
  | unusable
  /-- No connection is waiting. -/
  | wouldBlock
  /-- A signal came in between. -/
  | interrupted
  /-- Accepting failed. -/
  | failed
  deriving DecidableEq

/-- A `ReadOutcome` is what an attempt to read comes to. -/
inductive ReadOutcome
  /-- Bytes. None at all means that the peer has closed the connection. -/
  | received (bytes : Bytes)
  /-- There is nothing to read. -/
  | wouldBlock
  /-- A signal came in between. -/
  | interrupted
  /-- The connection is broken. -/
  | failed
  deriving DecidableEq

/-- A `Host` is what the operating system answers during one callback. -/
structure Host where
  /-- The attempts to accept a connection. -/
  accepts : List AcceptOutcome
  /-- The attempt to read. -/
  read : ReadOutcome
  /-- The attempts to write. -/
  writes : List WriteOutcome
  /-- The readings of the wall clock. -/
  clock : Nat → Int64
  /-- The random choices. -/
  draws : Nat → Draws

/-- A request that has been `Performed`. -/
structure Performed where
  /-- The connection it came from. -/
  fd : Descriptor
  /-- The request. -/
  args : List Bytes
  /-- When it was performed. -/
  time : Int64
  /-- What it came to. -/
  outcome : Outcome
  deriving DecidableEq

namespace Server

/-- A `LoopAction` is an action of the server on the event loop. -/
abbrev LoopAction := Action Task Chore

/-- An `Effect` is what a callback has done. -/
structure Effect where
  /-- The server afterwards. -/
  server : Server
  /-- What it asks of the event loop, in order. -/
  actions : List LoopAction
  /-- The requests that it has performed, in order. -/
  performed : List Performed

/-- `Effect.quiet s` is a callback that asks nothing of the loop. -/
def Effect.quiet (s : Server) : Effect := ⟨s, [], []⟩

/-- `fresh settings listener` is a server that listens on a descriptor. -/
def fresh (settings : Settings) (listener : Descriptor) : Server where
  listener := listener
  settings := settings
  keyspace := .empty
  clients := []
  cron? := none

/-- How many connections there are. -/
def clientCount (s : Server) : Nat :=
  s.clients.length

/-- `s.register r now` arms the listener and starts the expiration cycles, at a reading of the
clock. -/
def register (s : Server) (r : Reactor Task Chore) (now : Nat) :
    Checked (Server × Reactor Task Chore) := do
  let r := r.arm s.listener .readable .accept
  let (id, r) ← r.start .recurring s.settings.cronInterval.toNat .expiration now
  .ok ({ s with cron? := some id }, r)

/-- `s.free fd` ends a connection. -/
def free (s : Server) (fd : Descriptor) : Effect where
  server := { s with clients := s.clients.erase fd }
  actions := [.disarm fd .readable, .disarm fd .writable]
  performed := []

/-! ### Accepting -/

/-- `accept outcomes s` takes the connections that wait, until there is none or accepting fails. -/
def accept : List AcceptOutcome → Server → Effect
  | [], s => .quiet s
  | .accepted fd :: rest, s =>
    let e := accept rest { s with clients := s.clients.put fd Client.fresh }
    { e with actions := .arm fd .readable .readRequests :: e.actions }
  | .unusable :: rest, s => accept rest s
  | .interrupted :: rest, s => accept rest s
  | .wouldBlock :: _, s => .quiet s
  | .failed :: _, s => .quiet s

/-! ### Reading and performing requests -/

/-- An `Attempt` is what one attempt to complete a request comes to. -/
structure Attempt where
  /-- The server afterwards. -/
  server : Server
  /-- What it asks of the event loop, in order. -/
  actions : List LoopAction
  /-- The request that was performed, if one was. -/
  performed? : Option Performed
  /-- Whether the bytes that wait may complete another request. -/
  goesOn : Bool

/-- `e.after a` is the effect with what an attempt before it came to. -/
def Effect.after (a : Attempt) (e : Effect) : Effect :=
  { e with
    actions := a.actions ++ e.actions
    performed := a.performed?.toList ++ e.performed }

/-- `s.dispatch fd client args now` performs a request of a connection at the time `now`. A request
without arguments is passed over. -/
def dispatch (s : Server) (fd : Descriptor) (client : Client) (args : List Bytes) (now : Int64) :
    Checked Attempt :=
  if args.isEmpty then .ok ⟨{ s with clients := s.clients.put fd client }, [], none, true⟩
  else do
    let (outcome, keyspace) ← s.keyspace.perform now (args.map Value.str)
    let performed : Performed := ⟨fd, args, now, outcome⟩
    let s := { s with keyspace := keyspace }
    match outcome with
    | .quit => .ok ⟨(s.free fd).server, (s.free fd).actions, some performed, false⟩
    | .reply reply =>
      let client := client.addReply (.str reply.encode)
      .ok
        { server := { s with clients := s.clients.put fd client }
          actions := [.arm fd .writable .sendReplies]
          performed? := some performed
          goesOn := true }

/-- `s.attempt fd now` performs the next request that the bytes of a connection complete, at the
time `now`. -/
def attempt (s : Server) (fd : Descriptor) (now : Int64) : Checked Attempt :=
  match s.clients.get? fd with
  | none => .ok ⟨s, [], none, false⟩
  | some client => do
    let (progress, decoder) ← client.decoder.parse
    match progress with
    | .needMore =>
      let client := { client with decoder := decoder }
      .ok ⟨{ s with clients := s.clients.put fd client }, [], none, false⟩
    | .malformed _ => .ok ⟨(s.free fd).server, (s.free fd).actions, none, false⟩
    | .ready =>
      let (args, decoder) := decoder.take
      s.dispatch fd { client with decoder := decoder } args now

/-- `serve fd clock turn attempts s` performs the requests that the bytes of a connection complete,
in at most `attempts` attempts to complete one. The `turn`-th is made at the time `clock turn`. -/
def serve (fd : Descriptor) (clock : Nat → Int64) (turn : Nat) :
    Nat → Server → Checked Effect
  | 0, _ => .error .exhausted
  | attempts + 1, s => do
    let a ← s.attempt fd (clock turn)
    if a.goesOn then do
      let e ← serve fd clock (turn + 1) attempts a.server
      .ok (e.after a)
    else .ok (Effect.after a (.quiet a.server))

/-- `s.receive fd outcome clock` reads from a connection once, and performs what has become
complete. -/
def receive (s : Server) (fd : Descriptor) (outcome : ReadOutcome) (clock : Nat → Int64) :
    Checked Effect :=
  match s.clients.get? fd with
  | none => .ok (.quiet s)
  | some client =>
    match outcome with
    | .received bytes =>
      if bytes.isEmpty then .ok (s.free fd)
      else
        let client := { client with decoder := client.decoder.feed bytes }
        serve fd clock 0 client.decoder.attempts { s with clients := s.clients.put fd client }
    | .wouldBlock => .ok (.quiet s)
    | .interrupted => .ok (.quiet s)
    | .failed => .ok (s.free fd)

/-! ### Writing replies -/

/-- `s.send fd outcomes` writes the replies of a connection. When none is left, the connection is no
longer watched for writing. -/
def send (s : Server) (fd : Descriptor) (outcomes : List WriteOutcome) : Effect :=
  match s.clients.get? fd with
  | none => .quiet s
  | some client =>
    let flushed := client.flush outcomes
    if flushed.isOpen then
      if flushed.client.replies.isEmpty then
        { server := { s with clients := s.clients.put fd { flushed.client with sent := 0 } }
          actions := [.disarm fd .writable]
          performed := [] }
      else .quiet { s with clients := s.clients.put fd flushed.client }
    else s.free fd

/-! ### Expiration -/

/-- `s.cron now draws` runs a cycle of expiration. -/
def cron (s : Server) (now : Int64) (draws : Nat → Draws) : Checked Effect := do
  let (_, keyspace) ← s.keyspace.expireCycle s.settings.expireCheckCount.toNat now draws
  .ok (.quiet { s with keyspace := keyspace })

/-! ### As a handler -/

/-- `s.handle host fired` is what the server does when something fires. -/
def handle (s : Server) (host : Host) : Fired Task Chore → Checked Effect
  | .descriptor _ _ .accept => .ok (s.accept host.accepts)
  | .descriptor fd _ .readRequests => s.receive fd host.read host.clock
  | .descriptor fd _ .sendReplies => .ok (s.send fd host.writes)
  | .timer _ .expiration => s.cron (host.clock 0) host.draws

/-- A `Session` is the server under an event loop: what it has become, and what it has performed so
far. The number of callbacks so far selects the answers of the operating system. -/
structure Session where
  /-- The server. -/
  server : Server
  /-- How many callbacks there have been. -/
  turn : Nat
  /-- The requests performed so far, in order. -/
  performed : List Performed

/-- `handler hosts` is the server as a handler of the event loop. -/
def handler (hosts : Nat → Fired Task Chore → Host) : Handler Task Chore Session :=
  fun event _ session => do
    let e ← session.server.handle (hosts session.turn event) event
    .ok (e.actions, ⟨e.server, session.turn + 1, session.performed ++ e.performed⟩)

end Server

end KeyValueServer
